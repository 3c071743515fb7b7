import Templating.Eval.Cursor
import Templating.Proofs.Eval.Outcome
import Templating.Proofs.Eval.Scopes
import Templating.Proofs.Value.Rename

/-!
# Confined evaluations

The nodes that an evaluation comes to are those of the template that runs, or they are brought along
by values and generators. Here evaluations are confined to some code: everything that the machine
holds is within it, before and after. Two runs are compared that need not do the same with other
nodes.

* `Value.Mentions`: a template occurs in a value.
* `Value.Within`: all code that a value brings along is among some nodes.
* `Renaming.censor`: takes away the code of all other templates.
* `Value.within_iff_rename`: a value is within some code exactly if nothing is taken away from it.
  That is how calculations on values are seen to make up no templates.
* `Environment.values`, `Cursor.values`, `Cursor.nodes`: what variables and iterators hold.
* `Machine.Within`: everything that a machine holds is within some code.
* `Eval.Confined`: two actions do the same on such machines, and leave such a machine.
* `Eval.Confined.bind`, `Eval.Confined.attempt`, `Eval.Confined.inFrame`: **the ways to put actions
  together keep that**.
-/

namespace Templating

/-! ## Templates in values -/

section Mentions

/-- A template occurs in a value. -/
inductive Value.Mentions (t : Template) : Value → Prop where
  | template : Mentions t (.template t)
  | list {items : List Value} {v : Value} (hmem : v ∈ items) (hv : Mentions t v) :
      Mentions t (.list items)
  | dict {entries : List (String × Value)} {e : String × Value} (hmem : e ∈ entries)
      (hv : Mentions t e.2) : Mentions t (.dict entries)

/-- Some nodes that may be evaluated. -/
abbrev Code := Node → Prop

/-- A template whose statements are among some nodes. -/
def Template.Within (code : Code) (t : Template) : Prop := ∀ n ∈ t.block.content, code n

/-- A value whose templates have their statements among some nodes. -/
def Value.Within (code : Code) (v : Value) : Prop := ∀ t, v.Mentions t → t.Within code

/-- Values whose templates have their statements among some nodes. -/
def Value.AllWithin (code : Code) (vs : List Value) : Prop := ∀ v ∈ vs, v.Within code

/-- Bindings of such values. -/
def Bindings.Within (code : Code) (bs : List (String × Value)) : Prop := ∀ b ∈ bs, b.2.Within code

namespace Value

variable {code : Code} {t : Template} {vs : List Value} {es : List (String × Value)} {v : Value}

/-! ### Kinds of values -/

theorem within_list_iff : (Value.list vs).Within code ↔ AllWithin code vs := by
  constructor
  · exact fun h v hv t ht => h t (.list hv ht)
  · rintro h t (_ | ⟨hv, ht⟩)
    exact h _ hv t ht

theorem within_dict_iff : (Value.dict es).Within code ↔ Bindings.Within code es := by
  constructor
  · exact fun h e he t ht => h t (.dict he ht)
  · rintro h t (_ | _ | ⟨he, ht⟩)
    exact h _ he t ht

theorem within_template_iff : (Value.template t).Within code ↔ t.Within code := by
  constructor
  · exact fun h => h t .template
  · rintro h _ ⟨⟩
    exact h

/-- A value without templates. -/
theorem Within.leaf (h : ∀ t, ¬ v.Mentions t) : v.Within code := fun t ht => absurd ht (h t)

theorem within_none : Value.none.Within code := .leaf nofun

theorem within_bool (b : Bool) : (Value.bool b).Within code := .leaf nofun

theorem within_int (n : Int64) : (Value.int n).Within code := .leaf nofun

theorem within_float (x : Float) : (Value.float x).Within code := .leaf nofun

theorem within_date (d : Date) : (Value.date d).Within code := .leaf nofun

theorem within_str (s : String) : (Value.str s).Within code := .leaf nofun

theorem within_ofLiteral (l : Literal) : (Value.ofLiteral l).Within code := by
  cases l <;> exact .leaf nofun

theorem within_iterator (h : Handle) : (Value.iterator h).Within code := .leaf nofun

theorem AllWithin.nil : AllWithin code [] := nofun

theorem AllWithin.cons (hv : v.Within code) (hvs : AllWithin code vs) :
    AllWithin code (v :: vs) := List.forall_mem_cons.2 ⟨hv, hvs⟩

theorem AllWithin.reverse (h : AllWithin code vs) : AllWithin code vs.reverse :=
  fun v hv => h v (List.mem_reverse.1 hv)

end Value

theorem Bindings.Within.nil {code : Code} : Bindings.Within code [] := nofun

/-! ### Code that is taken away -/

open Classical in
/-- The template itself if it is within some code, and otherwise one without statements. -/
noncomputable def Template.censor (code : Code) (t : Template) : Template :=
  if t.Within code then t else { t with block := ⟨t.block.stop, []⟩ }

variable {code : Code}

theorem Template.id_censor (t : Template) : (t.censor code).id = t.id := by
  unfold censor
  split <;> rfl

theorem Template.censor_eq_self_iff (t : Template) : t.censor code = t ↔ t.Within code := by
  by_cases h : t.Within code
  · exact iff_of_true (if_pos h) h
  · refine iff_of_false (fun hsame => h ?_) h
    -- A template whose statements are taken away had none before.
    rw [censor, if_neg h] at hsame
    have hempty : t.block.content = [] := by rw [← hsame]
    simp [Template.Within, hempty]

/-- Takes away the statements of all templates that are not within some code. -/
noncomputable def Renaming.censor (code : Code) : Renaming where
  template := Template.censor code
  handle := id
  name t := by unfold Template.censor; split <;> rfl
  source t := by unfold Template.censor; split <;> rfl
  startDelim t := by unfold Template.censor; split <;> rfl
  endDelim t := by unfold Template.censor; split <;> rfl

theorem Renaming.censor_faithful : (Renaming.censor code).Faithful := by
  refine ⟨fun t u => ?_, Function.injective_id⟩
  change (t.censor code).id = (u.censor code).id ↔ _
  rw [Template.id_censor, Template.id_censor]

mutual

theorem Value.within_iff_rename : ∀ v : Value,
    v.Within code ↔ v.rename (.censor code) = v
  | .none | .bool _ | .int _ | .float _ | .str _ | .date _ | .duration _ | .months _ | .color _
  | .iterator _ => iff_of_true (.leaf nofun) rfl
  | .template t => by
    rw [Value.within_template_iff, Value.rename, Value.template.injEq]
    exact t.censor_eq_self_iff.symm
  | .list items => by
    rw [Value.within_list_iff, Value.rename, Value.list.injEq, Value.allWithin_iff_rename items]
  | .dict entries => by
    rw [Value.within_dict_iff, Value.rename, Value.dict.injEq, Bindings.within_iff_rename entries]

theorem Value.allWithin_iff_rename : ∀ items : List Value,
    Value.AllWithin code items ↔ Value.renameAll (.censor code) items = items
  | [] => iff_of_true Value.AllWithin.nil rfl
  | item :: items => by
    rw [Value.renameAll, List.cons.injEq, ← Value.within_iff_rename item,
      ← Value.allWithin_iff_rename items]
    exact List.forall_mem_cons

theorem Bindings.within_iff_rename : ∀ entries : List (String × Value),
    Bindings.Within code entries ↔ Value.renameBindings (.censor code) entries = entries
  | [] => iff_of_true Bindings.Within.nil rfl
  | (key, value) :: entries => by
    rw [Value.renameBindings, List.cons.injEq, Prod.mk.injEq, ← Value.within_iff_rename value,
      ← Bindings.within_iff_rename entries, eq_self, true_and]
    exact List.forall_mem_cons

end

theorem Value.Within.rename {v : Value} (h : v.Within code) : v.rename (.censor code) = v :=
  v.within_iff_rename.1 h

theorem Value.AllWithin.rename {vs : List Value} (h : Value.AllWithin code vs) :
    vs.map (Value.rename (.censor code)) = vs := by
  rw [← Value.renameAll_eq]
  exact (Value.allWithin_iff_rename vs).1 h

theorem Bindings.Within.rename {bs : List (String × Value)} (h : Bindings.Within code bs) :
    Value.renameBindings (.censor code) bs = bs := (Bindings.within_iff_rename bs).1 h

end Mentions

/-! ## Variables -/

namespace Environment

/-- The values of all variables, those that are hidden included. -/
def values (e : Environment) : List Value := e.scopes.flatMap (·.map Prod.snd)

/-- Variables whose values are within some code. -/
def Within (code : Code) (e : Environment) : Prop := Value.AllWithin code e.values

variable {code : Code} {e e' : Environment} {name : String} {v : Value}

theorem within_iff : e.Within code ↔ ∀ scope ∈ e.scopes, Bindings.Within code scope := by
  simp only [Within, Value.AllWithin, values, List.mem_flatMap, Bindings.Within]
  constructor
  · exact fun h scope hscope b hb => h b.2 ⟨scope, hscope, List.mem_map_of_mem hb⟩
  · rintro h v ⟨scope, hscope, hv⟩
    obtain ⟨b, hb, rfl⟩ := List.mem_map.1 hv
    exact h scope hscope b hb

theorem Within.ofVars {vars : Scope} (h : Bindings.Within code vars) :
    (ofVars vars).Within code := within_iff.2 (List.forall_mem_singleton.2 h)

theorem Within.push (h : e.Within code) : e.push.Within code :=
  within_iff.2 (List.forall_mem_cons.2 ⟨.nil, within_iff.1 h⟩)

theorem Within.pop (h : e.Within code) : e.pop.Within code := by
  obtain ⟨inner, _ | ⟨scope, outer⟩⟩ := e
  · exact h
  · exact within_iff.2 (List.forall_mem_cons.1 (within_iff.1 h)).2

theorem Within.lookup? (h : e.Within code) (hv : e.lookup? name = some v) : v.Within code := by
  obtain ⟨scope, hscope, hlookup⟩ := List.exists_of_findSome?_eq_some hv
  exact within_iff.1 h scope hscope _ (Bindings.mem_of_lookup? hlookup)

theorem Within.bind (h : e.Within code) (hv : v.Within code) :
    (e.bind name v).Within code := by
  obtain ⟨hinner, houter⟩ := List.forall_mem_cons.1 (within_iff.1 h)
  refine within_iff.2 (List.forall_mem_cons.2 ⟨fun b hb => ?_, houter⟩)
  rcases Bindings.mem_insert hb with rfl | hb
  · exact hv
  · exact hinner b hb

theorem Within.remove? (h : e.Within code) (hremove : e.remove? name = some (v, e')) :
    e'.Within code := by
  obtain ⟨inners, before, after, outers, hscopes, hscopes', -⟩ :=
    removeFrom_split (removeFrom_of_remove? hremove)
  rw [within_iff, hscopes] at h
  rw [within_iff, hscopes']
  simp only [Bindings.Within, List.forall_mem_append, List.forall_mem_cons] at h ⊢
  obtain ⟨hinners, ⟨hbefore, -, hafter⟩, houters⟩ := h
  exact ⟨hinners, ⟨hbefore, hafter⟩, houters⟩

theorem Within.snapshot (h : e.Within code) : Bindings.Within code e.snapshot := by
  have hfold : ∀ (scopes : List Scope) (bs : Scope), Bindings.Within code bs →
      (∀ scope ∈ scopes, Bindings.Within code scope) →
      Bindings.Within code (scopes.foldl Bindings.merge bs) := by
    intro scopes
    induction scopes with
    | nil => exact fun _ hbs _ => hbs
    | cons scope scopes ih =>
      intro bs hbs hscopes
      obtain ⟨hscope, hscopes⟩ := List.forall_mem_cons.1 hscopes
      refine ih _ (fun b hb => ?_) hscopes
      exact (Bindings.mem_merge hb).elim (hbs b) (hscope b)
  exact hfold _ [] .nil fun scope hscope => within_iff.1 h scope (List.mem_reverse.1 hscope)

end Environment

/-! ## Machines -/

/-- The values that an iterator holds. -/
def Cursor.values : Cursor → List Value
  | .items rest | .supplied rest _ => rest
  | .flagged _ _ _ _ (.pending v) => [v]
  | .generator g => g.frame.env.values
  | _ => []

/-- The nodes that an iterator evaluates. -/
def Cursor.nodes : Cursor → List Node
  | .generator g => g.item :: g.condition.toList
  | _ => []

/-- Everything that an iterator holds is within some code. -/
structure Cursor.Within (code : Code) (cursor : Cursor) : Prop where
  values : Value.AllWithin code cursor.values
  nodes : ∀ n ∈ cursor.nodes, code n

/-- Everything that a machine holds is within some code, and the machine gives out identities from a
limit on only. -/
structure Machine.Within (code : Code) (limit : Nat) (m : Machine) : Prop where
  env : m.frame.env.Within code
  store : ∀ cell ∈ m.store, cell.cursor.Within code
  fresh : limit ≤ m.fresh

namespace Eval

/-- A result that is an error, or else has a property. -/
def OrError {α : Type} (P : α → Prop) : Except EvalError α → Prop
  | .ok a => P a
  | .error _ => True

/-- What an action ended with is within some code, and its result has a property. -/
def Outcome.Within {α : Type} (code : Code) (limit : Nat) (P : α → Prop) : Outcome α → Prop
  | .ok a m => P a ∧ m.Within code limit
  | .error _ m => m.Within code limit

/-- On machines within some code two actions do the same. They leave a machine within the code, and
their result has a property. -/
def Confined {α : Type} (code : Code) (limit : Nat) (P : α → Prop) (x y : Eval α) : Prop :=
  ∀ m, m.Within code limit → y m = x m ∧ Outcome.Within code limit P (x m)

variable {α β : Type} {code : Code} {limit : Nat} {P : α → Prop} {Q : β → Prop} {x y : Eval α}

theorem Confined.pure {a : α} (h : P a) : Confined code limit P (Pure.pure a) (Pure.pure a) :=
  fun _ hm => ⟨rfl, h, hm⟩

theorem Confined.bind {k l : α → Eval β} (hx : Confined code limit P x y)
    (hk : ∀ a, P a → Confined code limit Q (k a) (l a)) :
    Confined code limit Q (x >>= k) (y >>= l) := by
  intro m hm
  obtain ⟨hy, hwithin⟩ := hx m hm
  cases h : x m with
  | ok a m' =>
    rw [h] at hy hwithin
    rw [bind_ok hy, bind_ok h]
    exact hk a hwithin.1 m' hwithin.2
  | error e m' =>
    rw [h] at hy hwithin
    rw [bind_error hy, bind_error h]
    exact ⟨rfl, hwithin⟩

theorem Confined.throw (e : Abort) :
    Confined code limit P (throw e : Eval α) (throw e : Eval α) := fun _ hm => ⟨rfl, hm⟩

theorem Confined.raise (c : Cause) :
    Confined code limit P (raise c : Eval α) (Eval.raise c : Eval α) := .throw _

theorem Confined.lift {e : Except Cause α} (h : ∀ a, e = .ok a → P a) :
    Confined code limit P (lift e) (Eval.lift e) := by
  cases e with
  | ok a => exact .pure (h a rfl)
  | error c => exact .raise c

/-- A calculation on values that only compares templates brings along no code. -/
theorem Confined.calculate {e e' : Except Cause Value}
    (hrename : e' = e.map (Value.rename (.censor code))) (hsame : e' = e) :
    Confined code limit (Value.Within code) (Eval.lift e) (Eval.lift e) := by
  refine .lift fun v hv => ?_
  rw [hsame, hv] at hrename
  exact v.within_iff_rename.2 (Except.ok.inj hrename).symm

theorem Confined.liftWire (e : Except Wire.Error α) :
    Confined code limit (fun _ => True) (liftWire e) (Eval.liftWire e) := by
  cases e with
  | ok a => exact .pure trivial
  | error c => exact .raise _

theorem Confined.settle {e : Except EvalError α} (h : OrError P e) :
    Confined code limit P (settle e) (Eval.settle e) := by
  cases e with
  | ok a => exact .pure h
  | error c => exact .throw _

theorem Confined.attempt (h : Confined code limit P x y) :
    Confined code limit (OrError P) (attempt x) (Eval.attempt y) := by
  intro m hm
  obtain ⟨hy, hwithin⟩ := h m hm
  unfold Eval.attempt
  rw [hy]
  cases hx : x m with
  | ok a m' =>
    rw [hx] at hwithin
    exact ⟨rfl, hwithin⟩
  | error e m' =>
    rw [hx] at hwithin
    cases e with
    | failed e => exact ⟨rfl, trivial, hwithin⟩
    | exhausted => exact ⟨rfl, hwithin⟩

theorem Confined.locating (location : Location) (h : Confined code limit P x y) :
    Confined code limit P (locating location x) (Eval.locating location y) := by
  intro m hm
  obtain ⟨hy, hwithin⟩ := h m hm
  unfold Eval.locating mapError
  rw [hy]
  cases hx : x m with
  | ok a m' =>
    rw [hx] at hwithin
    exact ⟨rfl, hwithin⟩
  | error e m' =>
    rw [hx] at hwithin
    cases e <;> exact ⟨rfl, hwithin⟩

/-! ## The machine -/

theorem Confined.get : Confined code limit (Machine.Within code limit)
    (MonadState.get : Eval Machine) MonadState.get := fun _ hm => ⟨rfl, hm, hm⟩

theorem Confined.modify {f : Machine → Machine}
    (h : ∀ m, m.Within code limit → (f m).Within code limit) :
    Confined code limit (fun _ => True) (modify f : Eval Unit) (modify f) :=
  fun m hm => ⟨rfl, trivial, h m hm⟩

theorem Confined.modifyGet {f : Machine → α × Machine}
    (h : ∀ m, m.Within code limit → P (f m).1 ∧ (f m).2.Within code limit) :
    Confined code limit P (modifyGet f : Eval α) (MonadStateOf.modifyGet f) :=
  fun m hm => ⟨rfl, h m hm⟩

theorem Confined.allocate {cursor : Cursor} (hcursor : cursor.Within code) :
    Confined code limit (fun _ => True) (allocate cursor) (Eval.allocate cursor) := by
  refine .modifyGet fun m hm => ⟨trivial, hm.env, fun cell hcell => ?_, hm.fresh⟩
  rcases Array.mem_push.1 hcell with hcell | rfl
  · exact hm.store cell hcell
  · exact hcursor

theorem Confined.setCell (handle : Handle) {cell : Cell} (hcell : cell.cursor.Within code) :
    Confined code limit (fun _ => True) (setCell handle cell) (Eval.setCell handle cell) := by
  refine .modify fun m hm => ⟨hm.env, fun other hother => ?_, hm.fresh⟩
  rcases Array.mem_or_eq_of_mem_setIfInBounds hother with hother | rfl
  · exact hm.store other hother
  · exact hcell

theorem Confined.modifyEnv {f : Environment → Environment}
    (h : ∀ e, e.Within code → (f e).Within code) :
    Confined code limit (fun _ => True) (modifyEnv f) (Eval.modifyEnv f) :=
  .modify fun _ hm => ⟨h _ hm.env, hm.store, hm.fresh⟩

theorem Confined.env :
    Confined code limit (Environment.Within code) env Eval.env :=
  .bind .get fun _ hm => .pure hm.env

theorem Confined.clock : Confined code limit (fun _ => True) clock Eval.clock :=
  .bind .get fun _ _ => .pure trivial

theorem Confined.bindVar (name : String) {v : Value} (hv : v.Within code) :
    Confined code limit (fun _ => True) (bindVar name v) (Eval.bindVar name v) :=
  .modifyEnv fun _ he => he.bind hv

theorem Confined.lookupVar (name : String) :
    Confined code limit (Value.Within code) (lookupVar name) (Eval.lookupVar name) := by
  refine .bind .env fun e he => ?_
  cases hlookup : e.lookup? name with
  | none => exact .raise _
  | some v => exact .pure (he.lookup? hlookup)

theorem Confined.removeVar (name : String) :
    Confined code limit (fun _ => True) (removeVar name) (Eval.removeVar name) := by
  refine .bind .env fun e he => ?_
  cases hremove : e.remove? name with
  | none => exact .raise _
  | some p => exact .modifyEnv fun _ _ => he.remove? hremove

theorem Confined.emit (text : String) :
    Confined code limit (fun _ => True) (emit text) (Eval.emit text) :=
  .modify fun _ hm => ⟨hm.env, hm.store, hm.fresh⟩

theorem Confined.inScope (h : Confined code limit P x y) :
    Confined code limit P (inScope x) (Eval.inScope y) :=
  .bind (.modifyEnv fun _ he => he.push) fun _ _ => .bind h.attempt fun _ hr =>
    .bind (.modifyEnv fun _ he => he.pop) fun _ _ => .settle hr

theorem Confined.capture (h : Confined code limit P x y) :
    Confined code limit (fun r => OrError P r.1) (capture x) (Eval.capture y) := by
  have hswap (f : Machine → Array String × Machine)
      (hf : ∀ m : Machine, m.Within code limit → (f m).2.Within code limit) :
      Confined code limit (fun _ => True) (MonadStateOf.modifyGet f : Eval (Array String))
        (MonadStateOf.modifyGet f) := .modifyGet fun m hm => ⟨trivial, hf m hm⟩
  exact .bind (hswap _ fun _ hm => ⟨hm.env, hm.store, hm.fresh⟩) fun _ _ => .bind h.attempt
    fun _ hr => .bind (hswap _ fun _ hm => ⟨hm.env, hm.store, hm.fresh⟩) fun _ _ => .pure hr

/-- The frame that an action leaves behind is within the code, like the one it began in. -/
theorem Confined.inFrame {frame : Frame} (hframe : frame.env.Within code)
    (h : Confined code limit P x y) :
    Confined code limit (fun r => OrError P r.1 ∧ r.2.1.env.Within code)
      (inFrame frame x) (Eval.inFrame frame y) := by
  have hswap {frame : Frame} (hframe : frame.env.Within code) :
      Confined code limit (fun saved : Frame => saved.env.Within code)
        (MonadStateOf.modifyGet fun m : Machine => (m.frame, { m with frame }) : Eval Frame)
        (MonadStateOf.modifyGet fun m : Machine => (m.frame, { m with frame })) :=
    .modifyGet fun m hm => ⟨hm.env, hframe, hm.store, hm.fresh⟩
  exact .bind (hswap hframe) fun _ hsaved => .bind h.capture fun _ hr =>
    .bind (hswap hsaved) fun _ hleft => .pure ⟨hr, hleft⟩

/-! ## Lists of actions -/

variable {γ : Type} {as : List γ}

theorem Confined.forM {k l : γ → Eval Unit}
    (h : ∀ a ∈ as, Confined code limit (fun _ => True) (k a) (l a)) :
    Confined code limit (fun _ => True) (as.forM k) (as.forM l) := by
  induction as with
  | nil => exact .pure trivial
  | cons a as ih =>
    obtain ⟨ha, has⟩ := List.forall_mem_cons.1 h
    exact .bind ha fun _ _ => ih has

theorem Confined.mapM {k l : γ → Eval α} (h : ∀ a ∈ as, Confined code limit P (k a) (l a)) :
    Confined code limit (fun bs : List α => ∀ b ∈ bs, P b) (as.mapM k) (as.mapM l) := by
  induction as with
  | nil => exact .pure nofun
  | cons a as ih =>
    obtain ⟨ha, has⟩ := List.forall_mem_cons.1 h
    rw [List.mapM_cons, List.mapM_cons]
    exact .bind ha fun _ hb => .bind (ih has) fun _ hbs => .pure (List.forall_mem_cons.2 ⟨hb, hbs⟩)

theorem Confined.foldlM {k l : α → γ → Eval α}
    (h : ∀ a ∈ as, ∀ s, P s → Confined code limit P (k s a) (l s a)) {s : α} (hs : P s) :
    Confined code limit P (as.foldlM k s) (as.foldlM l s) := by
  induction as generalizing s with
  | nil => exact .pure hs
  | cons a as ih =>
    obtain ⟨ha, has⟩ := List.forall_mem_cons.1 h
    exact .bind (ha s hs) fun s hs => ih has hs

end Eval

end Templating
