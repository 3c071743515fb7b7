import Templating.Builtin.FunctionCall
import Templating.Proofs.Value.Bindings

/-!
# The scopes are nested dictionaries

The variables are read in two ways: a lookup searches the scopes from the innermost outward, and a
snapshot merges them from the outermost inward. Both agree, since in each scope a name has one
binding. That is so at first, and every operation keeps it.

* `Environment.Proper`, `Environment.proper_run`: one binding of a name in each scope.
* `Environment.Nested`: what lookups, bindings, removals and new scopes do.
* `Environment.Faithful`: what a snapshot tells.
* `scopes_nested`: **both hold after any operations**, and the builtins `vars` and `get` read the
  variables accordingly.
-/

namespace Templating

/-- An operation on the variables. -/
inductive ScopeOp where
  | bind (name : String) (value : Value)
  | remove (name : String)
  | push
  | pop

namespace Environment

/-- The names of a scope. -/
abbrev names (scope : Scope) : List String := scope.map Prod.fst

/-- The variables after an operation. A name without a binding is not removed. -/
def apply (e : Environment) : ScopeOp → Environment
  | .bind name value => e.bind name value
  | .remove name => ((e.remove? name).map Prod.snd).getD e
  | .push => e.push
  | .pop => e.pop

/-- The variables after some operations. -/
def run (e : Environment) (ops : List ScopeOp) : Environment := ops.foldl apply e

/-- In each scope a name has at most one binding. -/
def Proper (e : Environment) : Prop := ∀ scope ∈ e.scopes, (names scope).Nodup

/-- The innermost scope that binds a name binds it to a value. -/
def Binds (e : Environment) (x : String) (v : Value) : Prop :=
  ∃ inners scope outers, e.scopes = inners ++ scope :: outers ∧
    (∀ inner ∈ inners, x ∉ names inner) ∧ (x, v) ∈ scope

/-- The innermost binding of a name goes, and all others stay where they are. -/
def Unbinds (e e' : Environment) (x : String) (v : Value) : Prop :=
  ∃ inners before after outers, e.scopes = inners ++ (before ++ (x, v) :: after) :: outers ∧
    e'.scopes = inners ++ (before ++ after) :: outers ∧
    (∀ inner ∈ inners, x ∉ names inner) ∧
    e'.lookup? x = outers.findSome? (Bindings.lookup? x)

/-- A scope behaves as a dictionary inside those around it. -/
structure Nested (e : Environment) : Prop where
  depth_pos : 1 ≤ e.depth
  /-- The last scope stays. -/
  pop_last : e.depth = 1 → e.pop = e
  pop_inner : 1 < e.depth → e.scopes = e.inner :: e.pop.scopes
  lookup_iff : ∀ x v, e.lookup? x = some v ↔ e.Binds x v
  lookup_none_iff : ∀ x, e.lookup? x = none ↔ ∀ scope ∈ e.scopes, x ∉ names scope
  bind_outer : ∀ x v, (e.bind x v).outer = e.outer
  /-- A name that is bound keeps its place. -/
  bind_bound : ∀ x v before old after, e.inner = before ++ (x, old) :: after →
    (e.bind x v).inner = before ++ (x, v) :: after
  bind_new : ∀ x v, x ∉ names e.inner → (e.bind x v).inner = e.inner ++ [(x, v)]
  remove_none_iff : ∀ x, e.remove? x = none ↔ e.lookup? x = none
  /-- A removed name has the value that the next scope outward gives it. -/
  remove_some : ∀ x v e', e.remove? x = some (v, e') → e.lookup? x = some v ∧ e.Unbinds e' x v
  remove_others : ∀ x v e', e.remove? x = some (v, e') →
    ∀ y, y ≠ x → e'.lookup? y = e.lookup? y
  /-- A scope that is left takes all its bindings with it. -/
  restored : ∀ bound : List (String × Value),
    e.run (.push :: bound.map (fun b => .bind b.1 b.2) ++ [.pop]) = e

/-- A snapshot tells what a lookup finds. -/
structure Faithful (e : Environment) : Prop where
  lookup : ∀ x, Bindings.lookup? x e.snapshot = e.lookup? x
  mem_iff : ∀ x, x ∈ names e.snapshot ↔ (e.lookup? x).isSome
  nodup : (names e.snapshot).Nodup
  /-- The names stand in the order of their first definition, from the outermost scope inward. -/
  order : names e.snapshot = (e.scopes.reverse.flatMap names).eraseDups
  /-- A single scope with these variables answers alike. -/
  rebuilt : ∀ x, (ofVars e.snapshot).lookup? x = e.lookup? x

variable {e e' : Environment} {x y : String} {v : Value} {scopes scopes' : List Scope}

/-! ## Lookups -/

theorem lookup?_eq_none_iff : e.lookup? x = none ↔ ∀ scope ∈ e.scopes, x ∉ names scope := by
  simp only [lookup?, List.findSome?_eq_none_iff, Bindings.lookup?_eq_none_iff]

theorem lookup?_eq_some_iff (he : e.Proper) : e.lookup? x = some v ↔ e.Binds x v := by
  rw [lookup?, List.findSome?_eq_some_iff]
  constructor
  · rintro ⟨inners, scope, outers, hscopes, hscope, hinners⟩
    refine ⟨inners, scope, outers, hscopes, fun inner hinner => ?_, Bindings.mem_of_lookup? hscope⟩
    exact Bindings.lookup?_eq_none_iff.1 (hinners inner hinner)
  · rintro ⟨inners, scope, outers, hscopes, hinners, hmem⟩
    have hscope : scope ∈ e.scopes := by simp [hscopes]
    refine ⟨inners, scope, outers, hscopes, ?_, fun inner hinner => ?_⟩
    · exact (Bindings.lookup?_eq_some_iff (he scope hscope)).2 hmem
    · exact Bindings.lookup?_eq_none_iff.2 (hinners inner hinner)

/-! ## Bindings -/

/-- In a scope with distinct names there is nothing to choose. -/
theorem bind_inner_of_bound (he : e.Proper) {before after : Scope} {old : Value}
    (hinner : e.inner = before ++ (x, old) :: after) :
    (e.bind x v).inner = before ++ (x, v) :: after := by
  have hnodup : (names e.inner).Nodup := he e.inner List.mem_cons_self
  have hbefore : x ∉ names before := by
    rw [hinner, names, List.map_append, List.nodup_append] at hnodup
    exact fun hmem => hnodup.2.2 x hmem x (by simp) rfl
  rw [bind, hinner]
  exact Bindings.insert_split hbefore

/-! ## Removals -/

theorem removeFrom_eq_none_iff :
    removeFrom x scopes = none ↔ scopes.findSome? (Bindings.lookup? x) = none := by
  induction scopes with
  | nil => simp [removeFrom]
  | cons scope scopes ih => cases h : Bindings.lookup? x scope <;> simp [removeFrom, h, ih]

/-- The first scope with the name loses its binding of the name. -/
theorem removeFrom_split (h : removeFrom x scopes = some (v, scopes')) :
    ∃ inners before after outers, scopes = inners ++ (before ++ (x, v) :: after) :: outers ∧
      scopes' = inners ++ (before ++ after) :: outers ∧ x ∉ names before ∧
      ∀ inner ∈ inners, x ∉ names inner := by
  induction scopes generalizing scopes' with
  | nil => cases h
  | cons scope scopes ih =>
    rw [removeFrom] at h
    cases hscope : Bindings.lookup? x scope with
    | some w =>
      simp only [hscope, Option.some.injEq, Prod.mk.injEq] at h
      obtain ⟨rfl, rfl⟩ := h
      obtain ⟨before, after, rfl, hbefore⟩ := Bindings.exists_split hscope
      rw [Bindings.erase_split hbefore]
      exact ⟨[], before, after, scopes, rfl, rfl, hbefore, nofun⟩
    | none =>
      simp only [hscope, Option.map_eq_some_iff, Prod.mk.injEq, Prod.exists] at h
      obtain ⟨w, rest, hrest, rfl, rfl⟩ := h
      obtain ⟨inners, before, after, outers, rfl, rfl, hbefore, hinners⟩ := ih hrest
      refine ⟨scope :: inners, before, after, outers, rfl, rfl, hbefore, ?_⟩
      exact List.forall_mem_cons.2 ⟨Bindings.lookup?_eq_none_iff.1 hscope, hinners⟩

theorem remove?_eq (e : Environment) (x : String) : (e.remove? x).map (fun r => (r.1, r.2.scopes)) =
    removeFrom x e.scopes := by
  rw [remove?, scopes, removeFrom]
  cases Bindings.lookup? x e.inner with
  | some w => rfl
  | none => cases removeFrom x e.outer <;> rfl

theorem remove?_eq_none_iff : e.remove? x = none ↔ e.lookup? x = none := by
  rw [lookup?, ← removeFrom_eq_none_iff, ← remove?_eq, Option.map_eq_none_iff]

theorem removeFrom_of_remove? (h : e.remove? x = some (v, e')) :
    removeFrom x e.scopes = some (v, e'.scopes) := by
  rw [← remove?_eq, h, Option.map_some]

theorem lookup?_of_remove? (h : e.remove? x = some (v, e')) : e.lookup? x = some v := by
  obtain ⟨inners, before, after, outers, hscopes, -, hbefore, hinners⟩ :=
    removeFrom_split (removeFrom_of_remove? h)
  rw [lookup?, List.findSome?_eq_some_iff]
  refine ⟨inners, before ++ (x, v) :: after, outers, hscopes, ?_, fun inner hinner => ?_⟩
  · rw [Bindings.lookup?_append, Bindings.lookup?_eq_none_iff.2 hbefore]
    simp [Bindings.lookup?]
  · exact Bindings.lookup?_eq_none_iff.2 (hinners inner hinner)

theorem unbinds_of_remove? (he : e.Proper) (h : e.remove? x = some (v, e')) : e.Unbinds e' x v := by
  obtain ⟨inners, before, after, outers, hscopes, hscopes', hbefore, hinners⟩ :=
    removeFrom_split (removeFrom_of_remove? h)
  refine ⟨inners, before, after, outers, hscopes, hscopes', hinners, ?_⟩
  -- The scope had no second binding of the name, which a lookup could find now.
  have hafter : x ∉ names after := by
    have hnodup : (names (before ++ (x, v) :: after)).Nodup := he _ (by simp [hscopes])
    rw [names, List.map_append, List.map_cons, List.nodup_append, List.nodup_cons] at hnodup
    exact hnodup.2.1.1
  have hscope : Bindings.lookup? x (before ++ after) = none := by
    rw [Bindings.lookup?_eq_none_iff, List.map_append, List.mem_append, not_or]
    exact ⟨hbefore, hafter⟩
  have hskip : inners.findSome? (Bindings.lookup? x) = none := by
    refine List.findSome?_eq_none_iff.2 fun inner hinner => ?_
    exact Bindings.lookup?_eq_none_iff.2 (hinners inner hinner)
  rw [lookup?, hscopes', List.findSome?_append, hskip, Option.none_or, List.findSome?_cons, hscope]

theorem lookup?_remove?_of_ne (h : e.remove? x = some (v, e')) (hy : y ≠ x) :
    e'.lookup? y = e.lookup? y := by
  obtain ⟨inners, before, after, outers, hscopes, hscopes', -, -⟩ :=
    removeFrom_split (removeFrom_of_remove? h)
  have hskip : (y == x) = false := by simpa using hy
  have hscope : Bindings.lookup? y (before ++ after) =
      Bindings.lookup? y (before ++ (x, v) :: after) := by
    rw [Bindings.lookup?_append, Bindings.lookup?_append]
    simp only [Bindings.lookup?, List.lookup_cons, hskip]
  rw [lookup?, lookup?, hscopes, hscopes', List.findSome?_append, List.findSome?_append,
    List.findSome?_cons, List.findSome?_cons, hscope]

/-! ## Operations keep one binding of a name in each scope -/

theorem proper_ofVars {vars : Scope} (hvars : (names vars).Nodup) : (ofVars vars).Proper := by
  intro scope hscope
  rw [List.mem_singleton.1 hscope]
  exact hvars

theorem proper_remove? (he : e.Proper) (h : e.remove? x = some (v, e')) : e'.Proper := by
  obtain ⟨inners, before, after, outers, hscopes, hscopes', -, -⟩ :=
    removeFrom_split (removeFrom_of_remove? h)
  intro scope hscope
  rw [hscopes', List.mem_append, List.mem_cons] at hscope
  rcases hscope with hinner | rfl | houter
  · exact he scope (by simp [hscopes, hinner])
  · have hnodup : (names (before ++ (x, v) :: after)).Nodup := he _ (by simp [hscopes])
    have hsublist : (before ++ after).Sublist (before ++ (x, v) :: after) :=
      (List.Sublist.refl before).append (List.sublist_cons_self _ after)
    exact hnodup.sublist (hsublist.map Prod.fst)
  · exact he scope (by simp [hscopes, houter])

/-- One operation keeps the names of each scope distinct. -/
theorem proper_apply (he : e.Proper) (op : ScopeOp) : (e.apply op).Proper := by
  cases op with
  | bind name value =>
    have hinner : (names (Bindings.insert name value e.inner)).Nodup :=
      Bindings.nodup_keys_insert (he e.inner List.mem_cons_self)
    exact List.forall_mem_cons.2 ⟨hinner, (List.forall_mem_cons.1 he).2⟩
  | remove name =>
    rw [apply]
    cases h : e.remove? name with
    | none => exact he
    | some r => exact proper_remove? he h
  | push => exact List.forall_mem_cons.2 ⟨List.nodup_nil, he⟩
  | pop =>
    rw [apply, pop]
    split
    · exact he
    · rename_i scope outer houter
      have hrest := (List.forall_mem_cons.1 he).2
      rwa [houter] at hrest

/-- Any operations keep the names of each scope distinct. -/
theorem proper_run (he : e.Proper) (ops : List ScopeOp) : (e.run ops).Proper := by
  induction ops generalizing e with
  | nil => exact he
  | cons op ops ih => exact ih (proper_apply he op)

/-! ## Scopes within scopes -/

/-- Bindings happen in the innermost scope alone. -/
theorem outer_run_bind (e : Environment) (bound : List (String × Value)) :
    (e.run (bound.map fun b => .bind b.1 b.2)).outer = e.outer := by
  induction bound generalizing e with
  | nil => rfl
  | cons b bound ih => exact ih (e.bind b.1 b.2)

theorem run_push_bind_pop (e : Environment) (bound : List (String × Value)) :
    e.run (.push :: bound.map (fun b => .bind b.1 b.2) ++ [.pop]) = e := by
  have hrun : e.run (.push :: bound.map (fun b => .bind b.1 b.2) ++ [.pop]) =
      (e.push.run (bound.map fun b => .bind b.1 b.2)).pop := by
    simp only [run, List.cons_append, List.foldl_cons, List.foldl_append, List.foldl_nil, apply]
  rw [hrun, pop, outer_run_bind]
  rfl

theorem nested_of_proper (he : e.Proper) : e.Nested where
  depth_pos := Nat.succ_le_succ (Nat.zero_le _)
  pop_last h := by
    have houter : e.outer = [] := List.length_eq_zero_iff.1 (Nat.succ.inj h)
    rw [pop, houter]
  pop_inner h := by
    cases houter : e.outer with
    | nil => simp [depth, scopes, houter] at h
    | cons scope outer => simp [scopes, pop, houter]
  lookup_iff _ _ := lookup?_eq_some_iff he
  lookup_none_iff _ := lookup?_eq_none_iff
  bind_outer _ _ := rfl
  bind_bound _ _ _ _ _ hinner := bind_inner_of_bound he hinner
  bind_new _ _ hx := Bindings.insert_of_not_mem hx
  remove_none_iff _ := remove?_eq_none_iff
  remove_some _ _ _ h := ⟨lookup?_of_remove? h, unbinds_of_remove? he h⟩
  remove_others _ _ _ h _ hy := lookup?_remove?_of_ne h hy
  restored := run_push_bind_pop e

/-! ## Snapshots -/

/-- A merge of scopes, the outermost first, gives the innermost value of a name. -/
theorem lookup?_foldl_merge (hscopes : ∀ scope ∈ scopes, (names scope).Nodup) (acc : Scope)
    (x : String) : Bindings.lookup? x (scopes.foldl Bindings.merge acc) =
      (scopes.reverse.findSome? (Bindings.lookup? x)).or (Bindings.lookup? x acc) := by
  induction scopes generalizing acc with
  | nil => rfl
  | cons scope scopes ih =>
    obtain ⟨hscope, hscopes⟩ := List.forall_mem_cons.1 hscopes
    rw [List.foldl_cons, ih hscopes, Bindings.lookup?_merge hscope, List.reverse_cons,
      List.findSome?_append, Option.or_assoc]
    simp

/-- A merge of scopes has the names in the order in which they are first met. -/
theorem names_foldl_merge (scopes : List Scope) (acc : Scope) (hacc : (names acc).Nodup) :
    names (scopes.foldl Bindings.merge acc) =
      (names acc ++ scopes.flatMap names).eraseDups := by
  induction scopes generalizing acc with
  | nil => simp [Bindings.eraseDups_of_nodup hacc]
  | cons scope scopes ih =>
    have hmerge : (names (Bindings.merge acc scope)).Nodup := Bindings.nodup_keys_merge hacc
    have hnames : names (Bindings.merge acc scope) = (names acc ++ names scope).eraseDups :=
      Bindings.keys_merge hacc
    have hsame : ∀ rest : List String, rest.removeAll (names (Bindings.merge acc scope)) =
        rest.removeAll (names acc ++ names scope) := by
      intro rest
      simp only [List.removeAll, List.elem_eq_mem, hnames, List.mem_eraseDups]
    rw [List.foldl_cons, ih _ hmerge, List.flatMap_cons, ← List.append_assoc, List.eraseDups_append,
      Bindings.eraseDups_of_nodup hmerge, hsame, hnames, ← List.eraseDups_append]

theorem nodup_foldl_merge (scopes : List Scope) (acc : Scope) (hacc : (names acc).Nodup) :
    (names (scopes.foldl Bindings.merge acc)).Nodup := by
  induction scopes generalizing acc with
  | nil => exact hacc
  | cons scope scopes ih => exact ih _ (Bindings.nodup_keys_merge hacc)

theorem faithful_of_proper (he : e.Proper) : e.Faithful := by
  have hlookup (x : String) : Bindings.lookup? x e.snapshot = e.lookup? x := by
    have hscopes : ∀ scope ∈ e.scopes.reverse, (names scope).Nodup := by
      intro scope hscope
      exact he scope (List.mem_reverse.1 hscope)
    rw [snapshot, lookup?_foldl_merge hscopes, List.reverse_reverse]
    exact Option.or_none
  have hnil : (names []).Nodup := List.nodup_nil
  refine ⟨hlookup, fun x => ?_, nodup_foldl_merge _ [] hnil, ?_, fun x => ?_⟩
  · rw [← hlookup, Bindings.isSome_lookup?]
  · rw [snapshot, names_foldl_merge _ [] hnil]
    rfl
  · rw [← hlookup, lookup?]
    simp [scopes, ofVars]

/-! ## The builtins -/

/-- The builtins `vars` and `get` read the variables. -/
structure Read (e : Environment) (ev : Evaluator) (m : Machine) : Prop where
  vars : callFunction ev "vars" [] m = .ok (.dict e.snapshot) m
  get : ∀ x, callFunction ev "get" [.str x] m = .ok ((e.lookup? x).getD .none) m
  get_default : ∀ x default,
    callFunction ev "get" [.str x, default] m = .ok ((e.lookup? x).getD default) m

theorem read_env (ev : Evaluator) (m : Machine) : m.frame.env.Read ev m :=
  ⟨rfl, fun _ => rfl, fun _ _ => rfl⟩

/-- **The scopes are nested dictionaries**, and a snapshot is what they show. -/
theorem scopes_nested {vars : Scope} (hvars : (names vars).Nodup) (ops : List ScopeOp) :
    ((ofVars vars).run ops).Nested ∧ ((ofVars vars).run ops).Faithful ∧
      ∀ (ev : Evaluator) (m : Machine), m.frame.env = (ofVars vars).run ops →
        ((ofVars vars).run ops).Read ev m := by
  have hproper := proper_run (proper_ofVars hvars) ops
  refine ⟨nested_of_proper hproper, faithful_of_proper hproper, fun ev m hm => ?_⟩
  rw [← hm]
  exact read_env ev m

/-- A name that is shadowed and then removed is uncovered. -/
theorem scopes_nested_shadowed :
    let vars : Scope := [("x", .int 1), ("y", .int 2)]
    let e := (ofVars vars).run [.push, .bind "z" (.int 3), .bind "x" (.int 4), .push, .remove "x"]
    (names vars).Nodup ∧ e.Nested ∧ Bindings.lookup? "x" e.snapshot = some (.int 1) ∧
      names e.snapshot = ["x", "y", "z"] ∧ (ofVars e.snapshot).lookup? "x" = some (.int 1) := by
  intro vars e
  have hvars : (names vars).Nodup := by decide
  obtain ⟨hnested, hfaithful, -⟩ := scopes_nested hvars
    [.push, .bind "z" (.int 3), .bind "x" (.int 4), .push, .remove "x"]
  have hx : e.lookup? "x" = some (.int 1) := rfl
  refine ⟨hvars, hnested, (hfaithful.lookup "x").trans hx, rfl, (hfaithful.rebuilt "x").trans hx⟩

end Environment

end Templating
