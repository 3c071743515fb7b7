import Templating.Proofs.Eval.Node
import Templating.Proofs.Wire.RoundTrip

/-!
# Rendering what was read back

* `Machine.objects`: everything in a machine that has an identity.
* `Machine.relabel_congr`: only the identities that occur in a machine matter.
* `Evaluator.render_relabel`: two templates and machines that are the same with other identities
  render alike.
* `render_read_back`: **a template that was written and read back renders as before.**
-/

namespace Templating

open Eval

/-! ## What is in a machine -/

/-- What has an identity in some variables. -/
def Environment.objects (e : Environment) : List Object :=
  e.scopes.flatMap Value.objectsBindings

/-- What has an identity in a generator expression. -/
def Generator.objects (g : Generator) : List Object :=
  g.frame.env.objects ++ (Node.objectsOpt g.condition ++ g.item.objects)

/-- What has an identity in an item that was taken before. -/
def Lookahead.objects : Lookahead → List Object
  | .pending value => value.objects
  | .unknown | .ended => []

/-- What has an identity in an iterator. -/
def Cursor.objects : Cursor → List Object
  | .items rest | .supplied rest _ => Value.objectsAll rest
  | .flagged _ _ _ _ next => next.objects
  | .generator g => g.objects
  | .range _ _ _ | .enumerate _ _ | .zip _ | .relay _ => []

/-- What has an identity in a machine. -/
def Machine.objects (m : Machine) : List Object :=
  m.frame.env.objects ++ m.store.toList.flatMap fun cell => cell.cursor.objects

/-! ## Only the identities that occur matter -/

section

variable {f : Relabel} {ν τ : Nat → Nat}

theorem Environment.relabel_congr (e : Environment) (h : ∀ o ∈ e.objects, f.Agrees ν τ o) :
    e.relabel f = e.relabel (f.onto ν τ) := by
  obtain ⟨inner, outer⟩ := e
  simp only [objects, scopes, List.flatMap_cons, List.forall_mem_append] at h
  unfold relabel
  rw [Value.relabelBindings_congr inner h.1]
  congr 1
  refine List.map_congr_left fun scope hscope => Value.relabelBindings_congr scope fun o ho => ?_
  exact h.2 o (List.mem_flatMap.2 ⟨scope, hscope, ho⟩)

theorem Generator.relabel_congr (g : Generator) (h : ∀ o ∈ g.objects, f.Agrees ν τ o) :
    g.relabel f = g.relabel (f.onto ν τ) := by
  simp only [objects, List.forall_mem_append] at h
  obtain ⟨henv, hcondition, hitem⟩ := h
  unfold relabel Frame.relabel
  rw [Environment.relabel_congr _ henv, Node.relabelOpt_congr _ hcondition,
    Node.relabel_congr _ hitem]

theorem Cursor.relabel_congr (cursor : Cursor) (h : ∀ o ∈ cursor.objects, f.Agrees ν τ o) :
    cursor.relabel f = cursor.relabel (f.onto ν τ) := by
  cases cursor with
  | items rest | supplied rest failure =>
    have hrest := Value.relabelAll_congr rest h
    rw [Value.relabelAll_eq, Value.relabelAll_eq] at hrest
    rw [relabel, relabel, hrest]
  | flagged inner markers index first next =>
    cases next with
    | pending value =>
      rw [relabel, relabel, Lookahead.relabel, Lookahead.relabel, Value.relabel_congr value h]
    | _ => rfl
  | generator g => rw [relabel, relabel, g.relabel_congr h]
  | _ => rfl

theorem Machine.relabel_congr (m : Machine) (h : ∀ o ∈ m.objects, f.Agrees ν τ o) :
    m.relabel f = m.relabel (f.onto ν τ) := by
  simp only [objects, List.forall_mem_append] at h
  unfold relabel Frame.relabel
  rw [Environment.relabel_congr _ h.1]
  congr 1
  refine Array.map_congr_left fun cell hcell => ?_
  unfold Cell.relabel
  rw [Cursor.relabel_congr _ fun o ho => h.2 o
    (List.mem_flatMap.2 ⟨cell, Array.mem_toList_iff.2 hcell, ho⟩)]

end

/-! ## Two renamings are one -/

section

variable {f g : Relabel}

theorem Environment.relabel_relabel (e : Environment) :
    (e.relabel f).relabel g = e.relabel (f.andThen g) := by
  unfold relabel
  rw [Value.relabelBindings_relabelBindings, List.map_map]
  congr 1
  exact List.map_congr_left fun scope _ => Value.relabelBindings_relabelBindings scope

theorem Cursor.relabel_relabel (cursor : Cursor) :
    (cursor.relabel f).relabel g = cursor.relabel (f.andThen g) := by
  cases cursor with
  | items rest | supplied rest failure =>
    simp only [relabel, List.map_map, Function.comp_def, Value.relabel_relabel]
  | flagged inner markers index first next =>
    cases next with
    | pending value => simp only [relabel, Lookahead.relabel, Value.relabel_relabel]
    | _ => rfl
  | generator gen =>
    simp only [relabel, Generator.relabel, Frame.relabel, Environment.relabel_relabel,
      Node.relabelOpt_relabelOpt, Node.relabel_relabel]
  | _ => rfl

theorem Machine.relabel_relabel (m : Machine) :
    (m.relabel f).relabel g = m.relabel (f.andThen g) := by
  simp only [relabel, Frame.relabel, Environment.relabel_relabel, Array.map_map]
  congr 1
  refine Array.map_congr_left fun cell _ => ?_
  simp only [Function.comp_apply, Cell.relabel, Cursor.relabel_relabel]

theorem Eval.Outcome.relabel_relabel {α : Type} (o : Outcome α) :
    Outcome.relabel g id (Outcome.relabel f id o) = Outcome.relabel (f.andThen g) id o := by
  cases o with
  | ok a m => exact congrArg _ m.relabel_relabel
  | error e m => exact congrArg _ m.relabel_relabel

end

/-! ## Rendering -/

/-- Two templates and machines that are the same with other identities render alike. -/
theorem Evaluator.render_relabel {f g : Relabel} {limit : Nat} (hf : f.Keeps limit)
    (hg : g.Keeps limit) {t u : Template} {m : Machine} (hm : limit ≤ m.fresh)
    (htemplate : t.relabel f = u.relabel g) (hmachine : m.relabel f = m.relabel g)
    (budget : Nat) :
    Outcome.relabel f id ((Evaluator.within budget).render t m) =
      Outcome.relabel g id ((Evaluator.within budget).render u m) := by
  have ht := ((Evaluator.Renames.within hf budget).render t m hm).1
  have hu := ((Evaluator.Renames.within hg budget).render u m hm).1
  rw [htemplate, hmachine] at ht
  exact ht.symm.trans hu

/-- A machine contains none of the templates of a tree, and no template from a range. -/
def Machine.Apart (m : Machine) (t : Template) (low high : Nat) : Prop :=
  ∀ u, .template u ∈ m.objects →
    (u.id < low ∨ high ≤ u.id) ∧ ∀ w, .template w ∈ t.objects → w.id ≠ u.id

/-- **A template that was written and read back renders as before**, in any machine with none of its
templates, and within any budget: there is the same output or the same error, and up to the new
identities the same machine is left. -/
theorem render_read_back (t : Template) (hcoherent : Coherent t.objects) (fresh : Nat)
    (hbelow : ∀ o ∈ t.objects, o.id < fresh) :
    ∃ text, Wire.dumpsTemplate t = .ok text ∧ (text.length < 0x10000000000000000 →
      ∃ t' fresh' σ, Wire.loadsTemplate? text fresh = .ok (t', fresh') ∧
        Function.Injective σ ∧ t'.relabel .anonymous = t.relabel (.readBack σ) ∧
        (∀ i, (∀ u, .template u ∈ t.objects → u.id ≠ i) → (i < fresh ∨ fresh' ≤ i) → σ i = i) ∧
        ∀ budget m, fresh' ≤ m.fresh → m.Apart t fresh fresh' →
          Outcome.relabel (.readBack id) id ((Evaluator.within budget).render t' m) =
            Outcome.relabel (.readBack σ) id ((Evaluator.within budget).render t m)) := by
  obtain ⟨text, htext, hread⟩ := Wire.loadsTemplate?_dumpsTemplate t hcoherent hbelow
  refine ⟨text, htext, fun hsize => ?_⟩
  obtain ⟨t', fresh', σ, hloads, hfresh, hrange, hinjective, hsame, hkeep⟩ := hread hsize
  refine ⟨t', fresh', σ, hloads, hinjective, hsame, hkeep, fun budget m hm hapart => ?_⟩
  -- All nodes of both templates become one, while new nodes stay apart.
  let f : Relabel := ⟨fun i => if i < fresh' then 0 else i, σ, true⟩
  let g : Relabel := f.onto f.node id
  have hf : f.Keeps fresh' := by
    refine ⟨rfl, hinjective, fun i hi => if_neg (Nat.not_lt.2 hi), fun i hi => ?_⟩
    refine hkeep i (fun u hu heq => ?_) (.inr hi)
    have hold : u.id < fresh := hbelow _ hu
    omega
  have hg : g.Keeps fresh' := ⟨rfl, Function.injective_id, hf.node, fun _ _ => rfl⟩
  have hmachine : m.relabel f = m.relabel g := by
    refine m.relabel_congr fun o ho => ?_
    cases o with
    | node i => rfl
    | template u => exact hkeep u.id (hapart u ho).2 (hapart u ho).1
  have htemplate : t'.relabel g = t.relabel f := by
    have hold : t.relabel f = t.relabel (.readBack σ) := t.relabel_congr fun o ho => by
      cases o with
      | node i => exact if_pos (Nat.lt_of_lt_of_le (hbelow _ ho) hfresh)
      | template u => rfl
    have hnew : t'.relabel g = t'.relabel (.readBack id) := t'.relabel_congr fun o ho => by
      cases o with
      | node i => exact if_pos (hrange _ ho).2
      | template u => rfl
    have htidy : (t'.relabel .anonymous).relabel (.readBack id) = t'.relabel (.readBack id) :=
      t'.relabel_relabel
    rw [hold, hnew, ← htidy, hsame]
    exact t.relabel_relabel
  have hrender := Evaluator.render_relabel hg hf hm htemplate hmachine.symm budget
  have hforget := congrArg (Outcome.relabel .anonymous id) hrender
  rw [Outcome.relabel_relabel, Outcome.relabel_relabel] at hforget
  exact hforget

/-- A template that prints a variable, read back and rendered. -/
theorem render_read_back_print : ∃ text t' fresh' m,
    Wire.dumpsTemplate ⟨3, none, "ab", none, "<?", "?>", ⟨none, [⟨4, .ofText "ab" .empty,
      .print ⟨5, .ofText "ab" .empty, .var "x"⟩⟩]⟩⟩ = .ok text ∧
    Wire.loadsTemplate? text 7 = .ok (t', fresh') ∧
    (Evaluator.within 5).render t'
      (.start fresh' 0 .first (.ofVars [("x", .str "hi")] 2)) = .ok #["hi"] m := by
  obtain ⟨text, htext, hread⟩ := render_read_back
    ⟨3, none, "ab", none, "<?", "?>", ⟨none, [⟨4, .ofText "ab" .empty,
      .print ⟨5, .ofText "ab" .empty, .var "x"⟩⟩]⟩⟩
    (by
      intro t u ht hu _
      simp only [Template.objects, Block.objects, Node.objectsAll, Node.objects, NodeKind.objects,
        List.append_nil, List.mem_cons, Object.template.injEq, reduceCtorEq, List.not_mem_nil,
        or_false] at ht hu
      rw [ht, hu])
    7 (by
      intro o ho
      simp only [Template.objects, Block.objects, Node.objectsAll, Node.objects, NodeKind.objects,
        List.append_nil, List.mem_cons, List.not_mem_nil, or_false] at ho
      rcases ho with rfl | rfl | rfl <;> decide)
  have hsize : text.length < 0x10000000000000000 := by
    obtain rfl := Except.ok.inj (htext.symm.trans rfl)
    -- counting bytes decodes nothing
    exact Nat.lt_of_le_of_lt (Text.length_le_utf8ByteSize _) (by decide +kernel)
  obtain ⟨t', fresh', σ, hloads, -, -, -, hrender⟩ := hread hsize
  have houtcome := hrender 5 (.start fresh' 0 .first (.ofVars [("x", .str "hi")] 2)) (Nat.le_refl _)
    (by rintro u ⟨⟩)
  cases h : (Evaluator.within 5).render t'
      (.start fresh' 0 .first (.ofVars [("x", .str "hi")] 2)) with
  | ok output m =>
    rw [h] at houtcome
    obtain rfl : output = #["hi"] := (EStateM.Result.ok.inj houtcome).1
    exact ⟨text, t', fresh', m, htext, hloads, h⟩
  | error e m =>
    rw [h] at houtcome
    cases houtcome

end Templating
