import Templating.Proofs.Eval.Spare
import Templating.Proofs.Eval.Sparing
import Templating.Proofs.Tracked.Reach

/-!
# Generator expressions see a snapshot

A generator expression keeps the variables as they are when it is evaluated. What happens to the
variables afterwards makes no difference to its items, and its rounds make no difference to the
variables. Only iterators are shared: those that it can reach have to be left alone until it is
drained.

* `Machine.supplied`: a machine with other random numbers and identities to come.
* `DrainsAlike`: an iterator is drained in two machines, with the same items or the same error.
* `Machine.IsClosed.drainsAlike`: an iterator does not see what leaves the iterators that it reaches
  alone.
* `generators_see_snapshot`: **nor does a generator expression see it**, and draining it changes
  neither the variables nor the output.
-/

namespace Templating

open Carries (handles rename)

open Eval

/-- What a run gives, whatever machine it leaves. -/
def Eval.Outcome.result {α : Type} : Outcome α → Except Abort α
  | .ok a _ => .ok a
  | .error e _ => .error e

/-- What a run takes from outside: the next identity, the random numbers and the time. -/
structure Supply where
  fresh : Nat
  random : StdGen
  clock : Date

/-- The iterators that an iterator reaches, and itself. -/
def Machine.reached (m : Machine) (k : Handle) : Set Handle := {h | Templating.Reaches m.store k h}

/-- The same variables, output and iterators, with another supply. -/
def Machine.supplied (m : Machine) (supply : Supply) : Machine :=
  { m with fresh := supply.fresh, random := supply.random, clock := supply.clock }

/-- An iterator is drained in two machines with the same supply. -/
structure DrainsAlike (ρ : Handle → Handle) (k : Handle) (m m' : Machine) (budget : Nat)
    (supply : Supply) : Prop where
  /-- There are the same items or the same error. New iterators may have other places. -/
  result : Outcome.result ((Evaluator.within budget).collect k (m'.supplied supply)) =
    (Outcome.result ((Evaluator.within budget).collect k (m.supplied supply))).map (rename ρ)
  /-- The variables and the output are as before. -/
  surroundings : Outcome.Ended ((Evaluator.within budget).collect k (m.supplied supply)) →
    (Outcome.machine ((Evaluator.within budget).collect k (m.supplied supply))).surroundings =
        m.surroundings ∧
      (Outcome.machine ((Evaluator.within budget).collect k (m'.supplied supply))).surroundings =
        m'.surroundings
  /-- Iterators among the items yield the same afterwards. -/
  yields : ∀ items n items' n',
    (Evaluator.within budget).collect k (m.supplied supply) = .ok items n →
    (Evaluator.within budget).collect k (m'.supplied supply) = .ok items' n' →
    ∀ h ∈ handles items, ∀ budget count,
      Outcome.result ((Evaluator.within budget).take (ρ h) count n') =
        (Outcome.result ((Evaluator.within budget).take h count n)).map (rename ρ)

variable {m m' : Machine} {k : Handle}

theorem Shift.Agree.result {σ : Shift} {I : Around} {α : Type} [Carries α] {r r' : Outcome α}
    (h : σ.Agree I m m' σ.knowledge.Along r r') :
    Outcome.result r' = (Outcome.result r).map (rename σ.place) := by
  cases h with
  | ok _ hab =>
    obtain ⟨rfl, -⟩ := hab
    rfl
  | failed _ => rfl
  | exhausted => rfl

/-- The surroundings of two machines that stay what they are. -/
def Around.fixed (a a' : Surroundings) : Around := fun _ b b' => b = a ∧ b' = a'

theorem Around.lasts_fixed (a a' : Surroundings) : (fixed a a').Lasts := fun _ _ _ _ _ h => h

/-- What an iterator reaches in a machine, when there are further iterators. -/
def Machine.further (m m' : Machine) (k : Handle) : Shift :=
  ⟨m.store.size, m'.store.size - m.store.size, m.reached k⟩

/-- A machine, and a later one in which the iterators that some iterator reaches are as before. -/
theorem Machine.IsClosed.twins (hm : m.IsClosed)
    (h : Untouched (m.reached k) m.store m'.store) (supply : Supply) :
    (m.further m' k).Twins (.fixed m.surroundings m'.surroundings) (m.supplied supply)
      (m'.supplied supply) := by
  refine ⟨le_rfl, (Nat.add_sub_cancel' h.size_le).symm, fun i hi => ?_, ⟨rfl, rfl⟩, rfl, rfl, rfl⟩
  change (m.further m' k).knowledge.Along m.store.size m.store[i]?
    m'.store[(m.further m' k).place i]?
  by_cases hlt : i < m.store.size
  · have hreaches : Templating.Reaches m.store k i := hi hlt
    rw [Shift.place_of_lt hlt, h.same i hreaches hlt]
    -- what a reached iterator refers to is reached, too
    have hknown (j : Handle) (hj : j ∈ handles m.store[i]?) : j < m.store.size ∧
        Templating.Reaches m.store k j := by
      rw [Array.getElem?_eq_getElem hlt, handles_some] at hj
      have hcell := Array.getElem?_eq_getElem hlt
      exact ⟨hm.cells i _ hcell j hj, hreaches.tail ⟨_, hcell, hj⟩⟩
    refine ⟨((Carries.rename_eq_self_iff _ _).2 fun j hj => ?_).symm, fun j hj => ?_⟩
    · exact Shift.place_of_lt (hknown j hj).1
    · exact ⟨(hknown j hj).1, fun _ => (hknown j hj).2⟩
  · -- there is no iterator here, neither at first nor later
    have hle : m.store.size ≤ i := Nat.not_lt.1 hlt
    have hle' : m'.store.size ≤ i + (m'.store.size - m.store.size) := by omega
    rw [Shift.place_of_le hle, Array.getElem?_eq_none hle]
    change (m.further m' k).knowledge.Along _ _
      m'.store[i + (m'.store.size - m.store.size)]?
    rw [Array.getElem?_eq_none hle']
    exact .none

/-- **An iterator does not see what leaves the iterators that it reaches alone.** -/
theorem Machine.IsClosed.drainsAlike (hm : m.IsClosed) (hk : k < m.store.size)
    (h : Untouched (m.reached k) m.store m'.store) (budget : Nat) (supply : Supply) :
    DrainsAlike (m.further m' k).place k m m' budget supply := by
  have hlasts := Around.lasts_fixed m.surroundings m'.surroundings
  have hfinds : (m.further m' k).knowledge.Finds m.store.size k k :=
    ⟨(Shift.place_of_lt hk).symm, hk, fun _ => Relation.ReflTransGen.refl⟩
  have hagree := Shift.Judges.collect (((m.further m' k).within budget).2 hlasts) hfinds
    (m.supplied supply) (m'.supplied supply) rfl (hm.twins h supply)
  refine ⟨hagree.result, fun hended => ?_, ?_⟩
  · dsimp only at hagree
    generalize (Evaluator.within budget).collect k (m.supplied supply) = r at hagree hended ⊢
    generalize (Evaluator.within budget).collect k (m'.supplied supply) = r' at hagree ⊢
    cases hagree with
    | ok hfollow _ => exact hfollow.twins.around
    | failed hfollow => exact hfollow.twins.around
    | exhausted => exact hended.elim
  · intro items n items' n' hitems hitems' i hi budget' count
    dsimp only at hagree
    rw [hitems, hitems'] at hagree
    cases hagree with
    | ok hfollow hab =>
      have hsequential : Sequential (m.further m' k).knowledge ((m.further m' k).Judges
          (.fixed m.surroundings m'.surroundings) (.within budget')) :=
        Shift.sequential (((m.further m' k).within budget').2 hlasts)
      exact (hsequential.take ⟨rfl, hab.2 i hi⟩ count n n' rfl hfollow.twins).result

/-- **Generator expressions see a snapshot.** Whatever nodes are evaluated after a generator
expression, if they do not advance the iterators that it reaches, then it is drained with the same
items or with the same error as right away, given the same supply. Draining it changes neither the
variables nor the output. -/
theorem generators_see_snapshot (m m₁ m₂ : Machine) (hm : m.IsClosed) (i : Nat)
    (location : Location) (item : Node) (comp : Comprehension) (n n' : Nat) (k : Handle)
    (hgenerator : (Evaluator.within n).eval ⟨i, location, .genExpr item comp⟩ m =
      .ok (.iterator k) m₁)
    (nodes : List Node)
    (hspares : Evaluator.Spares (m₁.reached k) n' (fun ev => ev.runAll nodes) m₁)
    (hrun : (Evaluator.within n').runAll nodes m₁ = .ok () m₂) :
    ∃ ρ, Function.Injective ρ ∧ (∀ h < m₁.store.size, ρ h = h) ∧
      ∀ budget supply, DrainsAlike ρ k m₁ m₂ budget supply := by
  have heval := ((Spare.shift m.store.size).within n).1 ⟨i, location, .genExpr item comp⟩
    m.store.size
  obtain ⟨hclosed, -, hresult⟩ := hm.run heval (by
    rw [hgenerator]
    trivial)
  rw [hgenerator] at hclosed
  obtain ⟨v, -, hknown⟩ := hresult _ _ hgenerator
  have hk : k < m₁.store.size := (hknown k (List.mem_singleton_self k)).1
  exact ⟨(m₁.further m₂ k).place, (m₁.further m₂ k).place_injective, fun _ h => Shift.place_of_lt h,
    hclosed.drainsAlike hk (hspares.untouched_runAll hrun)⟩

/-- The generator expression `(x for y in s)`, where `x` is `1` and `s` is an iterator over `3` and
`4`. Afterwards `x` becomes `5` and is put out, and `s` is deleted. -/
theorem generators_see_snapshot_assigned :
    let node (i : Nat) (kind : NodeKind) : Node := ⟨i, .ofText "" .empty, kind⟩
    let nodes := [node 0 (.storeVar (.name "x") (node 1 (.const (.int 5)))),
      node 2 (.print (node 3 (.var "x"))), node 4 (.delVar "s")]
    let m : Machine := { Machine.start 8 0 .first (.ofVars [("x", .int 1), ("s", .iterator 0)] 2)
      with store := #[⟨.items [.int 3, .int 4], false⟩] }
    let comp : Comprehension := ⟨.name "y", node 7 (.var "s"), none⟩
    let captured : Frame := { m.frame with env := m.frame.env.push }
    let cursor : Cursor := .generator ⟨captured, 0, .name "y", none, node 6 (.var "x")⟩
    let m₁ : Machine := { m with store := m.store.push ⟨cursor, false⟩ }
    let m₂ : Machine := { m₁ with frame := .ofVars [("x", .int 5)] 2, output := #["5"] }
    let drained : Frame := ⟨⟨[("y", .int 4)], [[("x", .int 1), ("s", .iterator 0)]]⟩, 0, 2⟩
    let m₃ : Machine := { m₂ with store := #[⟨.items [], false⟩,
      ⟨.generator ⟨drained, 0, .name "y", none, node 6 (.var "x")⟩, false⟩] }
    m.IsClosed ∧
      (Evaluator.within 2).eval (node 5 (.genExpr (node 6 (.var "x")) comp)) m =
        .ok (.iterator 1) m₁ ∧
      Evaluator.Spares (m₁.reached 1) 2 (fun ev => ev.runAll nodes) m₁ ∧
      (Evaluator.within 2).runAll nodes m₁ = .ok () m₂ ∧
      (∃ ρ, ∀ budget supply, DrainsAlike ρ 1 m₁ m₂ budget supply) ∧
      (Evaluator.within 4).collect 1 m₂ = .ok [.int 1, .int 1] m₃ := by
  intro node nodes m comp captured cursor m₁ m₂ drained m₃
  have hm : m.IsClosed := by
    refine ⟨fun i cell hcell h hh => ?_, fun h hh => ?_⟩
    · -- the only iterator has numbers as items
      obtain ⟨hi, rfl⟩ := Array.getElem?_eq_some_iff.1 hcell
      obtain rfl : i = 0 := Nat.lt_one_iff.1 hi
      exact absurd hh List.not_mem_nil
    · obtain rfl : h = 0 := List.mem_singleton.1 hh
      exact Nat.one_pos
  have hgenerator : (Evaluator.within 2).eval (node 5 (.genExpr (node 6 (.var "x")) comp)) m =
      .ok (.iterator 1) m₁ := rfl
  have hrun : (Evaluator.within 2).runAll nodes m₁ = .ok () m₂ := rfl
  have hsparing : (Evaluator.sparing (m₁.reached 1) 2).runAll nodes m₁ = .ok () m₂ := rfl
  have hspares : Evaluator.Spares (m₁.reached 1) 2 (fun ev => ev.runAll nodes) m₁ :=
    hsparing.trans hrun.symm
  obtain ⟨ρ, -, -, hdrains⟩ := generators_see_snapshot m m₁ m₂ hm 5 _ _ _ 2 2 1 hgenerator nodes
    hspares hrun
  exact ⟨hm, hgenerator, hspares, hrun, ⟨ρ, hdrains⟩, by cbv⟩

end Templating
