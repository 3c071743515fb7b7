import Mathlib.Data.Fintype.EquivFin
import Templating.Eval.Machine
import Templating.Proofs.Value.Operators

/-!
# Iterators in data

* `Carries`: data with iterators in it, which can be replaced by others.
* `Natural`: a calculation that only compares the iterators in its argument.
* `Natural.handles_subset`: **such a calculation makes up no iterator.**
-/

namespace Templating

/-- Data with iterators in it. -/
class Carries (α : Type) where
  handles : α → List Handle
  rename : (Handle → Handle) → α → α
  /-- A renaming leaves data alone exactly if it leaves the iterators in it alone. -/
  rename_eq_self_iff : ∀ (ρ : Handle → Handle) (a : α), rename ρ a = a ↔ ∀ h ∈ handles a, ρ h = h

open Carries (handles rename rename_eq_self_iff)

section

variable {α β : Type} [Carries α] [Carries β]

instance : Carries Value where
  handles := Value.handles
  rename ρ := Value.rename (.ofHandles ρ)
  rename_eq_self_iff _ v := v.rename_eq_self_iff

instance : Carries String where
  handles _ := []
  rename _ := id
  rename_eq_self_iff _ _ := by simp

instance : Carries (α × β) where
  handles p := handles p.1 ++ handles p.2
  rename ρ p := (rename ρ p.1, rename ρ p.2)
  rename_eq_self_iff ρ p := by
    rw [Prod.ext_iff, List.forall_mem_append, rename_eq_self_iff, rename_eq_self_iff]

instance : Carries (Option α) where
  handles a := a.toList.flatMap handles
  rename ρ := Option.map (rename ρ)
  rename_eq_self_iff ρ a := by
    cases a <;> simp [rename_eq_self_iff]

theorem handles_some (a : α) : handles (some a) = handles a := by
  simp [handles]

theorem map_rename_eq_self_iff (ρ : Handle → Handle) (as : List α) :
    as.map (rename ρ) = as ↔ ∀ h ∈ as.flatMap handles, ρ h = h := by
  induction as with
  | nil => simp
  | cons a as ih =>
    rw [List.map_cons, List.cons.injEq, ih, List.flatMap_cons, List.forall_mem_append,
      rename_eq_self_iff]

instance : Carries (List α) where
  handles as := as.flatMap handles
  rename ρ := List.map (rename ρ)
  rename_eq_self_iff := map_rename_eq_self_iff

instance : Carries Environment where
  handles e := handles e.inner ++ handles e.outer
  rename ρ e := ⟨rename ρ e.inner, rename ρ e.outer⟩
  rename_eq_self_iff ρ e := by
    obtain ⟨inner, outer⟩ := e
    rw [Environment.mk.injEq, List.forall_mem_append, rename_eq_self_iff, rename_eq_self_iff]

instance : Carries Frame where
  handles frame := handles frame.env
  rename ρ frame := { frame with env := rename ρ frame.env }
  rename_eq_self_iff ρ frame := by
    obtain ⟨env, depth, maxDepth⟩ := frame
    simp [rename_eq_self_iff]

instance : Carries Generator where
  handles g := g.source :: handles g.frame
  rename ρ g := { g with source := ρ g.source, frame := rename ρ g.frame }
  rename_eq_self_iff ρ g := by
    obtain ⟨frame, source, target, condition, item⟩ := g
    simp [rename_eq_self_iff, and_comm]

instance : Carries Lookahead where
  handles
    | .pending value => handles value
    | .unknown | .ended => []
  rename ρ
    | .pending value => .pending (rename ρ value)
    | .unknown => .unknown
    | .ended => .ended
  rename_eq_self_iff ρ next := by
    cases next <;> simp [rename_eq_self_iff]

instance : Carries Cursor where
  handles
    | .items rest | .supplied rest _ => handles rest
    | .range .. => []
    | .enumerate inner _ | .relay inner => [inner]
    | .flagged inner _ _ _ next => inner :: handles next
    | .zip inners => inners
    | .generator g => handles g
  rename ρ
    | .items rest => .items (rename ρ rest)
    | .range next step remaining => .range next step remaining
    | .enumerate inner index => .enumerate (ρ inner) index
    | .flagged inner markers index first next =>
      .flagged (ρ inner) markers index first (rename ρ next)
    | .zip inners => .zip (inners.map ρ)
    | .generator g => .generator (rename ρ g)
    | .supplied rest failure => .supplied (rename ρ rest) failure
    | .relay inner => .relay (ρ inner)
  rename_eq_self_iff ρ cursor := by
    cases cursor with
    | zip inners =>
      rw [Cursor.zip.injEq]
      exact ⟨fun h => List.map_eq_map_iff.1 (h.trans (List.map_id _).symm), fun h =>
        (List.map_congr_left h).trans (List.map_id _)⟩
    | _ => simp [rename_eq_self_iff]

instance : Carries Cell where
  handles cell := handles cell.cursor
  rename ρ cell := ⟨rename ρ cell.cursor, cell.busy⟩
  rename_eq_self_iff ρ cell := by
    obtain ⟨cursor, busy⟩ := cell
    simp [rename_eq_self_iff]

end

/-! ## Calculations -/

section

variable {α β : Type} [Carries α] [Carries β]

/-- A calculation does with other iterators what it did before, as long as different ones stay
different. -/
def Natural (F : α → β) : Prop :=
  ∀ ρ : Handle → Handle, Function.Injective ρ → ∀ a, F (rename ρ a) = rename ρ (F a)

/-- A calculation that may fail does with other iterators what it did before, as long as different
ones stay different. -/
def NaturalOrFails (F : α → Except Cause β) : Prop :=
  ∀ ρ : Handle → Handle, Function.Injective ρ → ∀ a, F (rename ρ a) = (F a).map (rename ρ)

/-- What stays the same under all renamings that leave some iterators alone contains no others. -/
theorem handles_subset_of_fixed {b : β} {hs : List Handle}
    (hb : ∀ ρ : Handle → Handle, Function.Injective ρ → (∀ h ∈ hs, ρ h = h) → rename ρ b = b) :
    handles b ⊆ hs := by
  intro h hmem
  by_contra hnot
  -- exchange the handle with a new one; that leaves `hs` alone, but not the handle
  obtain ⟨new, hnew⟩ := Infinite.exists_notMem_finset (h :: hs).toFinset
  obtain ⟨hne, hnew⟩ : new ≠ h ∧ new ∉ hs := by simpa using hnew
  have hfixed := hb (Equiv.swap h new) (Equiv.swap h new).injective fun i hi =>
    Equiv.swap_apply_of_ne_of_ne (by rintro rfl; exact hnot hi) (by rintro rfl; exact hnew hi)
  have hself := (rename_eq_self_iff _ b).1 hfixed h hmem
  rw [Equiv.swap_apply_left] at hself
  exact hne hself

/-- **A calculation that only compares iterators makes up none.** -/
theorem Natural.handles_subset {F : α → β} (hF : Natural F) (a : α) : handles (F a) ⊆ handles a :=
  handles_subset_of_fixed fun ρ hρ hfix => by
    rw [← hF ρ hρ a, (rename_eq_self_iff ρ a).2 hfix]

theorem NaturalOrFails.handles_subset {F : α → Except Cause β} (hF : NaturalOrFails F) {a : α}
    {b : β} (h : F a = .ok b) : handles b ⊆ handles a :=
  handles_subset_of_fixed fun ρ hρ hfix => by
    have hmap := hF ρ hρ a
    rw [(rename_eq_self_iff ρ a).2 hfix, h] at hmap
    exact (Except.ok.inj hmap).symm

end

/-! ## Variables -/

namespace Environment

variable (ρ : Handle → Handle) (e : Environment) (name : String)

@[simp] theorem push_rename : (rename ρ e).push = rename ρ e.push := rfl

@[simp] theorem pop_rename : (rename ρ e).pop = rename ρ e.pop := by
  obtain ⟨inner, outer⟩ := e
  cases outer <;> rfl

theorem lookup?_rename : (rename ρ e).lookup? name = rename ρ (e.lookup? name) := by
  change ((e.scopes).map (Bindings.mapValues (rename ρ))).findSome? (Bindings.lookup? name) =
    (e.scopes.findSome? (Bindings.lookup? name)).map (rename ρ)
  induction e.scopes with
  | nil => rfl
  | cons scope scopes ih =>
    rw [List.map_cons, List.findSome?_cons, List.findSome?_cons, ih, Bindings.lookup?_mapValues]
    cases Bindings.lookup? name scope <;> rfl

theorem bind_rename (value : Value) :
    (rename ρ e).bind name (rename ρ value) = rename ρ (e.bind name value) :=
  congrArg (Environment.mk · _) (Bindings.insert_mapValues (rename ρ) name value e.inner)

theorem removeFrom_rename (scopes : List Scope) :
    removeFrom name (rename ρ scopes) = rename ρ (removeFrom name scopes) := by
  change removeFrom name (scopes.map (Bindings.mapValues (rename ρ))) = _
  induction scopes with
  | nil => rfl
  | cons scope scopes ih =>
    rw [List.map_cons, removeFrom, removeFrom, Bindings.lookup?_mapValues]
    cases Bindings.lookup? name scope with
    | some v =>
      simp only [Option.map, Bindings.erase_mapValues]
      rfl
    | none =>
      simp only [Option.map_none, ih]
      cases removeFrom name scopes <;> rfl

theorem remove?_rename : (rename ρ e).remove? name = rename ρ (e.remove? name) := by
  obtain ⟨inner, outer⟩ := e
  change remove? ⟨Bindings.mapValues (rename ρ) inner, rename ρ outer⟩ name = _
  simp only [remove?, Bindings.lookup?_mapValues]
  cases Bindings.lookup? name inner with
  | some v =>
    simp only [Option.map, Bindings.erase_mapValues]
    rfl
  | none =>
    simp only [Option.map_none, removeFrom_rename]
    cases removeFrom name outer <;> rfl

theorem snapshot_rename : (rename ρ e).snapshot = rename ρ e.snapshot := by
  have hfold : ∀ (scopes : List Scope) (bs : Scope),
      (scopes.map (Bindings.mapValues (rename ρ))).foldl Bindings.merge
          (Bindings.mapValues (rename ρ) bs) =
        Bindings.mapValues (rename ρ) (scopes.foldl Bindings.merge bs) := by
    intro scopes
    induction scopes with
    | nil => exact fun _ => rfl
    | cons scope scopes ih =>
      intro bs
      rw [List.map_cons, List.foldl_cons, List.foldl_cons, Bindings.merge_mapValues]
      exact ih _
  have hscopes : (rename ρ e).scopes.reverse =
      e.scopes.reverse.map (Bindings.mapValues (rename ρ)) := by
    rw [List.map_reverse]
    rfl
  rw [snapshot, hscopes]
  exact hfold e.scopes.reverse []

end Environment

end Templating
