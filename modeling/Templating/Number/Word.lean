/-!
# Checked arithmetic on 64-bit integers

An integer of the language is an `Int64`. Arithmetic is done in `Int`, and `ofInt?` brings a result
back if it fits; nothing wraps.
-/

namespace Templating.Number

/-- Whether an integer is representable in 64 bits with sign. -/
def Fits (n : Int) : Prop := -0x8000000000000000 ≤ n ∧ n < 0x8000000000000000

instance (n : Int) : Decidable (Fits n) := inferInstanceAs (Decidable (_ ∧ _))

theorem Fits.minValue_le {n : Int} (h : Fits n) : Int64.minValue.toInt ≤ n := h.1

theorem Fits.le_maxValue {n : Int} (h : Fits n) : n ≤ Int64.maxValue.toInt :=
  Int.le_of_lt_add_one h.2

/-- The word that represents an integer, if one does. -/
def ofInt? (n : Int) : Option Int64 :=
  if h : Fits n then some (Int64.ofIntLE n h.minValue_le h.le_maxValue) else none

/-- The word nearest to an integer. -/
def saturate (n : Int) : Int64 :=
  if n < -0x8000000000000000 then Int64.minValue
  else if 0x8000000000000000 ≤ n then Int64.maxValue
  else Int64.ofInt n

/-- The word of a count. -/
def ofCount (n : Nat) : Int64 := saturate n

theorem fits_toInt (n : Int64) : Fits n.toInt := ⟨n.le_toInt, n.toInt_lt⟩

theorem toInt_of_ofInt? {n : Int} {w : Int64} (h : ofInt? n = some w) : w.toInt = n := by
  unfold ofInt? at h
  split at h
  · cases h; simp
  · cases h

theorem ofInt?_eq_none_iff {n : Int} : ofInt? n = none ↔ ¬ Fits n := by
  unfold ofInt?
  split <;> simp_all

theorem ofInt?_of_fits {n : Int} (h : Fits n) : ∃ w, ofInt? n = some w ∧ w.toInt = n :=
  ⟨Int64.ofIntLE n h.minValue_le h.le_maxValue, by simp [ofInt?, h], by simp⟩

@[simp] theorem ofInt?_toInt (n : Int64) : ofInt? n.toInt = some n := by
  obtain ⟨w, hw, h⟩ := ofInt?_of_fits (fits_toInt n)
  rw [hw, Int64.toInt_inj.1 h]

end Templating.Number
