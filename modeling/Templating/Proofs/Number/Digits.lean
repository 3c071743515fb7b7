import Mathlib
import Templating.Number.FloatText

/-!
# Integers read back from their digits

* `readNat?_toDigits`, `readUnsigned?_repr`, `readInt?_repr`: the digits of a number are read as the
  number.
* `ofDigits_padLeft`: zeros in front change nothing.
-/

namespace Templating.Decimal

open Text

theorem ofDigits_eq (cs : List Char) : ofDigits cs = Nat.ofDigitChars 10 cs 0 := by
  rw [Nat.ofDigitChars_eq_foldl]
  rfl

@[simp] theorem ofDigits_toDigits (n : Nat) : ofDigits (Nat.toDigits 10 n) = n := by
  rw [ofDigits_eq, Nat.ofDigitChars_ten_toDigits]

theorem ofDigits_append (cs ds : List Char) :
    ofDigits (cs ++ ds) = 10 ^ ds.length * ofDigits cs + ofDigits ds := by
  rw [ofDigits_eq, ofDigits_eq, ofDigits_eq, Nat.ofDigitChars_append,
    Nat.ofDigitChars_eq_ofDigitChars_zero]

@[simp] theorem ofDigits_replicate_zero (n : Nat) : ofDigits (List.replicate n '0') = 0 := by
  rw [ofDigits_eq, Nat.ofDigitChars_replicate_zero, Nat.mul_zero]

theorem ofDigits_padLeft (width : Nat) (cs : List Char) :
    ofDigits (padLeft '0' width cs) = ofDigits cs := by
  simp [padLeft, ofDigits_append]

theorem isDigit_of_mem_toDigits {n : Nat} {c : Char} (h : c ∈ Nat.toDigits 10 n) : c.isDigit :=
  Nat.isDigit_of_mem_toDigits (by decide) (by decide) h

/-- A digit is neither a sign nor a bar. -/
theorem ne_of_isDigit {c d : Char} (hc : c.isDigit) (hd : d.isDigit = false) : c ≠ d := by
  rintro rfl
  simp [hd] at hc

theorem isDigit_bounds {c : Char} (h : c.isDigit) : 48 ≤ c.toNat ∧ c.toNat ≤ 57 := by
  simp only [Char.isDigit, Bool.and_eq_true, decide_eq_true_eq, UInt32.le_iff_toNat_le] at h
  exact h

theorem ofDigits_lt {cs : List Char} (h : ∀ c ∈ cs, c.isDigit) : ofDigits cs < 10 ^ cs.length := by
  induction cs with
  | nil => exact Nat.one_pos
  | cons c cs ih =>
    have hbounds := isDigit_bounds (h c List.mem_cons_self)
    have hc : ofDigits [c] = c.toNat - 48 := by simp [ofDigits]
    have hrest := ih fun d hd => h d (List.mem_cons_of_mem c hd)
    rw [← List.singleton_append, ofDigits_append, List.length_append, List.length_singleton]
    calc 10 ^ cs.length * ofDigits [c] + ofDigits cs
        < 10 ^ cs.length * ofDigits [c] + 10 ^ cs.length := Nat.add_lt_add_left hrest _
      _ = 10 ^ cs.length * (ofDigits [c] + 1) := by ring
      _ ≤ 10 ^ cs.length * 10 := Nat.mul_le_mul_left _ (by omega)
      _ = 10 ^ (1 + cs.length) := by ring

theorem lt_pow_length_toDigits (n : Nat) : n < 10 ^ (Nat.toDigits 10 n).length :=
  (Nat.length_toDigits_le_iff (by decide) Nat.length_toDigits_pos).1 (Nat.le_refl _)

theorem pow_length_toDigits_le {n : Nat} (hn : 0 < n) :
    10 ^ ((Nat.toDigits 10 n).length - 1) ≤ n := by
  refine Nat.le_of_not_lt fun h => ?_
  by_cases hone : (Nat.toDigits 10 n).length - 1 = 0
  · rw [hone] at h
    omega
  · have hle := (Nat.length_toDigits_le_iff (by decide) (Nat.pos_of_ne_zero hone)).2 h
    omega

theorem readNat?_toDigits (n : Nat) : readNat? (Nat.toDigits 10 n) = some n := by
  have hall : (Nat.toDigits 10 n).all Char.isDigit := by
    simpa using fun c hc => isDigit_of_mem_toDigits (n := n) hc
  simp [readNat?, hall]

theorem takeSign_toDigits (n : Nat) :
    takeSign (Nat.toDigits 10 n) = (false, Nat.toDigits 10 n) := by
  unfold takeSign
  split
  · exact absurd rfl (ne_of_isDigit (isDigit_of_mem_toDigits (n := n) (by simp [*])) (d := '-') rfl)
  · exact absurd rfl (ne_of_isDigit (isDigit_of_mem_toDigits (n := n) (by simp [*])) (d := '+') rfl)
  · rfl

theorem readUnsigned?_repr (n : Nat) : readUnsigned? (Nat.repr n).toList = some n := by
  rw [Nat.toList_repr]
  unfold readUnsigned?
  split
  · exact absurd rfl (ne_of_isDigit (isDigit_of_mem_toDigits (n := n) (by simp [*])) (d := '+') rfl)
  · exact readNat?_toDigits n

theorem toList_intRepr (n : Int) :
    n.repr.toList = (if n < 0 then ['-'] else []) ++ Nat.toDigits 10 n.natAbs := by
  rw [Int.repr_eq_if]
  split
  · rw [if_neg (by omega), Nat.toList_repr, List.nil_append, show n.toNat = n.natAbs by omega]
  · rw [if_pos (by omega), String.toList_append, Nat.toList_repr,
      show (-n).toNat = n.natAbs by omega]
    rfl

theorem readInt?_repr (n : Int) : readInt? n.repr.toList = some n := by
  rw [toList_intRepr]
  by_cases h : n < 0
  · rw [if_pos h, readInt?, List.singleton_append, takeSign]
    simp only [readNat?_toDigits]
    change some (-(n.natAbs : Int)) = some n
    congr 1
    omega
  · rw [if_neg h, readInt?, List.nil_append, takeSign_toDigits]
    simp only [readNat?_toDigits]
    change some (n.natAbs : Int) = some n
    congr 1
    omega

theorem bar_not_mem_repr (n : Nat) : '|' ∉ (Nat.repr n).toList := by
  rw [Nat.toList_repr]
  exact fun h => ne_of_isDigit (isDigit_of_mem_toDigits h) (d := '|') rfl rfl

theorem bar_not_mem_intRepr (n : Int) : '|' ∉ n.repr.toList := by
  rw [toList_intRepr, List.mem_append]
  rintro (h | h)
  · split at h <;> simp at h
  · exact ne_of_isDigit (isDigit_of_mem_toDigits h) (d := '|') rfl rfl

end Templating.Decimal
