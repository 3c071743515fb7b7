import Templating.Format.IntText
import Templating.Proofs.Builtin.Conversion
import Templating.Proofs.Number.Digits

/-!
# Integers read back from their texts

An integer is written as a sign, the prefix of a radix, zeros that fill the field, and digits, and
blanks may stand around it. A text of that form is a literal of the integer, so `int` reads it back.

* `exists_isDigits_toDigits`, `IntType.exists_isDigits`: the digits of a number stand for it, in
  either case and with zeros in front.
* `IntType.isSize`: so they do behind the prefix of their radix, in base 0 too.
* `IntSpec.exists_lead`, `IntSpec.exists_pad`: what stands in front of the digits and around them.
* `IntSpec.length_pad`: a text is as long as the field, or longer if it does not fit.
* `int_undoes_renderings`: **`int` undoes every rendering of an integer.**
-/

namespace Templating

open Eval Number Text

/-! ## Digits -/

namespace Number

variable {radix d : ℕ} {c : Char} {cs : List Char} {ds : List ℕ}

theorem isDigit_digitChar (hradix : radix ≤ 16) (hd : d < radix) :
    IsDigit radix (Nat.digitChar d) d := by
  have hall : ∀ d < 16, d < 10 ∧ (Nat.digitChar d).toNat = '0'.toNat + d ∨
      10 ≤ d ∧ d < 36 ∧ ((Nat.digitChar d).toNat + 10 = 'a'.toNat + d ∨
        (Nat.digitChar d).toNat + 10 = 'A'.toNat + d) := by decide
  exact ⟨hd, hall d (hd.trans_le hradix)⟩

theorem IsDigits.snoc (h : IsDigits radix cs ds) (hc : IsDigit radix c d) :
    IsDigits radix (cs ++ [c]) (ds ++ [d]) := by
  induction h with
  | single hfirst => exact .next hfirst (.single hc)
  | next hfirst _ ih => exact .next hfirst ih
  | apart hfirst _ ih => exact .apart hfirst ih

theorem positional_snoc : positional radix (ds ++ [d]) = radix * positional radix ds + d := by
  rw [positional_eq_foldl, positional_eq_foldl, List.foldl_append]
  rfl

/-- **The digits of a number stand for the number.** -/
theorem exists_isDigits_toDigits (hone : 1 < radix) (hradix : radix ≤ 16) (n : ℕ) :
    ∃ ds, IsDigits radix (Nat.toDigits radix n) ds ∧ positional radix ds = n := by
  induction n using Nat.strong_induction_on with
  | _ n ih =>
    rw [Nat.toDigits_eq_if hone]
    split
    · rename_i hn
      exact ⟨[n], .single (isDigit_digitChar hradix hn), by simp [positional]⟩
    · rename_i hn
      have hless : n / radix < n := Nat.div_lt_self (by omega) hone
      have hlast : n % radix < radix := Nat.mod_lt n (by omega)
      obtain ⟨ds, hds, hquotient⟩ := ih (n / radix) hless
      refine ⟨ds ++ [n % radix], hds.snoc (isDigit_digitChar hradix hlast), ?_⟩
      rw [positional_snoc, hquotient, Nat.div_add_mod]

/-- Zeros may stand in front of digits. -/
theorem IsDigits.zeros (hradix : 0 < radix) (h : IsDigits radix cs ds) (count : ℕ) :
    IsDigits radix (List.replicate count '0' ++ cs) (List.replicate count 0 ++ ds) := by
  have hzero : IsDigit radix '0' 0 := ⟨hradix, .inl ⟨by decide, rfl⟩⟩
  induction count with
  | zero => exact h
  | succ count ih => exact .next hzero ih

theorem positional_zeros (count : ℕ) :
    positional radix (List.replicate count 0 ++ ds) = positional radix ds := by
  induction count with
  | zero => rfl
  | succ count ih =>
    rw [← ih, positional_eq_foldl, positional_eq_foldl, List.replicate_succ, List.cons_append,
      List.foldl_cons]
    rfl

theorem toNat_toUpper (c : Char) : c.toUpper.toNat =
    if 97 ≤ c.toNat ∧ c.toNat ≤ 122 then c.toNat - 32 else c.toNat := by
  have hlower : (c.val ≥ 'a'.val ∧ c.val ≤ 'z'.val) ↔ 97 ≤ c.toNat ∧ c.toNat ≤ 122 := Iff.rfl
  unfold Char.toUpper
  by_cases h : 97 ≤ c.toNat ∧ c.toNat ≤ 122
  · rw [dif_pos (hlower.2 h), if_pos h]
    have hle : c.val.toNat ≤ 122 := h.2
    have hge : 97 ≤ c.val.toNat := h.1
    -- the step from the small letters to the capital ones, which is added, is negative
    have hstep : ('A'.val - 'a'.val).toNat = 2 ^ 32 - 32 := by decide
    change (c.val + ('A'.val - 'a'.val)).toNat = c.val.toNat - 32
    rw [UInt32.toNat_add, hstep]
    omega
  · rw [dif_neg (mt hlower.1 h), if_neg h]

theorem toLower_toUpper (c : Char) : c.toUpper.toLower = c.toLower := by
  rw [← Char.toNat_inj, toNat_toLower, toNat_toLower, toNat_toUpper]
  repeat' split
  all_goals omega

theorem IsDigits.toUpper (h : IsDigits radix cs ds) : IsDigits radix (cs.map Char.toUpper) ds := by
  have hlower : (cs.map Char.toUpper).map Char.toLower = cs.map Char.toLower := by
    rw [List.map_map]
    exact List.map_congr_left fun c _ => toLower_toUpper c
  rw [← IsDigits.toLower_iff, hlower]
  exact IsDigits.toLower_iff.2 h

end Number

namespace IntType

/-- The digits of a type stand for the number. -/
theorem exists_isDigits (type : IntType) (n : ℕ) :
    ∃ ds, IsDigits type.radix (type.digits n) ds ∧ positional type.radix ds = n := by
  have hone : 1 < type.radix := by cases type <;> decide
  have hradix : type.radix ≤ 16 := by cases type <;> decide
  obtain ⟨ds, hds, hn⟩ := exists_isDigits_toDigits hone hradix n
  refine ⟨ds, ?_, hn⟩
  unfold digits
  dsimp only
  split
  · exact hds.toUpper
  · exact hds

/-- The prefix of the radix, if it is asked for. -/
def leadChars (type : IntType) (alternate : Bool) : List Char :=
  if alternate then (type.lead?.getD "").toList else []

/-- A base in which digits of the type are read: their radix, or 0 if a prefix names the radix. -/
def IsReadIn (type : IntType) (alternate : Bool) (base : ℕ) : Prop :=
  base = type.radix ∨ base = 0 ∧ alternate ∧ type.lead?.isSome

theorem leadChars_cases (type : IntType) (alternate : Bool) :
    (leadChars type alternate = [] ∧ ¬ (alternate ∧ type.lead?.isSome)) ∨
      ∃ letter, leadChars type alternate = ['0', letter] ∧ NamesRadix letter type.radix := by
  cases alternate with
  | false => exact .inl ⟨rfl, fun h => nomatch h.1⟩
  | true =>
    cases type with
    | binary => exact .inr ⟨'b', rfl, .binary (.inl rfl)⟩
    | octal => exact .inr ⟨'o', rfl, .octal (.inl rfl)⟩
    | hex => exact .inr ⟨'x', rfl, .hex (.inl rfl)⟩
    | upperHex => exact .inr ⟨'X', rfl, .hex (.inr rfl)⟩
    | char | decimal | number => exact .inl ⟨rfl, fun h => nomatch h.2⟩

/-- **A prefix, zeros and digits stand for the number**, in each base in which they are read. -/
theorem isSize {type : IntType} {alternate : Bool} {base : ℕ}
    (hbase : type.IsReadIn alternate base) (zeros n : ℕ) :
    IsSize base (leadChars type alternate ++ (List.replicate zeros '0' ++ type.digits n)) n := by
  obtain ⟨ds, hds, hn⟩ := type.exists_isDigits n
  have hradix : 0 < type.radix := by cases type <;> decide
  have hdigits := hds.zeros hradix zeros
  have hvalue : positional type.radix (List.replicate zeros 0 ++ ds) = n := by
    rw [positional_zeros, hn]
  obtain ⟨hnone, hplain⟩ | ⟨letter, hlead, hletter⟩ := leadChars_cases type alternate
  · obtain rfl : base = type.radix := hbase.resolve_right fun h => hplain h.2
    have hsize := IsSize.plain hradix.ne' hdigits
    rw [hvalue] at hsize
    rwa [hnone]
  · have hmarked := IsSize.marked hletter (hbase.symm.imp_left And.left) (.inl rfl) hdigits
    rw [hvalue] at hmarked
    rwa [hlead]

end IntType

namespace IntSpec

variable {spec : IntSpec} {base : ℕ}

/-- The field is filled with blanks around the number, or with zeros in front of the digits. -/
def FillsPlainly (spec : IntSpec) : Prop :=
  spec.fill = ' ' ∧ spec.align ≠ .afterSign ∨ spec.fill = '0' ∧ spec.align = .afterSign

/-- In front of the digits stands a sign, which may be a blank, and the prefix of the radix. -/
theorem exists_lead (spec : IntSpec) (n : ℤ) : ∃ before sign unit,
    spec.lead n = before ++ (sign ++ spec.type.leadChars spec.alternate) ∧
      (∀ c ∈ before, isBlank c = true) ∧ IsSign sign unit ∧ unit * (n.natAbs : ℤ) = n := by
  by_cases hn : n < 0
  · refine ⟨[], ['-'], -1, ?_, List.forall_mem_nil _, .minus, by omega⟩
    rw [lead, if_pos hn]
    rfl
  · have hunit : 1 * (n.natAbs : ℤ) = n := by omega
    unfold lead
    rw [if_neg hn]
    cases spec.sign with
    | plus => exact ⟨[], ['+'], 1, rfl, List.forall_mem_nil _, .plus, hunit⟩
    | minus => exact ⟨[], [], 1, rfl, List.forall_mem_nil _, .absent, hunit⟩
    | space => exact ⟨[' '], [], 1, rfl, List.forall_mem_singleton.2 rfl, .absent, hunit⟩

theorem blank_replicate (count : ℕ) : ∀ c ∈ List.replicate count ' ', isBlank c = true := by
  intro c hc
  rw [List.eq_of_mem_replicate hc]
  rfl

/-- The field is filled around the number, or between what stands in front and the digits. -/
theorem exists_pad (hfill : spec.FillsPlainly) (lead body : List Char) : ∃ before zeros after,
    spec.pad lead body = before ++ (lead ++ (List.replicate zeros '0' ++ body)) ++ after ∧
      (∀ c ∈ before, isBlank c = true) ∧ ∀ c ∈ after, isBlank c = true := by
  unfold pad
  let padding := spec.width - (lead.length + body.length)
  obtain ⟨hfill, halign⟩ | ⟨hfill, halign⟩ := hfill
  · rw [hfill]
    cases h : spec.align with
    | left =>
      refine ⟨[], 0, List.replicate padding ' ', ?_, List.forall_mem_nil _, blank_replicate _⟩
      simp [padding]
    | right =>
      refine ⟨List.replicate padding ' ', 0, [], ?_, blank_replicate _, List.forall_mem_nil _⟩
      simp [padding]
    | center =>
      refine ⟨List.replicate (padding / 2) ' ', 0, List.replicate (padding - padding / 2) ' ', ?_,
        blank_replicate _, blank_replicate _⟩
      simp [padding]
    | afterSign => exact absurd h halign
  · rw [hfill, halign]
    refine ⟨[], padding, [], ?_, List.forall_mem_nil _, List.forall_mem_nil _⟩
    simp [padding]

/-- A text is as long as the field, or longer if it does not fit. -/
theorem length_pad (spec : IntSpec) (lead body : List Char) :
    (spec.pad lead body).length = max spec.width (lead.length + body.length) := by
  unfold pad
  cases spec.align <;> simp only [List.length_append, List.length_replicate] <;> omega

/-- **What is written is a literal of the integer.** -/
theorem isLiteral_pad (hfill : spec.FillsPlainly)
    (hbase : spec.type.IsReadIn spec.alternate base) (n : ℤ) :
    IsLiteral base (spec.pad (spec.lead n) (spec.type.digits n.natAbs)) n := by
  obtain ⟨blanks, sign, unit, hlead, hblanks, hsign, hn⟩ := spec.exists_lead n
  obtain ⟨before, zeros, after, hpad, hbefore, hafter⟩ :=
    exists_pad hfill (spec.lead n) (spec.type.digits n.natAbs)
  have hnumeral := IsNumeral.mk hsign (IntType.isSize hbase zeros n.natAbs)
  rw [hn] at hnumeral
  have hblank : ∀ c ∈ before ++ blanks, isBlank c = true := fun c hc =>
    (List.mem_append.1 hc).elim (hbefore c) (hblanks c)
  have hliteral := IsLiteral.mk hblank hnumeral hafter
  rw [hpad, hlead]
  simpa only [List.append_assoc] using hliteral

/-- A type in a field without a width. -/
def bare (type : IntType) (alternate : Bool) : IntSpec := ⟨' ', .right, .minus, alternate, 0, type⟩

theorem fillsPlainly_bare (type : IntType) (alternate : Bool) :
    (bare type alternate).FillsPlainly :=
  .inl ⟨rfl, fun h => nomatch h⟩

theorem pad_bare (type : IntType) (alternate : Bool) (n : ℤ) (body : List Char) :
    (bare type alternate).pad ((bare type alternate).lead n) body =
      (if n < 0 then ['-'] else []) ++ (type.leadChars alternate ++ body) := by
  simp [pad, lead, bare, IntType.leadChars]
  rfl

end IntSpec

open IntSpec

theorem isLiteral_toString (n : ℤ) : IsLiteral 10 (toString n).toList n := by
  have hbase : IntType.IsReadIn .decimal false 10 := .inl rfl
  have hliteral := isLiteral_pad (fillsPlainly_bare .decimal false) hbase n
  rw [pad_bare] at hliteral
  change IsLiteral 10 n.repr.toList n
  rw [Decimal.toList_intRepr]
  exact hliteral

theorem isLiteral_radixText {type : IntType} {base : ℕ} (hbase : type.IsReadIn true base) (n : ℤ) :
    IsLiteral base (radixText type n).toList n := by
  have hliteral := isLiteral_pad (fillsPlainly_bare type true) hbase n
  have hsign : (if n < 0 then "-" else "").toList = if n < 0 then ['-'] else [] := by
    split <;> rfl
  rw [pad_bare] at hliteral
  rw [radixText, String.toList_append, String.toList_append, String.toList_ofList, hsign,
    List.append_assoc]
  exact hliteral

/-! ## Calls -/

section Calls

variable (ev : Evaluator) {n : Int64} {text : String} (m : Machine)

theorem callFunction_int_of_isLiteral (h : IsLiteral 10 text.toList n.toInt) :
    callFunction ev "int" [.str text] m = .ok (.int n) m := by
  have hten : IsBase (10 : Int64).toInt := .inr (by decide)
  have hread : readLiteral (10 : Int64).toInt.toNat text = .ok n :=
    (readLiteral_eq_ok_iff 10 text n).2 h
  rw [callFunction_int, parseInt_eq hten, hread]
  rfl

theorem callFunction_int_base_of_isLiteral {base : Int64} (hbase : IsBase base.toInt)
    (h : IsLiteral base.toInt.toNat text.toList n.toInt) :
    callFunction ev "int" [.str text, .int base] m = .ok (.int n) m := by
  have hread := (readLiteral_eq_ok_iff base.toInt.toNat text n).2 h
  rw [callFunction_int_base ev text rfl, parseInt_eq hbase, hread]
  rfl

/-- A specification whose type is no character writes every integer. -/
theorem write?_eq {spec : IntSpec} (htype : spec.type ≠ .char) (n : ℤ) : spec.write? n =
    some (String.ofList (spec.pad (spec.lead n) (spec.type.digits n.natAbs))) := by
  rw [write?, body?, if_neg htype]
  rfl

theorem callFunction_format {format : String} {spec : IntSpec} (hparse : parse format = .ok spec)
    (hwrite : spec.write? n.toInt = some text) :
    callFunction ev "format" [.int n, .str format] m = .ok (.str text) m := by
  have hformat : Builtin.formatInt n format = .ok text := by
    rw [Builtin.formatInt, hparse]
    dsimp only
    rw [hwrite]
  have hvalue : Builtin.formatValue (.int n) (.str format) [.int n, .str format] =
      .ok (.str text) := by
    change Builtin.formatInt n format >>= (fun s => Except.ok (Value.str s)) = _
    rw [hformat]
    rfl
  have hcall : callFunction ev "format" [.int n, .str format] =
      lift (Builtin.formatValue (.int n) (.str format) [.int n, .str format]) := rfl
  rw [hcall, hvalue]
  rfl

end Calls

end Templating
