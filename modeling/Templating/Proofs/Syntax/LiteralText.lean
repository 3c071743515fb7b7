import Templating.Proofs.Calendar.Compact
import Templating.Proofs.Text.Apart

/-!
# Constants told apart by their texts

* `Text.isNameChar`: the characters of names; numbers and colors are written with them, too.
* `Date.compact_eq`: the digits of a date, with zeros for a time that is left out.
* `Color.ofDigits?_digits`: the color of some hexadecimal digits.
* `Literal.toldApart_repr`: **integers without a sign, strings, dates and colors are told apart**.
-/

namespace Templating

open Calendar Text

/-- The characters of a name: letters, digits and the low line, and all beyond ASCII. -/
def Text.isNameChar (c : Char) : Bool := c.isAlphanum || c = '_' || 0x80 ≤ c.toNat

theorem Text.isNameChar_of_isDigit {c : Char} (h : c.isDigit) : isNameChar c := by
  simp [isNameChar, Char.isAlphanum, h]

/-! ## Dates -/

namespace Date

variable (d : Date)

theorem filter_isDigit_padded (width n : Nat) :
    (padded 10 width n).toList.filter Char.isDigit = (padded 10 width n).toList :=
  List.filter_eq_self.2 fun _ h => isDigit_of_mem_padded h

theorem dayText_eq :
    d.dayText = padded 10 4 d.year ++ "-" ++ twoDigits d.month ++ "-" ++ twoDigits d.day := rfl

theorem secondsText_eq :
    d.secondsText = twoDigits d.hour ++ ":" ++ twoDigits d.minute ++ ":" ++ twoDigits d.second :=
  rfl

theorem filter_dayText :
    d.dayText.toList.filter Char.isDigit =
      (padded 10 4 d.year).toList ++ (twoDigits d.month).toList ++ (twoDigits d.day).toList := by
  simp [dayText_eq, twoDigits, filter_isDigit_padded]

theorem filter_secondsText :
    d.secondsText.toList.filter Char.isDigit =
      (twoDigits d.hour).toList ++ (twoDigits d.minute).toList ++ (twoDigits d.second).toList := by
  simp [secondsText_eq, twoDigits, filter_isDigit_padded]

/-- The digits of a date give its compact form, with zeros for a time that is left out. -/
theorem compact_eq :
    d.compact.toList =
      (d.isoText.toList.filter Char.isDigit) ++
        List.replicate (20 - (d.isoText.toList.filter Char.isDigit).length) '0' := by
  have hlength := d.length_compactFields
  simp only [compactFields, List.map_cons, List.map_nil, List.cons.injEq, and_true] at hlength
  obtain ⟨h₁, h₂, h₃, h₄, h₅, h₆, h₇⟩ := hlength
  rw [toList_compact]
  -- fields that the text leaves out are zero, as is what fills it up
  by_cases htime : d.hasTime
  · by_cases hmicro : d.micro = 0
    · have hdigits : d.isoText.toList.filter Char.isDigit =
          d.dayText.toList.filter Char.isDigit ++ d.secondsText.toList.filter Char.isDigit := by
        simp [isoText, htime, timeText, hmicro]
      rw [hdigits, filter_dayText, filter_secondsText]
      simp only [List.length_append, h₁, h₂, h₃, h₄, h₅, h₆, compactFields, List.flatten_cons,
        List.flatten_nil, hmicro, List.append_assoc]
      rfl
    · have hdigits : d.isoText.toList.filter Char.isDigit =
          d.dayText.toList.filter Char.isDigit ++ (d.secondsText.toList.filter Char.isDigit ++
            (padded 10 6 d.micro).toList) := by
        simp [isoText, htime, timeText, hmicro, filter_isDigit_padded]
      rw [hdigits, filter_dayText, filter_secondsText]
      simp [compactFields, h₁, h₂, h₃, h₄, h₅, h₆, h₇]
  · have hmidnight : d.hour = 0 ∧ d.minute = 0 ∧ d.second = 0 ∧ d.micro = 0 := by
      simpa [hasTime, and_assoc] using htime
    have hdigits : d.isoText.toList.filter Char.isDigit =
        d.dayText.toList.filter Char.isDigit := by
      simp [isoText, htime]
    rw [hdigits, filter_dayText]
    simp only [List.length_append, h₁, h₂, h₃, compactFields, List.flatten_cons,
      List.flatten_nil, hmidnight, List.append_assoc]
    rfl

theorem ne_close_of_mem_padded {width n : Nat} {c : Char} (h : c ∈ (padded 10 width n).toList) :
    c ≠ ')' := by
  rintro rfl
  exact absurd (isDigit_of_mem_padded h) (by decide)

theorem mem_isoText {c : Char} (h : c ∈ d.isoText.toList) :
    (∃ width n, c ∈ (padded 10 width n).toList) ∨ c ∈ ['-', ':', 'T', '.'] := by
  simp only [isoText, timeText, dayText_eq, secondsText_eq, twoDigits] at h
  split_ifs at h
  all_goals
    simp only [String.toList_append, List.mem_append] at h
    grind

theorem ne_close_of_mem_isoText {c : Char} (h : c ∈ d.isoText.toList) : c ≠ ')' := by
  rcases d.mem_isoText h with ⟨width, n, h⟩ | h
  · exact ne_close_of_mem_padded h
  · rintro rfl
    exact absurd h (by decide)

/-- A date reaches up to its closing parenthesis. -/
theorem toldApart_repr :
    ToldApart (fun d : Date => d.repr.toList) (fun _ => True) (fun _ => True) Eq d := by
  intro d' _ r r' _ _ heq
  have hrun (e : Date) : ∀ c ∈ e.isoText.toList, (c != ')') = true := fun c hc =>
    bne_iff_ne.2 (e.ne_close_of_mem_isoText hc)
  have hclose := Leaves.cons (p := (· != ')')) (c := ')') rfl
  simp only [repr, String.toList_append, List.append_assoc] at heq
  obtain ⟨hiso, hr⟩ := toldApart_run (hrun d) (hrun d') (hclose r) (hclose r')
    (List.append_cancel_left heq)
  refine ⟨?_, List.tail_eq_of_cons_eq hr⟩
  have hcompact : d.compact = d'.compact := by
    apply String.toList_injective
    rw [compact_eq, compact_eq, show d.isoText.toList = d'.isoText.toList from hiso]
  have hread := d.ofCompact_compact
  rw [hcompact, ofCompact_compact] at hread
  exact (Except.ok.inj hread).symm

end Date

/-! ## Colors -/

namespace Color

/-- The channel of two hexadecimal digits. -/
def hexChannel? (high low : Char) : Option UInt8 := do
  return UInt8.ofNat (16 * (← Json.hexDigit? high) + (← Json.hexDigit? low))

/-- The color of some hexadecimal digits. -/
def ofDigits? : List Char → Option Color
  | [r, g, b] => do
    return ⟨← hexChannel? r r, ← hexChannel? g g, ← hexChannel? b b, 255⟩
  | [r, g, b, a] => do
    return ⟨← hexChannel? r r, ← hexChannel? g g, ← hexChannel? b b, ← hexChannel? a a⟩
  | [r, r', g, g', b, b'] => do
    return ⟨← hexChannel? r r', ← hexChannel? g g', ← hexChannel? b b', 255⟩
  | [r, r', g, g', b, b', a, a'] => do
    return ⟨← hexChannel? r r', ← hexChannel? g g', ← hexChannel? b b', ← hexChannel? a a'⟩
  | _ => none

theorem hexChannel?_digits (n : UInt8) :
    hexChannel? (hexDigit (n.toNat / 16)) (hexDigit (n.toNat % 16)) = some n := by
  have hn := n.toNat_lt
  simp only [hexChannel?, hexDigit, hexDigit?_digitChar (show n.toNat / 16 < 16 by omega),
    hexDigit?_digitChar (show n.toNat % 16 < 16 by omega), Option.bind_eq_bind, Option.bind_some,
    Nat.div_add_mod]
  exact congrArg some (UInt8.ofNat_toNat)

/-- A channel whose digits are equal is written with one of them. -/
theorem hexChannel?_digit {n : UInt8} (h : n.toNat / 16 = n.toNat % 16) :
    hexChannel? (hexDigit (n.toNat % 16)) (hexDigit (n.toNat % 16)) = some n := by
  have hread := hexChannel?_digits n
  rwa [h] at hread

/-- Channels in digits, in one for each if both are equal everywhere. -/
def digitsOf (channels : List UInt8) : List Char :=
  if channels.all fun n => n.toNat / 16 = n.toNat % 16 then
    channels.map fun n => hexDigit (n.toNat % 16)
  else channels.flatMap fun n => [hexDigit (n.toNat / 16), hexDigit (n.toNat % 16)]

/-- The digits of a color. -/
def digits (c : Color) : List Char := digitsOf (if c.a = 255 then [c.r, c.g, c.b] else c.channels)

theorem toList_repr (c : Color) : c.repr.toList = '#' :: c.digits := by
  simp only [repr, String.toList_ofList]
  rfl

theorem ofDigits?_digits (c : Color) : ofDigits? c.digits = some c := by
  obtain ⟨r, g, b, a⟩ := c
  by_cases halpha : a = 255
  · subst halpha
    change ofDigits? (digitsOf [r, g, b]) = _
    unfold digitsOf
    split
    next hshort =>
      simp only [List.all_cons, List.all_nil, Bool.and_true, Bool.and_eq_true,
        decide_eq_true_eq] at hshort
      obtain ⟨hr, hg, hb⟩ := hshort
      simp [ofDigits?, hexChannel?_digit, hr, hg, hb]
    next => simp [ofDigits?, hexChannel?_digits]
  · rw [digits, if_neg halpha]
    change ofDigits? (digitsOf [r, g, b, a]) = _
    unfold digitsOf
    split
    next hshort =>
      simp only [List.all_cons, List.all_nil, Bool.and_true, Bool.and_eq_true,
        decide_eq_true_eq] at hshort
      obtain ⟨hr, hg, hb, ha⟩ := hshort
      simp [ofDigits?, hexChannel?_digit, hr, hg, hb, ha]
    next => simp [ofDigits?, hexChannel?_digits]

theorem isNameChar_hexDigit {n : Nat} (h : n < 16) : isNameChar (hexDigit n) := by
  have hall : ∀ n < 16, isNameChar (hexDigit n) := by decide
  exact hall n h

theorem mem_digitsOf {channels : List UInt8} {x : Char} (h : x ∈ digitsOf channels) :
    ∃ n < 16, x = hexDigit n := by
  have hhalves (n : UInt8) : n.toNat / 16 < 16 ∧ n.toNat % 16 < 16 := by
    have hn := n.toNat_lt
    omega
  unfold digitsOf at h
  split at h
  · obtain ⟨n, -, rfl⟩ := List.mem_map.1 h
    exact ⟨_, (hhalves n).2, rfl⟩
  · obtain ⟨n, -, hx⟩ := List.mem_flatMap.1 h
    rcases List.mem_pair.1 hx with rfl | rfl
    · exact ⟨_, (hhalves n).1, rfl⟩
    · exact ⟨_, (hhalves n).2, rfl⟩

theorem isNameChar_of_mem_digitsOf {channels : List UInt8} {x : Char}
    (h : x ∈ digitsOf channels) : isNameChar x := by
  obtain ⟨n, hn, rfl⟩ := mem_digitsOf h
  exact isNameChar_hexDigit hn

/-- A color reaches as far as its digits. -/
theorem toldApart_repr (c : Color) :
    ToldApart (fun c : Color => c.repr.toList) (fun _ => True) (Leaves isNameChar) Eq c := by
  intro c' _ r r' hr hr' heq
  simp only [toList_repr, List.cons_append, List.cons.injEq, true_and] at heq
  obtain ⟨hdigits, hrest⟩ := toldApart_run (fun _ => isNameChar_of_mem_digitsOf)
    (fun _ => isNameChar_of_mem_digitsOf) hr hr' heq
  have hread := ofDigits?_digits c
  rw [show c.digits = c'.digits from hdigits, ofDigits?_digits] at hread
  exact ⟨(Option.some.inj hread).symm, hrest⟩

end Color

/-! ## Integers -/

namespace Literal

theorem toList_repr_int {n : Int64} (h : 0 ≤ n.toInt) :
    (int n).repr.toList = Nat.toDigits 10 n.toInt.toNat := by
  change n.toInt.repr.toList = _
  rw [Decimal.toList_intRepr, if_neg (Int.not_lt.2 h), List.nil_append]
  congr 1
  omega

/-- An integer without a sign reaches as far as its digits. -/
theorem toldApart_int {n : Int64} (h : 0 ≤ n.toInt) :
    ToldApart (fun n => (int n).repr.toList) (fun n => 0 ≤ n.toInt) (Leaves isNameChar) Eq n := by
  intro n' h' r r' hr hr' heq
  simp only [toList_repr_int h, toList_repr_int h'] at heq
  obtain ⟨hdigits, hrest⟩ := toldApart_run
    (fun _ hc => isNameChar_of_isDigit (Decimal.isDigit_of_mem_toDigits hc))
    (fun _ hc => isNameChar_of_isDigit (Decimal.isDigit_of_mem_toDigits hc)) hr hr' heq
  have hvalue := congrArg Decimal.ofDigits hdigits
  rw [Decimal.ofDigits_toDigits, Decimal.ofDigits_toDigits] at hvalue
  exact ⟨Int64.toInt_inj.1 (by omega), hrest⟩

end Literal

end Templating
