import Templating.Format.IntSpec
import Templating.Proofs.Text.Apart
import Templating.Text.Blank

/-!
# The grammar of format specifications

A specification is written as an alignment, which may have a fill character in front of it, a sign,
a `#`, the digits of the width and a type. Every part may be missing. It is read from its end, and
each part ends with a character that none of the parts behind it begins with; only the fill may be
any character, and it comes first.

* `IntSpec.Tail`, `IntSpec.Parts`: the parts of a specification, and their text.
* `IntSpec.Parts.IsValid`, `IntSpec.Parts.spec`: parts that go together, and what they ask for.
* `IntSpec.takes_reverse`, `IntSpec.exists_takes`: the readers take the parts one after another.
* `IntSpec.Takes.parse_eq`: what is made of the parts.
* `IntSpec.specifications_are_parts`: **exactly the texts of parts that go together are accepted**.
-/

namespace Templating

open Text

/-! ## Characters of the parts -/

@[simp] theorem Align.ofChar?_char (a : Align) : Align.ofChar? a.char = some a := by
  cases a <;> rfl

theorem Align.char_of_ofChar? {c : Char} {a : Align} (h : Align.ofChar? c = some a) :
    c = a.char := by
  unfold Align.ofChar? at h
  split at h <;> cases h <;> rfl

@[simp] theorem SignStyle.ofChar?_char (s : SignStyle) : SignStyle.ofChar? s.char = some s := by
  cases s <;> rfl

theorem SignStyle.char_of_ofChar? {c : Char} {s : SignStyle} (h : SignStyle.ofChar? c = some s) :
    c = s.char := by
  unfold SignStyle.ofChar? at h
  split at h <;> cases h <;> rfl

@[simp] theorem IntType.ofChar?_letter (t : IntType) : IntType.ofChar? t.letter = some t := by
  cases t <;> rfl

theorem IntType.letter_of_ofChar? {c : Char} {t : IntType} (h : IntType.ofChar? c = some t) :
    c = t.letter := by
  unfold IntType.ofChar? at h
  split at h <;> cases h <;> rfl

namespace IntSpec

/-! ## Parts -/

/-- The parts behind the alignment. -/
@[ext] structure Tail where
  sign : Option SignStyle
  alternate : Bool
  /-- The digits of the width. -/
  digits : List Char
  isDigit : ∀ c ∈ digits, c.isDigit
  type : Option IntType

/-- The mark of the alternate form. -/
def markChars (alternate : Bool) : List Char := if alternate then ['#'] else []

namespace Tail

/-- The text of the parts behind the alignment. -/
def chars (t : Tail) : List Char :=
  (t.sign.map SignStyle.char).toList ++ markChars t.alternate ++ t.digits ++
    (t.type.map IntType.letter).toList

/-- The width that the digits stand for; without digits it is 0. -/
def width (t : Tail) : Nat := Decimal.ofDigits t.digits

/-- The width starts with a zero. -/
def Zeros (t : Tail) : Prop := t.digits.head? = some '0'

instance (t : Tail) : Decidable t.Zeros := inferInstanceAs (Decidable (_ = _))

/-- A sign, and the type of characters. -/
def IsSignedChar (t : Tail) : Prop := t.sign.isSome ∧ t.type = some .char

instance (t : Tail) : Decidable t.IsSignedChar := inferInstanceAs (Decidable (_ ∧ _))

end Tail

/-- The parts of a specification. -/
@[ext] structure Parts extends Tail where
  /-- The alignment, and the fill character in front of it. -/
  align : Option (Option Char × Align)

/-- The text of an alignment. -/
def alignChars : Option (Option Char × Align) → List Char
  | none => []
  | some (fill, align) => fill.toList ++ [align.char]

namespace Parts

/-- The text of a specification. -/
def chars (p : Parts) : List Char := alignChars p.align ++ p.toTail.chars

/-- The width is small enough, and a character has no sign. -/
structure IsValid (p : Parts) : Prop where
  width_lt : p.width < widthLimit
  not_isSignedChar : ¬ p.IsSignedChar

/-- What parts ask for. A width that starts with a zero fills with zeros behind the sign, unless the
alignment or the fill character is given. -/
def spec (p : Parts) : IntSpec where
  fill := (p.align.bind Prod.fst).getD (if p.Zeros then '0' else ' ')
  align := (p.align.map Prod.snd).getD (if p.Zeros then .afterSign else .right)
  sign := p.sign.getD .minus
  alternate := p.alternate
  width := p.width
  type := p.type.getD .decimal

end Parts

/-! ## Reading one part -/

/-- The letter of a type. -/
def isType (c : Char) : Bool := (IntType.ofChar? c).isSome

/-- The character of a sign style. -/
def isSign (c : Char) : Bool := (SignStyle.ofChar? c).isSome

variable {t t' : Tail} {front front' cs rest : List Char} {text : String}

theorem isType_eq_false_of_isDigit {c : Char} (hc : c.isDigit) : isType c = false := by
  refine Bool.eq_false_iff.2 fun h => ?_
  obtain ⟨type, htype⟩ := Option.isSome_iff_exists.1 h
  rw [IntType.letter_of_ofChar? htype] at hc
  cases type <;> cases hc

theorem takeType_append (type : Option IntType) (hrest : Leaves isType rest) :
    takeType ((type.map IntType.letter).toList ++ rest) = (type.getD .decimal, rest) := by
  cases type with
  | some type => simp [takeType]
  | none =>
    cases rest with
    | nil => rfl
    | cons c rest =>
      have hnone : IntType.ofChar? c = none := Option.not_isSome_iff_eq_none.1 (by
        simpa [isType] using hrest c rfl)
      simp [takeType, hnone]

theorem exists_takeType (cs : List Char) : ∃ (type : Option IntType) (rest : List Char),
    cs = (type.map IntType.letter).toList ++ rest ∧ takeType cs = (type.getD .decimal, rest) := by
  cases cs with
  | nil => exact ⟨none, [], rfl, rfl⟩
  | cons c cs =>
    cases htype : IntType.ofChar? c with
    | none => exact ⟨none, c :: cs, rfl, by simp [takeType, htype]⟩
    | some type =>
      obtain rfl := IntType.letter_of_ofChar? htype
      exact ⟨some type, cs, rfl, by simp [takeType]⟩

theorem takeDigits_append {digits : List Char} (hdigits : ∀ c ∈ digits, c.isDigit)
    (hrest : Leaves Char.isDigit rest) : takeDigits (digits.reverse ++ rest) = (digits, rest) := by
  have hreverse : ∀ c ∈ digits.reverse, c.isDigit := fun c hc => hdigits c (List.mem_reverse.1 hc)
  have hdrop : (digits.reverse ++ rest).dropWhile Char.isDigit = rest := by
    have hwhole := List.takeWhile_append_dropWhile (p := Char.isDigit) (l := digits.reverse ++ rest)
    rw [takeWhile_append_of_leaves hreverse hrest] at hwhole
    exact List.append_cancel_left hwhole
  rw [takeDigits, takeWhile_append_of_leaves hreverse hrest, hdrop, List.reverse_reverse]

theorem exists_takeDigits (cs : List Char) : ∃ (digits rest : List Char),
    (∀ c ∈ digits, c.isDigit) ∧ cs = digits.reverse ++ rest ∧ takeDigits cs = (digits, rest) := by
  refine ⟨_, _, fun c hc => ?_, ?_, rfl⟩
  · exact all_takeWhile c (List.mem_reverse.1 hc)
  · rw [List.reverse_reverse, List.takeWhile_append_dropWhile]

theorem takeAlternate_append (alternate : Bool) (hrest : Leaves (· == '#') rest) :
    takeAlternate (markChars alternate ++ rest) = (alternate, rest) := by
  cases alternate with
  | true => rfl
  | false =>
    change takeAlternate rest = _
    unfold takeAlternate
    split
    · exact absurd (hrest '#' rfl) (by decide)
    · rfl

theorem exists_takeAlternate (cs : List Char) : ∃ (alternate : Bool) (rest : List Char),
    cs = markChars alternate ++ rest ∧ takeAlternate cs = (alternate, rest) := by
  unfold takeAlternate
  split
  · exact ⟨true, _, rfl, rfl⟩
  · exact ⟨false, cs, rfl, rfl⟩

theorem takeSignStyle_append (sign : Option SignStyle) (hrest : sign = none → Leaves isSign rest) :
    takeSignStyle ((sign.map SignStyle.char).toList ++ rest) = (sign, rest) := by
  cases sign with
  | some sign => simp [takeSignStyle]
  | none =>
    cases rest with
    | nil => rfl
    | cons c rest =>
      have hnone : SignStyle.ofChar? c = none := Option.not_isSome_iff_eq_none.1 (by
        simpa [isSign] using hrest rfl c rfl)
      simp [takeSignStyle, hnone]

theorem exists_takeSignStyle (cs : List Char) : ∃ (sign : Option SignStyle) (rest : List Char),
    cs = (sign.map SignStyle.char).toList ++ rest ∧ takeSignStyle cs = (sign, rest) := by
  cases cs with
  | nil => exact ⟨none, [], rfl, rfl⟩
  | cons c cs =>
    cases hsign : SignStyle.ofChar? c with
    | none => exact ⟨none, c :: cs, rfl, by simp [takeSignStyle, hsign]⟩
    | some sign =>
      obtain rfl := SignStyle.char_of_ofChar? hsign
      exact ⟨some sign, cs, rfl, by simp [takeSignStyle]⟩

/-- An alignment that is given counts, and so does a fill character. -/
theorem takeAlign?_reverse (align : Align) (fill : Char) (a : Option (Option Char × Align)) :
    takeAlign? align fill (alignChars a).reverse =
      some ((a.map Prod.snd).getD align, (a.bind Prod.fst).getD fill) := by
  rcases a with _ | ⟨_ | f, a⟩ <;> simp [alignChars, takeAlign?]

theorem exists_alignChars {align : Align} {fill : Char} {r : Align × Char}
    (h : takeAlign? align fill front.reverse = some r) : ∃ a, front = alignChars a := by
  have hreverse {cs : List Char} (hcs : front.reverse = cs) : front = cs.reverse := by
    rw [← hcs, List.reverse_reverse]
  unfold takeAlign? at h
  split at h
  · rename_i hfront
    exact ⟨none, hreverse hfront⟩
  · rename_i c hfront
    obtain ⟨a, ha, -⟩ := Option.map_eq_some_iff.1 h
    obtain rfl := Align.char_of_ofChar? ha
    exact ⟨some (none, a), hreverse hfront⟩
  · rename_i c f hfront
    obtain ⟨a, ha, -⟩ := Option.map_eq_some_iff.1 h
    obtain rfl := Align.char_of_ofChar? ha
    exact ⟨some (some f, a), hreverse hfront⟩
  · cases h

theorem alignChars_injective : Function.Injective alignChars := by
  have hchar {a b : Align} (h : a.char = b.char) : a = b := by
    rw [← Option.some_inj, ← Align.ofChar?_char a, h, Align.ofChar?_char]
  rintro (_ | ⟨_ | f, a⟩) (_ | ⟨_ | g, b⟩) h <;> simp [alignChars] at h
  · rfl
  · rw [hchar h]
  · rw [h.1, hchar h.2]

/-! ## Reading all parts -/

/-- A character that a part behind the alignment may consist of. -/
def isTail (c : Char) : Bool := isType c || c.isDigit || c == '#' || isSign c

/-- The readers take the parts behind the alignment off a reversed text, one after another, and
leave a front. -/
inductive Takes (t : Tail) : List Char → List Char → Prop where
  | mk {cs behindType behindDigits behindMark front : List Char} :
      takeType cs = (t.type.getD .decimal, behindType) →
      takeDigits behindType = (t.digits, behindDigits) →
      takeAlternate behindDigits = (t.alternate, behindMark) →
      takeSignStyle behindMark = (t.sign, front) → Takes t cs front

theorem reverse_text (front : List Char) (t : Tail) : (front ++ t.chars).reverse =
    (t.type.map IntType.letter).toList ++ (t.digits.reverse ++ (markChars t.alternate ++
      ((t.sign.map SignStyle.char).toList ++ front.reverse))) := by
  have hoption (o : Option Char) : o.toList.reverse = o.toList := by cases o <;> rfl
  have hmark : (markChars t.alternate).reverse = markChars t.alternate := by
    unfold markChars
    split <;> rfl
  simp only [Tail.chars, List.reverse_append, hoption, hmark, List.append_assoc]

theorem leaves_append {k : Char → Bool} (hcs : Leaves k cs) (hrest : Leaves k rest) :
    Leaves k (cs ++ rest) := by
  cases cs with
  | nil => exact hrest
  | cons c cs => exact Leaves.cons (hcs c rfl) _

theorem leaves_mark {k : Char → Bool} (hk : k '#' = false) (alternate : Bool) :
    Leaves k (markChars alternate) := by
  cases alternate with
  | false => rintro c ⟨⟩
  | true => exact Leaves.cons hk []

/-- The readers of the parts behind a sign stop at the sign, or at a front that has none of their
characters at its end. -/
theorem leaves_sign {k : Char → Bool} (hk : ∀ c, k c → isTail c)
    (hsign : ∀ s : SignStyle, k s.char = false)
    (hfront : t.sign = none → Leaves isTail front.reverse) :
    Leaves k ((t.sign.map SignStyle.char).toList ++ front.reverse) := by
  cases hs : t.sign with
  | some s => exact Leaves.cons (hsign s) _
  | none =>
    intro c hc
    refine Bool.eq_false_iff.2 fun h => ?_
    have hnone := hfront hs c hc
    rw [hk c h] at hnone
    cases hnone

/-- **The readers take the parts that a text is written with**, if its front has none of their
characters at its end, or if a sign stands behind it. -/
theorem takes_reverse (hfront : t.sign = none → Leaves isTail front.reverse) :
    Takes t (front ++ t.chars).reverse front.reverse := by
  -- Each reader stops at the next part that is there, or else at the front.
  have hmark := leaves_sign (k := (· == '#')) (fun c hc => by simp [isTail, hc])
    (fun s => by cases s <;> rfl) hfront
  have hdigit := leaves_sign (k := Char.isDigit) (fun c hc => by simp [isTail, hc])
    (fun s => by cases s <;> rfl) hfront
  have htype := leaves_sign (k := isType) (fun c hc => by simp [isTail, hc])
    (fun s => by cases s <;> rfl) hfront
  have hreverse : Leaves isType t.digits.reverse := fun c hc =>
    isType_eq_false_of_isDigit (t.isDigit c (List.mem_reverse.1 (List.mem_of_mem_head? hc)))
  rw [reverse_text]
  refine .mk (takeType_append t.type ?_) (takeDigits_append t.isDigit ?_)
    (takeAlternate_append t.alternate hmark) (takeSignStyle_append t.sign fun hnone => ?_)
  · exact leaves_append hreverse (leaves_append (leaves_mark (k := isType) rfl _) htype)
  · exact leaves_append (leaves_mark (k := Char.isDigit) rfl _) hdigit
  · intro c hc
    refine Bool.eq_false_iff.2 fun h => ?_
    have htail := hfront hnone c hc
    simp [isTail, h] at htail

/-- **Every text is a front and parts**, which the readers take. -/
theorem exists_takes (cs : List Char) : ∃ (t : Tail) (front : List Char),
    cs = front ++ t.chars ∧ Takes t cs.reverse front.reverse := by
  obtain ⟨type, r₁, h₁, htype⟩ := exists_takeType cs.reverse
  obtain ⟨digits, r₂, hall, h₂, hdigits⟩ := exists_takeDigits r₁
  obtain ⟨alternate, r₃, h₃, halternate⟩ := exists_takeAlternate r₂
  obtain ⟨sign, r₄, h₄, hsign⟩ := exists_takeSignStyle r₃
  refine ⟨⟨sign, alternate, digits, hall, type⟩, r₄.reverse, ?_, ?_⟩
  · rw [← List.reverse_inj, reverse_text, List.reverse_reverse, h₁, h₂, h₃, h₄]
  · rw [List.reverse_reverse]
    exact .mk htype hdigits halternate hsign

/-- The front and the parts of a text are those that the readers take. -/
theorem Takes.unique (h : Takes t (front ++ t.chars).reverse front.reverse)
    (h' : Takes t' (front' ++ t'.chars).reverse front'.reverse)
    (heq : front ++ t.chars = front' ++ t'.chars) : t = t' ∧ front = front' := by
  rw [heq] at h
  obtain ⟨htype, hdigits, halternate, hsign⟩ := h
  obtain ⟨htype', hdigits', halternate', hsign'⟩ := h'
  obtain ⟨-, rfl⟩ := Prod.mk.inj (htype.symm.trans htype')
  obtain ⟨hdigitsEq, rfl⟩ := Prod.mk.inj (hdigits.symm.trans hdigits')
  obtain ⟨halternateEq, rfl⟩ := Prod.mk.inj (halternate.symm.trans halternate')
  obtain ⟨hsignEq, hfront⟩ := Prod.mk.inj (hsign.symm.trans hsign')
  obtain rfl := List.reverse_inj.1 hfront
  -- The reader of the type takes `d` for no type at all, so the types are compared as texts.
  have hchars := List.append_cancel_left heq
  rw [Tail.chars, Tail.chars, hsignEq, halternateEq, hdigitsEq] at hchars
  have htypes : t.type = t'.type := by
    have hread := congrArg (·.head?.bind IntType.ofChar?) (List.append_cancel_left hchars)
    simpa [Option.bind_map, Function.comp_def] using hread
  exact ⟨Tail.ext hsignEq halternateEq hdigitsEq htypes, rfl⟩

/-- What is made of the parts. -/
theorem Takes.parse_eq (h : Takes t text.toList.reverse front.reverse) : parse text =
    if widthLimit ≤ t.width then .error (.illegal text)
    else if t.IsSignedChar then .error .signWithChar
    else match takeAlign? (if t.Zeros then .afterSign else .right) (if t.Zeros then '0' else ' ')
        front.reverse with
      | some (align, fill) => .ok ⟨fill, align, t.sign.getD .minus, t.alternate, t.width,
        t.type.getD .decimal⟩
      | none => .error (.illegal text) := by
  obtain ⟨htype, hdigits, halternate, hsign⟩ := h
  have hchar : t.IsSignedChar ↔ t.sign.isSome ∧ t.type.getD .decimal = .char := by
    refine and_congr_right fun _ => ?_
    cases t.type <;> simp
  simp only [parse, htype, hdigits, halternate, hsign, hchar, Tail.width]
  rfl

/-! ## Exactly the parts that go together -/

theorem leaves_alignChars (a : Option (Option Char × Align)) :
    Leaves isTail (alignChars a).reverse := by
  rcases a with _ | ⟨f, a⟩
  · rintro c ⟨⟩
  · rw [alignChars, List.reverse_append]
    refine Leaves.cons ?_ _
    cases a <;> rfl

theorem Parts.takes (p : Parts) : Takes p.toTail p.chars.reverse (alignChars p.align).reverse :=
  takes_reverse fun _ => leaves_alignChars p.align

/-- **A text has one decomposition into parts at most.** -/
theorem Parts.chars_injective : Function.Injective Parts.chars := by
  intro p q hchars
  have hp := p.takes
  have hq := q.takes
  obtain ⟨htail, halign⟩ := Takes.unique hp hq hchars
  have hsame := alignChars_injective halign
  cases p
  cases q
  cases htail
  cases hsame
  rfl

/-- Parts that go together are read. -/
theorem parse_chars {p : Parts} (hp : p.IsValid) (hchars : p.chars = text.toList) :
    parse text = .ok p.spec := by
  have htakes := p.takes
  rw [hchars] at htakes
  have hwidth : ¬ widthLimit ≤ p.width := Nat.not_le.2 hp.width_lt
  rw [htakes.parse_eq, if_neg hwidth, if_neg hp.not_isSignedChar, takeAlign?_reverse]
  rfl

/-- What is read consists of parts that go together. -/
theorem exists_parts {spec : IntSpec} (h : parse text = .ok spec) :
    ∃ p : Parts, p.IsValid ∧ p.chars = text.toList := by
  obtain ⟨t, front, htext, htakes⟩ := exists_takes text.toList
  rw [htakes.parse_eq] at h
  split at h
  · cases h
  rename_i hwidth
  split at h
  · cases h
  rename_i hchar
  split at h
  · rename_i hfront
    obtain ⟨a, rfl⟩ := exists_alignChars hfront
    exact ⟨⟨t, a⟩, ⟨Nat.not_le.1 hwidth, hchar⟩, htext.symm⟩
  · cases h

theorem parse_eq_ok_iff {spec : IntSpec} :
    parse text = .ok spec ↔ ∃ p : Parts, p.IsValid ∧ p.chars = text.toList ∧ p.spec = spec := by
  constructor
  · intro h
    obtain ⟨p, hp, hchars⟩ := exists_parts h
    have hspec := Except.ok.inj ((parse_chars hp hchars).symm.trans h)
    exact ⟨p, hp, hchars, hspec⟩
  · rintro ⟨p, hp, hchars, rfl⟩
    exact parse_chars hp hchars

/-- The parts at the end of a text are those of a character with a sign, whatever stands in front of
them, and the width is small enough. -/
def EndsInSignedChar (text : String) : Prop :=
  ∃ (front : List Char) (t : Tail), text.toList = front ++ t.chars ∧ t.IsSignedChar ∧
    t.width < widthLimit

theorem takes_of_isSignedChar (htext : text.toList = front ++ t.chars) (ht : t.IsSignedChar) :
    Takes t text.toList.reverse front.reverse := by
  rw [htext]
  refine takes_reverse fun hnone => ?_
  have hsome := ht.1
  rw [hnone] at hsome
  cases hsome

theorem parse_eq_signWithChar_iff : parse text = .error .signWithChar ↔ EndsInSignedChar text := by
  constructor
  · intro h
    obtain ⟨t, front, htext, htakes⟩ := exists_takes text.toList
    rw [htakes.parse_eq] at h
    split at h
    · cases h
    rename_i hwidth
    split at h
    · rename_i hchar
      exact ⟨front, t, htext, hchar, Nat.not_le.1 hwidth⟩
    · split at h <;> cases h
  · rintro ⟨front, t, htext, hchar, hwidth⟩
    have htakes := takes_of_isSignedChar htext hchar
    rw [htakes.parse_eq, if_neg (Nat.not_le.2 hwidth), if_pos hchar]

theorem parse_error {e : Error} (h : parse text = .error e) : e = .signWithChar ∨
    e = .illegal text := by
  obtain ⟨t, front, -, htakes⟩ := exists_takes text.toList
  rw [htakes.parse_eq] at h
  split at h
  · exact .inr (Except.error.inj h).symm
  split at h
  · exact .inl (Except.error.inj h).symm
  split at h
  · cases h
  · exact .inr (Except.error.inj h).symm

/-- **A text is accepted exactly if it is the text of parts that go together**, of which there is
one choice only, and it asks for what they ask for. A sign in front of the type of characters is
reported as such, wherever a sign stands in the place of signs and the width is small enough; any
other text is reported as no specification. -/
theorem specifications_are_parts (text : String) :
    (∀ spec, parse text = .ok spec ↔
      ∃ p : Parts, p.IsValid ∧ p.chars = text.toList ∧ p.spec = spec) ∧
    (∀ p q : Parts, p.chars = text.toList → q.chars = text.toList → p = q) ∧
    (parse text = .error .signWithChar ↔ EndsInSignedChar text) ∧
    (∀ e, parse text = .error e → e = .signWithChar ∨ e = .illegal text) := by
  refine ⟨fun spec => parse_eq_ok_iff, ?_, parse_eq_signWithChar_iff, fun e h => parse_error h⟩
  intro p q hp hq
  exact Parts.chars_injective (hp.trans hq.symm)

/-- The fill is a sign, the alignment stands behind it, and the width starts with a zero. -/
theorem specifications_are_parts_fill :
    parse "+<08X" = .ok ⟨'+', .left, .minus, false, 8, .upperHex⟩ := by
  let p : Parts := ⟨⟨none, false, ['0', '8'], List.all_eq_true.1 rfl, some .upperHex⟩,
    some (some '+', .left)⟩
  have hp : p.IsValid := ⟨by decide, by decide⟩
  have hchars : p.chars = "+<08X".toList := rfl
  exact ((specifications_are_parts "+<08X").1 _).2 ⟨p, hp, hchars, rfl⟩

/-- A width that is too great is reported as no specification, also behind a sign in front of the
type of characters: the width is read before the sign. -/
theorem wide_width_reported_first : ¬ ∀ (text : String) (front : List Char) (t : Tail),
    text.toList = front ++ t.chars → t.IsSignedChar → parse text = .error .signWithChar := by
  intro h
  let t : Tail := ⟨some .plus, false, "18446744073709551616".toList, List.all_eq_true.1 rfl,
    some .char⟩
  have hchar : t.IsSignedChar := by decide
  have htext : "+18446744073709551616c".toList = [] ++ t.chars := by rfl
  have hreported := h _ [] t htext hchar
  have hwide : widthLimit ≤ t.width := by decide
  rw [(takes_of_isSignedChar htext hchar).parse_eq, if_pos hwide] at hreported
  cases hreported

end IntSpec

end Templating
