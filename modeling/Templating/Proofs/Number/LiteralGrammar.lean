import Mathlib.Data.Nat.Digits.Defs
import Templating.Text.Blank

/-!
# The grammar of integer literals

A literal of a base is a sign, a prefix that names a radix, and digits of the radix, between blanks.

* `IsDigit`, `IsDigits`, `NamesRadix`, `IsSize`, `IsNumeral`, `IsLiteral`: the parts of a literal
  and the number that they stand for.
* `IsDigits.ends`, `IsSize.ends`, `IsNumeral.ends`: the first and the last character.
* `IsNumeral.not_mem`: no point stands in a literal, and no sign but at its beginning.
* `NamesRadix.not_isDigits`: a prefix cannot be read as digits.
* `IsNumeral.toLower_iff`: **the case of letters does not count.**
-/

namespace Templating.Number

open Text

variable {base radix d n size : ℕ} {c : Char} {cs body rest : List Char} {ds : List ℕ} {v : ℤ}

/-! ## The grammar -/

/-- A digit of a radix, with its value: from 10 on an ASCII letter in either case. -/
def IsDigit (radix : ℕ) (c : Char) (d : ℕ) : Prop :=
  d < radix ∧ (d < 10 ∧ c.toNat = '0'.toNat + d ∨
    10 ≤ d ∧ d < 36 ∧ (c.toNat + 10 = 'a'.toNat + d ∨ c.toNat + 10 = 'A'.toNat + d))

/-- Digits of a radix, with their values. An underscore may stand between two of them. -/
inductive IsDigits (radix : ℕ) : List Char → List ℕ → Prop where
  | single {c : Char} {d : ℕ} : IsDigit radix c d → IsDigits radix [c] [d]
  | next {c : Char} {d : ℕ} {cs : List Char} {ds : List ℕ} :
      IsDigit radix c d → IsDigits radix cs ds → IsDigits radix (c :: cs) (d :: ds)
  | apart {c : Char} {d : ℕ} {cs : List Char} {ds : List ℕ} :
      IsDigit radix c d → IsDigits radix cs ds → IsDigits radix (c :: '_' :: cs) (d :: ds)

/-- A letter that behind a zero names a radix. -/
inductive NamesRadix (c : Char) : ℕ → Prop where
  | hex : c = 'x' ∨ c = 'X' → NamesRadix c 16
  | octal : c = 'o' ∨ c = 'O' → NamesRadix c 8
  | binary : c = 'b' ∨ c = 'B' → NamesRadix c 2

/-- The number that digits stand for, the first one of which counts most. -/
def positional (radix : ℕ) (ds : List ℕ) : ℕ := Nat.ofDigits radix ds.reverse

/-- What follows the sign of a literal: digits, or a prefix, an optional underscore and digits. Base
0 takes any prefix, and without one it is 10 and has no zero in front of other digits. -/
inductive IsSize : ℕ → List Char → ℕ → Prop where
  | plain {base : ℕ} {cs : List Char} {ds : List ℕ} :
      base ≠ 0 → IsDigits base cs ds → IsSize base cs (positional base ds)
  | decimal {cs : List Char} {ds : List ℕ} :
      IsDigits 10 cs ds → (ds.head? = some 0 → ∀ d ∈ ds, d = 0) → IsSize 0 cs (positional 10 ds)
  | marked {base radix : ℕ} {letter : Char} {joint cs : List Char} {ds : List ℕ} :
      NamesRadix letter radix → base = 0 ∨ base = radix → joint = [] ∨ joint = ['_'] →
      IsDigits radix cs ds → IsSize base ('0' :: letter :: (joint ++ cs)) (positional radix ds)

/-- An optional sign. -/
inductive IsSign : List Char → ℤ → Prop where
  | absent : IsSign [] 1
  | plus : IsSign ['+'] 1
  | minus : IsSign ['-'] (-1)

/-- A sign, and what follows it. -/
inductive IsNumeral (base : ℕ) : List Char → ℤ → Prop where
  | mk {sign cs : List Char} {unit : ℤ} {size : ℕ} :
      IsSign sign unit → IsSize base cs size → IsNumeral base (sign ++ cs) (unit * size)

/-- **An integer literal of a base**, with the number that it stands for. -/
inductive IsLiteral (base : ℕ) : List Char → ℤ → Prop where
  | mk {before cs after : List Char} {v : ℤ} :
      (∀ c ∈ before, isBlank c = true) → IsNumeral base cs v → (∀ c ∈ after, isBlank c = true) →
      IsLiteral base (before ++ cs ++ after) v

/-! ### First and last characters -/

theorem IsDigit.toNat_cases (h : IsDigit radix c d) :
    48 ≤ c.toNat ∧ c.toNat ≤ 57 ∨ 97 ≤ c.toNat ∧ c.toNat ≤ 122 ∨ 65 ≤ c.toNat ∧ c.toNat ≤ 90 := by
  simp only [IsDigit, Char.reduceToNat] at h
  omega

theorem IsDigit.ne (h : IsDigit radix c d) {x : Char} (hx : x ∈ ['_', '+', '-']) : c ≠ x := by
  rintro rfl
  simp only [List.mem_cons, List.not_mem_nil, or_false] at hx
  obtain rfl | rfl | rfl := hx <;> exact absurd h.toNat_cases (by decide)

theorem IsDigit.isBlank_eq_false (h : IsDigit radix c d) : isBlank c = false := by
  have hcases := h.toNat_cases
  rw [isBlank, if_pos (by omega)]
  simp only [Bool.or_eq_false_iff, beq_eq_false_iff_ne, Bool.and_eq_false_iff,
    decide_eq_false_iff_not]
  omega

/-- Digits start and end with a digit. -/
theorem IsDigits.ends (h : IsDigits radix cs ds) : ∃ c d, cs.head? = some c ∧
    cs.getLast? = some d ∧ (∃ k, IsDigit radix c k) ∧ ∃ k, IsDigit radix d k := by
  induction h with
  | @single c d hc => exact ⟨c, c, rfl, rfl, ⟨d, hc⟩, d, hc⟩
  | @next c d cs ds hc _ ih =>
    obtain ⟨-, last, -, hlast, -, hdigit⟩ := ih
    exact ⟨c, last, rfl, by rw [List.getLast?_cons, hlast]; rfl, ⟨d, hc⟩, hdigit⟩
  | @apart c d cs ds hc _ ih =>
    obtain ⟨-, last, -, hlast, -, hdigit⟩ := ih
    refine ⟨c, last, rfl, ?_, ⟨d, hc⟩, hdigit⟩
    rw [List.getLast?_cons, List.getLast?_cons, hlast]
    rfl

/-- What follows the sign starts with a digit and ends with one. -/
theorem IsSize.ends (h : IsSize base cs size) : ∃ c d, cs.head? = some c ∧
    cs.getLast? = some d ∧ (∃ radix k, IsDigit radix c k) ∧ ∃ radix k, IsDigit radix d k := by
  cases h with
  | plain _ hdigits =>
    obtain ⟨c, d, hhead, hlast, hc, hd⟩ := hdigits.ends
    exact ⟨c, d, hhead, hlast, ⟨_, hc⟩, _, hd⟩
  | decimal hdigits _ =>
    obtain ⟨c, d, hhead, hlast, hc, hd⟩ := hdigits.ends
    exact ⟨c, d, hhead, hlast, ⟨_, hc⟩, _, hd⟩
  | marked _ _ _ hdigits =>
    obtain ⟨-, d, -, hlast, -, hd⟩ := hdigits.ends
    have hzero : IsDigit 10 '0' 0 := ⟨by decide, .inl ⟨by decide, rfl⟩⟩
    refine ⟨'0', d, rfl, ?_, ⟨10, 0, hzero⟩, _, hd⟩
    rw [List.getLast?_cons, List.getLast?_cons, List.getLast?_append, hlast]
    rfl

/-- A sign and what follows it have no blanks at their ends. -/
theorem IsNumeral.ends (h : IsNumeral base cs v) : ∃ c d, cs.head? = some c ∧
    cs.getLast? = some d ∧ isBlank c = false ∧ isBlank d = false := by
  obtain @⟨sign, cs, unit, size, hsign, hsize⟩ := h
  obtain ⟨c, d, hfirst, hlast, ⟨_, _, hc⟩, _, _, hd⟩ := hsize.ends
  have hlast' (sign : List Char) : (sign ++ cs).getLast? = some d := by
    rw [List.getLast?_append, hlast, Option.some_or]
  cases hsign with
  | absent => exact ⟨c, d, hfirst, hlast, hc.isBlank_eq_false, hd.isBlank_eq_false⟩
  | plus => exact ⟨'+', d, rfl, hlast' _, rfl, hd.isBlank_eq_false⟩
  | minus => exact ⟨'-', d, rfl, hlast' _, rfl, hd.isBlank_eq_false⟩

/-! ### Marks -/

theorem IsDigits.not_mem (h : IsDigits radix cs ds) {x : Char} (hx : x ∈ ['.', '+', '-']) :
    x ∉ cs := by
  have hdigit {c : Char} {d : ℕ} (hc : IsDigit radix c d) : x ≠ c := by
    rintro rfl
    simp only [List.mem_cons, List.not_mem_nil, or_false] at hx
    obtain rfl | rfl | rfl := hx <;> exact absurd hc.toNat_cases (by decide)
  have hbar : x ≠ '_' := by
    rintro rfl
    exact absurd hx (by decide)
  induction h with
  | single hc => simpa using hdigit hc
  | next hc _ ih => simpa using ⟨hdigit hc, ih⟩
  | apart hc _ ih => simpa using ⟨hdigit hc, hbar, ih⟩

theorem IsSize.not_mem (h : IsSize base cs size) {x : Char} (hx : x ∈ ['.', '+', '-']) :
    x ∉ cs := by
  cases h with
  | plain _ hdigits => exact hdigits.not_mem hx
  | decimal hdigits _ => exact hdigits.not_mem hx
  | @marked _ _ letter joint cs _ hletter _ hjoint hdigits =>
    have hfirst : letter ≠ x := by
      rintro rfl
      obtain (rfl | rfl) | (rfl | rfl) | (rfl | rfl) := hletter <;> exact absurd hx (by decide)
    have hfront : ∀ c ∈ '0' :: joint, c ∉ ['.', '+', '-'] := by
      rcases hjoint with rfl | rfl <;> simp
    intro hmem
    rcases List.mem_cons.1 hmem with rfl | hmem
    · exact hfront '0' List.mem_cons_self hx
    rcases List.mem_cons.1 hmem with rfl | hmem
    · exact hfirst rfl
    rcases List.mem_append.1 hmem with hmem | hmem
    · exact hfront x (List.mem_cons_of_mem _ hmem) hx
    · exact hdigits.not_mem hx hmem

/-- **No point stands in a literal, and no sign but at its beginning.** -/
theorem IsNumeral.not_mem (h : IsNumeral base (c :: cs) v) {x : Char} (hx : x ∈ ['.', '+', '-']) :
    x ∉ cs := by
  generalize hwhole : c :: cs = whole at h
  obtain ⟨hsign, hsize⟩ := h
  cases hsign with
  | absent =>
    rw [List.nil_append] at hwhole
    rw [← hwhole] at hsize
    exact fun hmem => hsize.not_mem hx (List.mem_cons_of_mem c hmem)
  | plus =>
    cases hwhole
    exact hsize.not_mem hx
  | minus =>
    cases hwhole
    exact hsize.not_mem hx

/-! ### Signs and prefixes -/

/-- What follows the sign starts with no sign. -/
theorem IsSize.not_sign {sign : Char} (hsign : sign ∈ ['_', '+', '-']) :
    ¬ IsSize base (sign :: cs) size := by
  intro h
  obtain ⟨c, -, hfirst, -, ⟨radix, k, hk⟩, -⟩ := h.ends
  cases hfirst
  exact hk.ne hsign rfl

theorem isNumeral_sign_iff {sign : Char} {unit : ℤ} (hunit : IsSign [sign] unit) :
    IsNumeral base (sign :: cs) v ↔ ∃ size, IsSize base cs size ∧ unit * (size : ℤ) = v := by
  -- a sign cannot be read as the first digit, so it is the one that the text has
  have hsign : sign ∈ ['_', '+', '-'] := by cases hunit <;> decide
  constructor
  · intro h
    generalize hwhole : sign :: cs = whole at h
    obtain ⟨hunit', hsize⟩ := h
    cases hunit' with
    | absent =>
      rw [List.nil_append] at hwhole
      subst hwhole
      exact (IsSize.not_sign hsign hsize).elim
    | plus =>
      cases hwhole
      cases hunit
      exact ⟨_, hsize, rfl⟩
    | minus =>
      cases hwhole
      cases hunit
      exact ⟨_, hsize, rfl⟩
  · rintro ⟨size, hsize, rfl⟩
    exact .mk hunit hsize

theorem isNumeral_unsigned_iff (hminus : ∀ rest, cs ≠ '-' :: rest)
    (hplus : ∀ rest, cs ≠ '+' :: rest) :
    IsNumeral base cs v ↔ ∃ size, IsSize base cs size ∧ 1 * (size : ℤ) = v := by
  constructor
  · rintro ⟨hsign, hsize⟩
    cases hsign with
    | absent => exact ⟨_, hsize, rfl⟩
    | plus => exact (hplus _ rfl).elim
    | minus => exact (hminus _ rfl).elim
  · rintro ⟨size, hsize, rfl⟩
    exact .mk .absent hsize

/-- The letter of a prefix is no digit of the radix that it names, nor a decimal one. -/
theorem NamesRadix.not_isDigit (h : NamesRadix c radix) {radix' : ℕ}
    (hradix : radix' = radix ∨ radix' = 10) : ¬ IsDigit radix' c d := by
  unfold IsDigit
  rintro ⟨hlt, hcode⟩
  obtain (rfl | rfl) | (rfl | rfl) | (rfl | rfl) := h
  all_goals
    simp only [Char.reduceToNat] at hcode
    omega

/-- Behind a first digit stands a digit or an underscore. -/
theorem IsDigits.second {c' : Char} (h : IsDigits radix (c :: c' :: cs) ds) :
    c' = '_' ∨ ∃ d, IsDigit radix c' d := by
  cases h with
  | next _ hrest =>
    obtain ⟨c, -, hfirst, -, hdigit, -⟩ := hrest.ends
    cases hfirst
    exact .inr hdigit
  | apart => exact .inl rfl

/-- A prefix cannot be read as digits. -/
theorem NamesRadix.not_isDigits (h : NamesRadix c radix) {radix' : ℕ}
    (hradix : radix' = radix ∨ radix' = 10) : ¬ IsDigits radix' ('0' :: c :: cs) ds := by
  intro hdigits
  obtain rfl | ⟨d, hdigit⟩ := hdigits.second
  · rcases h with h | h | h <;> revert h <;> decide
  · exact h.not_isDigit hradix hdigit

theorem isLiteral_iff : IsLiteral base cs v ↔ IsNumeral base (trim cs) v := by
  constructor
  · rintro ⟨hbefore, hnumeral, hafter⟩
    obtain ⟨c, d, hfirst, hlast, hc, hd⟩ := hnumeral.ends
    rwa [trim_between hbefore hfirst hc hlast hd hafter]
  · intro h
    obtain ⟨before, after, hcs, hbefore, hafter⟩ := exists_trim cs
    rw [hcs]
    exact .mk hbefore h hafter

/-! ### Case -/

theorem toNat_toLower (c : Char) : c.toLower.toNat =
    if 65 ≤ c.toNat ∧ c.toNat ≤ 90 then c.toNat + 32 else c.toNat := by
  have hupper : (c.val ≥ 'A'.val ∧ c.val ≤ 'Z'.val) ↔ 65 ≤ c.toNat ∧ c.toNat ≤ 90 := Iff.rfl
  unfold Char.toLower
  by_cases h : 65 ≤ c.toNat ∧ c.toNat ≤ 90
  · have hle : c.val.toNat ≤ 90 := h.2
    rw [dif_pos (hupper.2 h), if_pos h]
    change (c.val + 32).toNat = c.val.toNat + 32
    rw [UInt32.toNat_add]
    exact Nat.mod_eq_of_lt (show c.val.toNat + 32 < 2 ^ 32 by omega)
  · rw [dif_neg (mt hupper.1 h), if_neg h]

theorem toLower_toLower (c : Char) : c.toLower.toLower = c.toLower := by
  rw [← Char.toNat_inj, toNat_toLower c.toLower, if_neg]
  rw [toNat_toLower]
  split <;> omega

/-- Other characters than letters have no case. -/
theorem toLower_eq_iff {x : Char} (hx : x ∈ ['_', '+', '-', '0']) : c.toLower = x ↔ c = x := by
  rw [← Char.toNat_inj, ← Char.toNat_inj, toNat_toLower]
  simp only [List.mem_cons, List.not_mem_nil, or_false] at hx
  obtain rfl | rfl | rfl | rfl := hx
  all_goals
    simp only [Char.reduceToNat]
    split <;> omega

theorem isDigit_toLower_iff : IsDigit radix c.toLower d ↔ IsDigit radix c d := by
  simp only [IsDigit, Char.reduceToNat, toNat_toLower]
  split <;> omega

/-- The two cases of a letter. -/
theorem toLower_letter_iff {x y : Char} (hx : 97 ≤ x.toNat ∧ x.toNat ≤ 122)
    (hy : y.toNat + 32 = x.toNat) : c.toLower = x ∨ c.toLower = y ↔ c = x ∨ c = y := by
  simp only [← Char.toNat_inj, toNat_toLower]
  split <;> omega

theorem IsDigits.toLower_iff : IsDigits radix (cs.map Char.toLower) ds ↔ IsDigits radix cs ds := by
  constructor
  · intro h
    generalize hlower : cs.map Char.toLower = lower at h
    induction h generalizing cs with
    | single hc =>
      obtain ⟨c, rfl, rfl⟩ := List.map_eq_singleton_iff.1 hlower
      exact .single (isDigit_toLower_iff.1 hc)
    | next hc _ ih =>
      obtain ⟨c, cs, rfl, rfl, hrest⟩ := List.map_eq_cons_iff.1 hlower
      exact .next (isDigit_toLower_iff.1 hc) (ih hrest)
    | apart hc _ ih =>
      obtain ⟨c, tail, rfl, rfl, htail⟩ := List.map_eq_cons_iff.1 hlower
      obtain ⟨bar, cs, rfl, hbar, hrest⟩ := List.map_eq_cons_iff.1 htail
      obtain rfl := (toLower_eq_iff (by decide)).1 hbar
      exact .apart (isDigit_toLower_iff.1 hc) (ih hrest)
  · intro h
    induction h with
    | single hc => exact .single (isDigit_toLower_iff.2 hc)
    | next hc _ ih => exact .next (isDigit_toLower_iff.2 hc) ih
    | apart hc _ ih => exact .apart (isDigit_toLower_iff.2 hc) ih

theorem NamesRadix.toLower_iff : NamesRadix c.toLower radix ↔ NamesRadix c radix := by
  have hx := toLower_letter_iff (c := c) (x := 'x') (y := 'X') (by decide) rfl
  have ho := toLower_letter_iff (c := c) (x := 'o') (y := 'O') (by decide) rfl
  have hb := toLower_letter_iff (c := c) (x := 'b') (y := 'B') (by decide) rfl
  constructor
  · rintro (h | h | h)
    · exact .hex (hx.1 h)
    · exact .octal (ho.1 h)
    · exact .binary (hb.1 h)
  · rintro (h | h | h)
    · exact .hex (hx.2 h)
    · exact .octal (ho.2 h)
    · exact .binary (hb.2 h)

theorem IsSize.toLower_iff : IsSize base (cs.map Char.toLower) size ↔ IsSize base cs size := by
  have hjoint {joint : List Char} : joint.map Char.toLower = [] ∨ joint.map Char.toLower = ['_'] ↔
      joint = [] ∨ joint = ['_'] := by
    rw [List.map_eq_nil_iff, List.map_eq_singleton_iff]
    simp [toLower_eq_iff]
  constructor
  · intro h
    generalize hlower : cs.map Char.toLower = lower at h
    cases h with
    | plain hbase hdigits => exact .plain hbase (IsDigits.toLower_iff.1 (hlower ▸ hdigits))
    | decimal hdigits hzero => exact .decimal (IsDigits.toLower_iff.1 (hlower ▸ hdigits)) hzero
    | marked hletter hbase hjoint' hdigits =>
      -- a zero and an underscore are in lower case already
      obtain ⟨zero, tail, rfl, hzero, htail⟩ := List.map_eq_cons_iff.1 hlower
      obtain ⟨letter, rest, rfl, rfl, hrest⟩ := List.map_eq_cons_iff.1 htail
      obtain ⟨joint, cs, rfl, rfl, rfl⟩ := List.map_eq_append_iff.1 hrest
      obtain rfl := (toLower_eq_iff (by decide)).1 hzero
      exact .marked (NamesRadix.toLower_iff.1 hletter) hbase (hjoint.1 hjoint')
        (IsDigits.toLower_iff.1 hdigits)
  · intro h
    cases h with
    | plain hbase hdigits => exact .plain hbase (IsDigits.toLower_iff.2 hdigits)
    | decimal hdigits hzero => exact .decimal (IsDigits.toLower_iff.2 hdigits) hzero
    | marked hletter hbase hjoint' hdigits =>
      rw [List.map_cons, List.map_cons, List.map_append]
      exact .marked (NamesRadix.toLower_iff.2 hletter) hbase (hjoint.2 hjoint')
        (IsDigits.toLower_iff.2 hdigits)

/-- **The case of letters does not count.** -/
theorem IsNumeral.toLower_iff : IsNumeral base (cs.map Char.toLower) v ↔ IsNumeral base cs v := by
  have hsign {sign : List Char} {unit : ℤ} : IsSign (sign.map Char.toLower) unit ↔
      IsSign sign unit := by
    constructor
    · intro h
      generalize hlower : sign.map Char.toLower = lower at h
      cases h with
      | absent => exact List.map_eq_nil_iff.1 hlower ▸ .absent
      | plus =>
        obtain ⟨c, rfl, hc⟩ := List.map_eq_singleton_iff.1 hlower
        exact (toLower_eq_iff (by decide)).1 hc ▸ .plus
      | minus =>
        obtain ⟨c, rfl, hc⟩ := List.map_eq_singleton_iff.1 hlower
        exact (toLower_eq_iff (by decide)).1 hc ▸ .minus
    · rintro (_ | _ | _)
      · exact .absent
      · exact .plus
      · exact .minus
  constructor
  · intro h
    generalize hlower : cs.map Char.toLower = lower at h
    obtain ⟨hunit, hsize⟩ := h
    obtain ⟨sign, cs, rfl, rfl, rfl⟩ := List.map_eq_append_iff.1 hlower
    exact .mk (hsign.1 hunit) (IsSize.toLower_iff.1 hsize)
  · rintro ⟨hunit, hsize⟩
    rw [List.map_append]
    exact .mk (hsign.2 hunit) (IsSize.toLower_iff.2 hsize)

end Templating.Number
