import Templating.Proofs.Syntax.LiteralText
import Templating.Proofs.Value.Members
import Templating.Value.Text

/-!
# The text that names a value names no other one

The first character of the text tells the form of the value: a quote opens a string, a bracket a
list, a sign or a digit a number. A string reaches to its closing quote, a list to its bracket, and
a number as far as there are digits. So no two values have the same text, whatever is nested in
them. Floats, templates and iterators are left out: their texts can coincide.

* `Text.toldApart_intChars`, `Text.toldApart_callChars`: whole numbers and calls with them, the form
  of durations and of months.
* `Value.exists_head`: the first character tells the form.
* `Value.toldApart_chars`: **values are told apart**, before whatever can follow a value.
* `Value.repr_injective`: values with the same text are the same.
-/

namespace Templating

open Text

/-! ## Whole numbers and calls -/

namespace Text

/-- The characters of names and of numbers with a sign. -/
def isWordChar (c : Char) : Bool := isNameChar c || c = '-'

theorem Leaves.mono {p q : Char → Bool} {r : List Char} (h : Leaves q r)
    (hp : ∀ c, p c = true → q c = true) : Leaves p r := by
  intro c hc
  have hq := h c hc
  by_contra hpc
  rw [hp c (by simpa using hpc)] at hq
  cases hq

theorem leaves_isNameChar {r : List Char} (h : Leaves isWordChar r) : Leaves isNameChar r :=
  h.mono fun c hc => by simp [isWordChar, hc]

/-- A whole number with its sign. -/
def intChars (n : Int) : List Char := n.repr.toList

theorem isWordChar_of_mem_intChars {n : Int} {c : Char} (h : c ∈ intChars n) : isWordChar c := by
  rw [intChars, Decimal.toList_intRepr, List.mem_append] at h
  rcases h with h | h
  · split at h
    · rw [List.mem_singleton.1 h]
      rfl
    · cases h
  · simp [isWordChar, isNameChar_of_isDigit (Decimal.isDigit_of_mem_toDigits h)]

/-- A whole number reaches as far as its digits. -/
theorem toldApart_intChars (n : Int) :
    ToldApart intChars (fun _ => True) (Leaves isWordChar) Eq n := by
  intro n' _ r r' hr hr' heq
  obtain ⟨hchars, hrest⟩ := toldApart_run (fun _ hc => isWordChar_of_mem_intChars hc)
    (fun _ hc => isWordChar_of_mem_intChars hc) hr hr' heq
  refine ⟨?_, hrest⟩
  have hread := Decimal.readInt?_repr n
  rw [show n.repr.toList = n'.repr.toList from hchars, Decimal.readInt?_repr] at hread
  exact (Option.some.inj hread).symm

theorem head?_intChars (n : Int) : ∃ c cs, intChars n = c :: cs ∧ (c.isDigit || c = '-') := by
  rw [intChars, Decimal.toList_intRepr]
  by_cases h : n < 0
  · rw [if_pos h]
    exact ⟨'-', _, rfl, rfl⟩
  · rw [if_neg h, List.nil_append]
    cases hdigits : Nat.toDigits 10 n.natAbs with
    | nil =>
      have hpos := Nat.length_toDigits_pos (b := 10) (n := n.natAbs)
      simp [hdigits] at hpos
    | cons c cs =>
      have hdigit : c.isDigit := Decimal.isDigit_of_mem_toDigits (hdigits ▸ List.mem_cons_self)
      exact ⟨c, cs, rfl, by simp [hdigit]⟩

/-- The call of a function with whole numbers. -/
def callChars (name : String) (args : List Int) : List Char :=
  name.toList ++ '(' :: (commaText intChars args ++ [')'])

/-- The arguments of a call reach as far as its parenthesis. -/
theorem toldApart_callChars (name : String) (args : List Int) :
    ToldApart (callChars name) (fun _ => True) (fun _ => True) Eq args := by
  intro args' _ r r' _ _ heq
  have hcommas : ToldApart (fun args => commaText intChars args ++ [')'])
      (fun args => ∀ a ∈ args, True) (fun _ => True) (List.Forall₂ Eq) args := by
    refine toldApart_commas (by decide) (fun n _ => ⟨trivial, toldApart_intChars n⟩)
      (fun n _ r h => ?_) (fun c hc r => Leaves.cons ?_ r)
    · obtain ⟨c, cs, hn, hc⟩ := head?_intChars n
      rw [hn, List.cons_append, List.head?_cons, Option.some.injEq] at h
      rw [h] at hc
      exact absurd hc (by decide)
    · rcases hc with rfl | rfl <;> rfl
  simp only [callChars, List.append_assoc, List.cons_append] at heq
  have htail := List.tail_eq_of_cons_eq (List.append_cancel_left heq)
  obtain ⟨hargs, hr⟩ := hcommas (fun _ _ => trivial) trivial trivial (by simpa using htail)
  exact ⟨List.forall₂_eq_eq_eq ▸ hargs, hr⟩

end Text

namespace Duration

/-- The arguments of the constructor form. -/
def args (d : Duration) : List Int :=
  if d.micros ≠ 0 then [d.days.toInt, d.seconds, d.micros]
  else if d.seconds ≠ 0 then [d.days.toInt, d.seconds]
  else if d.days ≠ 0 then [d.days.toInt]
  else []

theorem toList_repr (d : Duration) : d.repr.toList = callChars "timedelta" d.args := by
  have hnat (n : Nat) : (n : Int).repr.toList = Nat.toDigits 10 n := Nat.toList_repr
  unfold repr args
  split_ifs <;> simp [callChars, commaText, intChars, hnat] <;> rfl

/-- Only zeros are left out from the arguments. -/
theorem args_getD (d : Duration) :
    d.args.getD 0 0 = d.days.toInt ∧ d.args.getD 1 0 = d.seconds ∧ d.args.getD 2 0 = d.micros := by
  unfold args
  split_ifs with hmicros hseconds hdays
  · exact ⟨rfl, rfl, rfl⟩
  · have hzero : d.micros = 0 := not_not.1 hmicros
    simp [hzero]
  · have hzero : d.micros = 0 := not_not.1 hmicros
    have hzero' : d.seconds = 0 := not_not.1 hseconds
    simp [hzero, hzero']
  · have hzero : d.micros = 0 := not_not.1 hmicros
    have hzero' : d.seconds = 0 := not_not.1 hseconds
    have hzero'' : d.days = 0 := not_not.1 hdays
    simp [hzero, hzero', hzero'']

theorem args_injective : Function.Injective args := by
  intro d e h
  obtain ⟨hdays, hseconds, hmicros⟩ := d.args_getD
  obtain ⟨hdays', hseconds', hmicros'⟩ := e.args_getD
  rw [h, hdays'] at hdays
  rw [h, hseconds'] at hseconds
  rw [h, hmicros'] at hmicros
  cases d
  cases e
  simp only [Duration.mk.injEq]
  exact ⟨(Int64.toInt_inj.1 hdays).symm, (Int.ofNat.inj hseconds).symm,
    (Int.ofNat.inj hmicros).symm⟩

theorem toldApart_repr (d : Duration) :
    ToldApart (fun d : Duration => d.repr.toList) (fun _ => True) (fun _ => True) Eq d := by
  intro e _ r r' _ _ heq
  simp only [toList_repr] at heq
  obtain ⟨hargs, hr⟩ := toldApart_callChars _ _ trivial trivial trivial heq
  exact ⟨args_injective hargs, hr⟩

end Duration

namespace Months

/-- The arguments of the constructor form. -/
def args (m : Months) : List Int := if m.count = 0 then [] else [m.count.toInt]

theorem toList_repr (m : Months) : m.repr.toList = callChars "monthdelta" m.args := by
  unfold repr args
  split_ifs
  · rfl
  · simp [callChars, commaText, intChars]
    rfl

theorem toldApart_repr (m : Months) :
    ToldApart (fun m : Months => m.repr.toList) (fun _ => True) (fun _ => True) Eq m := by
  intro m' _ r r' _ _ heq
  simp only [toList_repr] at heq
  obtain ⟨hargs, hr⟩ := toldApart_callChars _ _ trivial trivial trivial heq
  refine ⟨?_, hr⟩
  obtain ⟨n⟩ := m
  obtain ⟨n'⟩ := m'
  unfold args at hargs
  split_ifs at hargs with hn hn' hn'
  · simp_all
  · simpa [Int64.toInt_inj] using hargs

end Months

namespace Value

/-! ## The type of a value by the first character -/

/-- The kinds of atoms that the text names exactly. -/
def IsConstant : Value → Prop
  | none | bool _ | int _ | str _ | date _ | duration _ | months _ | color _ => True
  | float _ | list _ | dict _ | template _ | iterator _ => False

/-- Constants, and lists and dicts of them, nested to any depth. -/
def IsPlain (v : Value) : Prop := MadeOf IsConstant v

/-- The text of a value as characters. -/
def chars (v : Value) : List Char := v.repr.toList

/-- The forms of text, which differ in the first character. -/
inductive Shape where
  | none | bool | int | str | list | dict | date | duration | months | color | other

/-- The form of the text of a value. -/
def shape : Value → Shape
  | none => .none
  | bool _ => .bool
  | int _ => .int
  | str _ => .str
  | list _ => .list
  | dict _ => .dict
  | date _ => .date
  | duration _ => .duration
  | months _ => .months
  | color _ => .color
  | float _ | template _ | iterator _ => .other

/-- The form of the texts that begin with a character. -/
def Shape.ofHead? (c : Char) : Option Shape :=
  if c.isDigit || c = '-' then some .int
  else if c = 'N' then some .none
  else if c = 'T' ∨ c = 'F' then some .bool
  else if c = '"' then some .str
  else if c = '[' then some .list
  else if c = '\x7b' then some .dict
  else if c = '@' then some .date
  else if c = 't' then some .duration
  else if c = 'm' then some .months
  else if c = '#' then some .color
  else Option.none

variable {v w : Value}

theorem reprs_eq (items : List Value) : reprs items = items.map repr := by
  induction items with
  | nil => rfl
  | cons item items ih => rw [reprs, ih, List.map_cons]

/-- The text of an entry of a dict as characters. -/
def entryChars (e : String × Value) : List Char := (literal e.1).toList ++ ':' :: ' ' :: e.2.chars

theorem chars_list (items : List Value) :
    (list items).chars = '[' :: (commaText chars items ++ [']']) := by
  have hcommas : (String.intercalate ", " (reprs items)).toList = commaText chars items := by
    rw [reprs_eq, show String.intercalate ", " (items.map repr) = commas (items.map repr) from rfl,
      toList_commas, commaText_map]
    rfl
  rw [chars, repr, String.toList_append, String.toList_append, hcommas]
  rfl

theorem toList_entryReprs (entries : List (String × Value)) :
    (String.intercalate ", " (entryReprs entries)).toList = commaText entryChars entries := by
  have hreprs : entryReprs entries = entries.map fun e => literal e.1 ++ ": " ++ e.2.repr := by
    induction entries with
    | nil => rfl
    | cons e entries ih => rw [entryReprs, ih, List.map_cons]
  have hcommas := toList_commas (entries.map fun e => literal e.1 ++ ": " ++ e.2.repr)
  have hentry : (String.toList ∘ fun e => literal e.1 ++ ": " ++ e.2.repr) = entryChars := by
    funext e
    simp [entryChars, chars]
  rw [commaText_map, hentry] at hcommas
  rw [hreprs]
  exact hcommas

theorem chars_dict (entries : List (String × Value)) :
    (dict entries).chars = '\x7b' :: (commaText entryChars entries ++ ['\x7d']) := by
  rw [chars, repr, String.toList_append, String.toList_append, toList_entryReprs]
  rfl

theorem exists_head (hv : v.IsPlain) :
    ∃ c cs, v.chars = c :: cs ∧ Shape.ofHead? c = some v.shape := by
  cases hv with
  | list h => exact ⟨_, _, chars_list _, rfl⟩
  | dict h => exact ⟨_, _, chars_dict _, rfl⟩
  | atom hatom h =>
    cases v with
    | none => exact ⟨'N', _, rfl, rfl⟩
    | bool b => cases b <;> exact ⟨_, _, rfl, rfl⟩
    | int n =>
      obtain ⟨c, cs, hn, hc⟩ := head?_intChars n.toInt
      exact ⟨c, cs, hn, if_pos hc⟩
    | str s =>
      have hchars : (str s).chars = literalChars s.toList := String.toList_ofList
      exact ⟨'"', _, hchars, rfl⟩
    | date d =>
      have hchars : (date d).chars = '@' :: '(' :: (d.isoText.toList ++ [')']) := by
        simp [chars, repr, Date.repr]
      exact ⟨'@', _, hchars, rfl⟩
    | duration d => exact ⟨'t', _, d.toList_repr, rfl⟩
    | months m => exact ⟨'m', _, m.toList_repr, rfl⟩
    | color c => exact ⟨'#', _, c.toList_repr, rfl⟩
    | _ => exact h.elim

theorem shape_eq_of_chars (hv : v.IsPlain) (hw : w.IsPlain) {r r' : List Char}
    (h : v.chars ++ r = w.chars ++ r') : v.shape = w.shape := by
  obtain ⟨c, cs, hc, hshape⟩ := exists_head hv
  obtain ⟨d, ds, hd, hshape'⟩ := exists_head hw
  rw [hc, hd] at h
  rw [List.head_eq_of_cons_eq h, hshape'] at hshape
  exact (Option.some.inj hshape).symm

/-- No text begins with a character that closes a list or a dict. -/
theorem head?_chars_append_ne (hv : v.IsPlain) {close : Char}
    (hclose : Shape.ofHead? close = Option.none) (r : List Char) :
    (v.chars ++ r).head? ≠ some close := by
  obtain ⟨c, cs, hc, hshape⟩ := exists_head hv
  rw [hc, List.cons_append, List.head?_cons]
  intro h
  rw [Option.some.inj h, hclose] at hshape
  cases hshape

/-! ## Values are told apart -/

theorem toldApart_constant (hv : v.IsConstant) :
    ToldApart chars IsPlain (Leaves isWordChar) Eq v := by
  intro w hw r r' hr hr' heq
  have hatom : v.IsAtom := by
    cases v <;> trivial
  -- the first character gives away the kind of a value
  have hshape := shape_eq_of_chars (.atom hatom hv) hw heq
  cases v with
  | none =>
    obtain rfl : w = none := by
      cases w <;> first | rfl | cases hshape
    exact ⟨rfl, List.append_cancel_left heq⟩
  | bool b =>
    obtain ⟨b', rfl⟩ : ∃ b', w = bool b' := by
      cases w <;> first | exact ⟨_, rfl⟩ | cases hshape
    obtain rfl : b = b' := by
      cases b <;> cases b' <;> first | rfl | exact absurd (List.head_eq_of_cons_eq heq) (by decide)
    exact ⟨rfl, List.append_cancel_left heq⟩
  | int n =>
    obtain ⟨n', rfl⟩ : ∃ n', w = int n' := by
      cases w <;> first | exact ⟨_, rfl⟩ | cases hshape
    obtain ⟨hn, hrest⟩ := toldApart_intChars n.toInt trivial hr hr' heq
    exact ⟨congrArg int (Int64.toInt_inj.1 hn), hrest⟩
  | str s =>
    obtain ⟨s', rfl⟩ : ∃ s', w = str s' := by
      cases w <;> first | exact ⟨_, rfl⟩ | cases hshape
    obtain ⟨hs, hrest⟩ := toldApart_literal s trivial trivial trivial heq
    exact ⟨congrArg str hs, hrest⟩
  | date d =>
    obtain ⟨d', rfl⟩ : ∃ d', w = date d' := by
      cases w <;> first | exact ⟨_, rfl⟩ | cases hshape
    obtain ⟨hd, hrest⟩ := d.toldApart_repr trivial trivial trivial heq
    exact ⟨congrArg date hd, hrest⟩
  | duration d =>
    obtain ⟨d', rfl⟩ : ∃ d', w = duration d' := by
      cases w <;> first | exact ⟨_, rfl⟩ | cases hshape
    obtain ⟨hd, hrest⟩ := d.toldApart_repr trivial trivial trivial heq
    exact ⟨congrArg duration hd, hrest⟩
  | months m =>
    obtain ⟨m', rfl⟩ : ∃ m', w = months m' := by
      cases w <;> first | exact ⟨_, rfl⟩ | cases hshape
    obtain ⟨hm, hrest⟩ := m.toldApart_repr trivial trivial trivial heq
    exact ⟨congrArg months hm, hrest⟩
  | color c =>
    obtain ⟨c', rfl⟩ : ∃ c', w = color c' := by
      cases w <;> first | exact ⟨_, rfl⟩ | cases hshape
    obtain ⟨hc, hrest⟩ :=
      c.toldApart_repr trivial (leaves_isNameChar hr) (leaves_isNameChar hr') heq
    exact ⟨congrArg color hc, hrest⟩
  | _ => exact hv.elim

/-- A key and a colon come before the value of an entry. -/
theorem toldApart_entryChars {e : String × Value}
    (h : ToldApart chars IsPlain (Leaves isWordChar) Eq e.2) :
    ToldApart entryChars (fun e => e.2.IsPlain) (Leaves isWordChar) Eq e := by
  intro e' he' r r' hr hr' heq
  simp only [entryChars, List.append_assoc] at heq
  obtain ⟨hkey, hrest⟩ := toldApart_literal e.1 trivial trivial trivial heq
  have hvalues := List.tail_eq_of_cons_eq (List.tail_eq_of_cons_eq hrest)
  obtain ⟨hvalue, hr⟩ := h he' hr hr' hvalues
  exact ⟨Prod.ext hkey hvalue, hr⟩

theorem leaves_isWordChar_cons {close c : Char} (hclose : isWordChar close = false)
    (hc : c = ',' ∨ c = close) (r : List Char) : Leaves isWordChar (c :: r) := by
  rcases hc with rfl | rfl
  · exact .cons rfl r
  · exact .cons hclose r

/-- **Values are told apart by the text that names them.** -/
theorem toldApart_chars (hv : v.IsPlain) : ToldApart chars IsPlain (Leaves isWordChar) Eq v := by
  unfold IsPlain at hv
  induction hv with
  | atom _ h => exact toldApart_constant h
  | @list items hitems ih =>
    intro w hw r r' hr hr' heq
    have hshape := shape_eq_of_chars (.list hitems) hw heq
    obtain ⟨items', rfl⟩ : ∃ items', w = list items' := by
      cases w <;> first | exact ⟨_, rfl⟩ | cases hshape
    have hcommas : ToldApart (fun items => commaText chars items ++ [']'])
        (fun items => ∀ x ∈ items, x.IsPlain) (fun _ => True) (List.Forall₂ Eq) items :=
      toldApart_commas (by decide) (fun x hx => ⟨hitems x hx, ih x hx⟩)
        (fun x hx r => head?_chars_append_ne hx rfl r)
        (fun c hc r => leaves_isWordChar_cons rfl hc r)
    simp only [chars_list, List.cons_append] at heq
    obtain ⟨hsame, hrest⟩ := hcommas hw.of_list trivial trivial (List.tail_eq_of_cons_eq heq)
    exact ⟨congrArg list (List.forall₂_eq_eq_eq ▸ hsame), hrest⟩
  | @dict entries hentries ih =>
    intro w hw r r' hr hr' heq
    have hshape := shape_eq_of_chars (.dict hentries) hw heq
    obtain ⟨entries', rfl⟩ : ∃ entries', w = dict entries' := by
      cases w <;> first | exact ⟨_, rfl⟩ | cases hshape
    have hcommas : ToldApart (fun entries => commaText entryChars entries ++ ['\x7d'])
        (fun entries => ∀ e ∈ entries, e.2.IsPlain) (fun _ => True) (List.Forall₂ Eq) entries := by
      refine toldApart_commas (by decide)
        (fun e he => ⟨hentries e he, toldApart_entryChars (ih e he)⟩) (fun e _ r => ?_)
        (fun c hc r => leaves_isWordChar_cons rfl hc r)
      rw [entryChars, literal, String.toList_ofList]
      intro h
      cases h
    simp only [chars_dict, List.cons_append] at heq
    obtain ⟨hsame, hrest⟩ := hcommas hw.of_dict trivial trivial (List.tail_eq_of_cons_eq heq)
    exact ⟨congrArg dict (List.forall₂_eq_eq_eq ▸ hsame), hrest⟩

theorem repr_injective (hv : v.IsPlain) (hw : w.IsPlain) (h : v.repr = w.repr) : v = w := by
  have hend : Leaves isWordChar [] := fun _ hc => nomatch hc
  have hchars : v.chars ++ [] = w.chars ++ [] := by rw [chars, chars, h]
  exact (toldApart_chars hv hw hend hend hchars).1

end Value

end Templating
