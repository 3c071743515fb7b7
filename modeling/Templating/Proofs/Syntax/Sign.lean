import Templating.Proofs.Syntax.Arranged

/-!
# How expressions begin and end

* `Stops`, `FollowsOperand`: the texts that may follow an expression, and those that may follow an
  operand.
* `IsOpening`: the characters that expressions begin with.
* `signOf`, `signOf_text`: **the first characters tell what kind of operand comes next.**
-/

namespace Templating

open Text

/-! ## What follows -/

/-- The words that may follow an expression after a blank. -/
def stopWords : List (List Char) :=
  [" for ".toList, " if ".toList, " : ".toList, " ]".toList, " )".toList, " \x7d".toList]

/-- The texts that may follow an expression. -/
def Stops (r : List Char) : Prop :=
  (∀ c ∈ r.head?, c ∈ [')', ']', '}', ',', ':', '=']) ∨ ∃ w ∈ stopWords, w <+: r

/-- The texts that may follow an operand, at their first characters. -/
def FollowsOperand (r : List Char) : Prop :=
  ∀ c ∈ r.head?, c ∈ [' ', '.', '[', ')', ']', '}', ',', ':', '=']

variable {n n' : Node} {p q : Segment} {ps : List Segment} {r s t w : List Char} {c : Char}
  {b : Bool}

theorem stops_nil : Stops [] := .inl nofun

theorem stops_cons (h : c ∈ [')', ']', '}', ',', ':', '=']) (r : List Char) : Stops (c :: r) :=
  .inl fun _ hd => Option.mem_some.1 hd ▸ h

theorem stops_word (h : w ∈ stopWords) (r : List Char) : Stops (w ++ r) :=
  .inr ⟨w, h, List.prefix_append w r⟩

theorem head?_of_mem_stopWords (h : w ∈ stopWords) (r : List Char) : (w ++ r).head? = some ' ' := by
  simp only [stopWords, List.mem_cons, List.not_mem_nil, or_false] at h
  rcases h with rfl | rfl | rfl | rfl | rfl | rfl <;> rfl

theorem Stops.follows (h : Stops r) : FollowsOperand r := by
  intro c hc
  rcases h with h | ⟨w, hw, s, rfl⟩
  · have hmem := h c hc
    simp only [List.mem_cons, List.not_mem_nil, or_false] at hmem ⊢
    tauto
  · rw [head?_of_mem_stopWords hw] at hc
    cases hc
    exact List.mem_cons_self

theorem FollowsOperand.leaves (h : FollowsOperand r) : Leaves isNameChar r := by
  intro c hc
  have hall : ∀ c ∈ [' ', '.', '[', ')', ']', '}', ',', ':', '='], isNameChar c = false := by
    simp [isNameChar]
  exact hall c (h c hc)

theorem FollowsOperand.head?_ne (h : FollowsOperand r) : r.head? ≠ some '(' :=
  fun hopen => absurd (h _ hopen) (by decide)

/-- After an operand come a segment that goes on, or the end. -/
theorem follows_of_arranged (h : Arranged false ps) (hr : Stops r) :
    FollowsOperand (ps.flatMap Segment.text ++ r) := by
  cases h with
  | done => exact hr.follows
  | between op => exact fun c hc => Option.mem_some.1 hc ▸ List.mem_cons_self
  | @suffix p ps hp =>
    intro c hc
    cases p with
    | attr | item | slice | call | keywordCall =>
      cases hc
      decide
    | _ => exact hp.elim

/-! ## Texts of expressions -/

/-- A condition of a comprehension as text. -/
def conditionChars : Option Node → List Char
  | none => []
  | some n => " if ".toList ++ n.chars

section

variable (id : Nat) (location : Location)

theorem Node.chars_noneConst :
    Node.chars ⟨id, location, .noneConst⟩ = ['N', 'o', 'n', 'e'] := by
  simp [Node.chars, Node.format, NodeKind.format]

theorem Node.chars_trueConst :
    Node.chars ⟨id, location, .trueConst⟩ = ['T', 'r', 'u', 'e'] := by
  simp [Node.chars, Node.format, NodeKind.format]

theorem Node.chars_falseConst :
    Node.chars ⟨id, location, .falseConst⟩ = ['F', 'a', 'l', 's', 'e'] := by
  simp [Node.chars, Node.format, NodeKind.format]

theorem Node.chars_list (items : List Node) :
    Node.chars ⟨id, location, .list items⟩ = '[' :: (commaText Node.chars items ++ [']']) := by
  simp [Node.chars, Node.format, NodeKind.format, toList_formats]

theorem Node.chars_listComp (item : Node) (comp : Comprehension) :
    Node.chars ⟨id, location, .listComp item comp⟩ =
      '[' :: ' ' :: (item.chars ++ (' ' :: (comp.chars ++ [' ', ']']))) := by
  simp [Node.chars, Node.format, NodeKind.format, Comprehension.chars]

theorem Node.chars_dict (entries : List DictEntry) :
    Node.chars ⟨id, location, .dict entries⟩ =
      '{' :: (commaText DictEntry.chars entries ++ ['}']) := by
  simp [Node.chars, Node.format, NodeKind.format, toList_formats_entries]

theorem Node.chars_dictComp (key value : Node) (comp : Comprehension) :
    Node.chars ⟨id, location, .dictComp key value comp⟩ =
      '{' :: ' ' :: (key.chars ++ (" : ".toList ++
        (value.chars ++ (' ' :: (comp.chars ++ [' ', '}']))))) := by
  simp [Node.chars, Node.format, NodeKind.format, Comprehension.chars]

theorem Node.chars_genExpr (item : Node) (comp : Comprehension) :
    Node.chars ⟨id, location, .genExpr item comp⟩ =
      '(' :: ' ' :: (item.chars ++ (' ' :: (comp.chars ++ [' ', ')']))) := by
  simp [Node.chars, Node.format, NodeKind.format, Comprehension.chars]

theorem Node.chars_callFunc (name : String) (args : List Node) :
    Node.chars ⟨id, location, .callFunc name args⟩ =
      name.toList ++ ('(' :: (commaText Node.chars args ++ [')'])) := by
  simp [Node.chars, Node.format, NodeKind.format, toList_formats]

end

theorem Comprehension.chars_eq (comp : Comprehension) :
    comp.chars = "for ".toList ++ (comp.target.text.toList ++ (" in ".toList ++
      (comp.container.chars ++ conditionChars comp.condition))) := by
  obtain ⟨target, container, condition⟩ := comp
  cases condition <;>
    simp [Comprehension.chars, Comprehension.format, Node.formatCondition, conditionChars,
      Node.chars]

theorem DictEntry.chars_pair (key value : Node) :
    (DictEntry.pair key value).chars = key.chars ++ (':' :: ' ' :: value.chars) := by
  simp [DictEntry.chars, DictEntry.format, Node.chars]

theorem DictEntry.chars_splat (mapping : Node) :
    (DictEntry.splat mapping).chars = '*' :: '*' :: mapping.chars := by
  simp [DictEntry.chars, DictEntry.format, Node.chars]

theorem KeywordArg.chars_named (name : String) (value : Node) :
    (KeywordArg.named name value).chars = name.toList ++ ('=' :: value.chars) := by
  simp [KeywordArg.chars, KeywordArg.format, Node.chars]

theorem KeywordArg.chars_splat (mapping : Node) :
    (KeywordArg.splat mapping).chars = '*' :: '*' :: mapping.chars := by
  simp [KeywordArg.chars, KeywordArg.format, Node.chars]

/-! ## Openings -/

/-- The characters that are no part of names and occur at the edges of expressions. -/
def punctuation : List Char :=
  ['-', '"', '@', '#', '[', '{', '(', ' ', '.', ')', ']', '}', ',', ':', '=', '*']

theorem isNameChar_punctuation : ∀ c ∈ punctuation, isNameChar c = false := by
  simp [punctuation, isNameChar]

/-- The characters that expressions begin with. -/
def IsOpening (c : Char) : Prop := isNameChar c ∨ c ∈ ['-', '"', '@', '#', '[', '{', '(']

/-- The text begins with an expression. -/
def Opens (s : List Char) : Prop := ∃ c t, s = c :: t ∧ IsOpening c

theorem Opens.append (h : Opens s) (r : List Char) : Opens (s ++ r) := by
  obtain ⟨c, t, rfl, hc⟩ := h
  exact ⟨c, t ++ r, rfl, hc⟩

theorem Opens.head?_ne (h : Opens s) (hc : c ∈ [' ', '.', ')', ']', '}', ',', ':', '=', '*']) :
    s.head? ≠ some c := by
  obtain ⟨d, t, rfl, hd⟩ := h
  rintro ⟨⟩
  rcases hd with hd | hd
  · have hmem : c ∈ punctuation := by
      simp only [punctuation, List.mem_cons, List.not_mem_nil, or_false] at hc ⊢
      tauto
    rw [isNameChar_punctuation c hmem] at hd
    cases hd
  · have hdisjoint : ∀ c ∈ [' ', '.', ')', ']', '}', ',', ':', '=', '*'],
        c ∉ ['-', '"', '@', '#', '[', '{', '('] := by simp
    exact hdisjoint c hc hd

theorem Opens.append_ne (h : Opens s) (hc : c ∈ [' ', '.', ')', ']', '}', ',', ':', '=', '*']) :
    s ++ r ≠ c :: t := fun heq =>
  (h.append r).head?_ne hc (congrArg List.head? heq)

theorem Text.IsName.exists_cons {x : String} (h : IsName x) :
    ∃ c t, x.toList = c :: t ∧ isNameChar c := by
  obtain ⟨⟨c, hc, -⟩, hall, -⟩ := h
  cases hx : x.toList with
  | nil =>
    rw [hx] at hc
    cases hc
  | cons d t => exact ⟨d, t, rfl, hall d (by simp [hx])⟩

/-- Names are told apart. -/
theorem Text.IsName.toldApart {x : String} (h : IsName x) :
    ToldApart String.toList IsName (Leaves isNameChar) Eq x := by
  intro x' h' r r' hr hr' heq
  obtain ⟨hname, hrest⟩ := toldApart_run h.2.1 h'.2.1 hr hr' heq
  exact ⟨String.toList_injective hname, hrest⟩

theorem Text.IsName.opens {x : String} (h : IsName x) : Opens x.toList := by
  obtain ⟨c, t, hx, hc⟩ := h.exists_cons
  exact ⟨c, t, hx, .inl hc⟩

theorem Literal.toList_repr_str (s : String) :
    (str s).repr.toList = '"' :: (s.toList.flatMap literalChar ++ ['"']) := by
  simp [repr, literal, literalChars]

theorem Literal.toList_repr_date (d : Date) :
    (date d).repr.toList = '@' :: '(' :: (d.isoText.toList ++ [')']) := by
  simp [repr, Date.repr]

theorem Literal.IsLegible.opens {v : Literal} (h : v.IsLegible) : Opens v.repr.toList := by
  cases v with
  | int n =>
    rw [Literal.toList_repr_int h]
    cases hdigits : Nat.toDigits 10 n.toInt.toNat with
    | nil => exact absurd hdigits Nat.toDigits_ne_nil
    | cons d t =>
      have hd : d.isDigit := Decimal.isDigit_of_mem_toDigits (hdigits ▸ List.mem_cons_self)
      exact ⟨d, t, rfl, .inl (isNameChar_of_isDigit hd)⟩
  | str s => exact ⟨'"', _, toList_repr_str s, .inr (by simp)⟩
  | date d => exact ⟨'@', _, toList_repr_date d, .inr (by simp)⟩
  | color c => exact ⟨'#', _, c.toList_repr, .inr (by simp)⟩
  | _ => exact h.elim

theorem Node.opens_atom (hatom : n.kind.IsAtom) (hlegible : n.kind.IsLegible) : Opens n.chars := by
  obtain ⟨id, location, kind⟩ := n
  cases kind with
  | noneConst => exact ⟨'N', _, Node.chars_noneConst .., .inl (by decide)⟩
  | trueConst => exact ⟨'T', _, Node.chars_trueConst .., .inl (by decide)⟩
  | falseConst => exact ⟨'F', _, Node.chars_falseConst .., .inl (by decide)⟩
  | const v => exact Literal.IsLegible.opens hlegible
  | var x => exact hlegible.opens
  | list items => exact ⟨'[', _, Node.chars_list .., .inr (by simp)⟩
  | listComp item comp => exact ⟨'[', _, Node.chars_listComp .., .inr (by simp)⟩
  | dict entries => exact ⟨'{', _, Node.chars_dict .., .inr (by simp)⟩
  | dictComp key value comp => exact ⟨'{', _, Node.chars_dictComp .., .inr (by simp)⟩
  | genExpr item comp => exact ⟨'(', _, Node.chars_genExpr .., .inr (by simp)⟩
  | callFunc name args =>
    rw [Node.chars_callFunc]
    exact hlegible.opens.append _
  | unary | binary | getAttr | getSlice | callMeth | callMethKeywords => exact hatom.elim
  | _ => exact hlegible.elim

theorem opens_of_arranged (h : Arranged true ps) (hps : ∀ p ∈ ps, p.IsPlain) :
    Opens (ps.flatMap Segment.text) := by
  cases h with
  | lead op =>
    refine Opens.append ?_ _
    cases op with
    | neg => exact ⟨'-', _, rfl, .inr (by simp)⟩
    | not => exact ⟨'n', _, rfl, .inl (by decide)⟩
  | @operand p ps hp =>
    refine Opens.append ?_ _
    cases p with
    | atom n => exact Node.opens_atom (hps _ List.mem_cons_self).1 (hps _ List.mem_cons_self).2
    | group n => exact ⟨'(', _, rfl, .inr (by simp)⟩
    | _ => exact hp.elim

theorem Node.IsLegible.opens (h : n.IsLegible) : Opens n.chars := by
  rw [h.chars_eq]
  exact opens_of_arranged h.arranged h.isPlain

/-! ## Signs -/

/-- The kinds of what may stand where an operand is to come. -/
inductive Sign where
  | minus | negation | none | true | false | number | text | date | color | list | listComp | dict
  | dictComp | genExpr | group | var | call
deriving DecidableEq

/-- What a word begins, given the character after it. -/
def signOfWord (w : List Char) (next : Option Char) : Sign :=
  if w = ['n', 'o', 't'] then .negation
  else if w = ['N', 'o', 'n', 'e'] then .none
  else if w = ['T', 'r', 'u', 'e'] then .true
  else if w = ['F', 'a', 'l', 's', 'e'] then .false
  else if w.head?.any Char.isDigit then .number
  else if next = some '(' then .call
  else .var

/-- What begins with a text. -/
def signOf : List Char → Sign
  | '-' :: _ => .minus
  | '"' :: _ => .text
  | '@' :: _ => .date
  | '#' :: _ => .color
  | '[' :: ' ' :: _ => .listComp
  | '[' :: _ => .list
  | '{' :: ' ' :: _ => .dictComp
  | '{' :: _ => .dict
  | '(' :: ' ' :: _ => .genExpr
  | '(' :: _ => .group
  | s => signOfWord (s.takeWhile isNameChar) (s.dropWhile isNameChar).head?

/-- What a constant is. -/
def Literal.sign : Literal → Sign
  | str _ => .text
  | date _ => .date
  | color _ => .color
  | _ => .number

/-- What an expression without operators outside brackets is. -/
def NodeKind.sign : NodeKind → Sign
  | noneConst => .none
  | trueConst => .true
  | falseConst => .false
  | const value => value.sign
  | list _ => .list
  | listComp .. => .listComp
  | dict _ => .dict
  | dictComp .. => .dictComp
  | genExpr .. => .genExpr
  | callFunc .. => .call
  | _ => .var

/-- What a segment is where an operand is to come. -/
def Segment.sign : Segment → Sign
  | lead .neg => .minus
  | lead .not => .negation
  | atom n => n.kind.sign
  | _ => .group

theorem signOf_word (hne : w ≠ []) (hw : ∀ c ∈ w, isNameChar c) (hr : Leaves isNameChar r) :
    signOf (w ++ r) = signOfWord w r.head? := by
  have htake := takeWhile_append_of_leaves hw hr
  have hdrop : (w ++ r).dropWhile isNameChar = r := by
    rw [List.dropWhile_append_of_pos hw]
    cases r with
    | nil => rfl
    | cons c r => exact List.dropWhile_cons_of_neg (by simp [hr c rfl])
  cases w with
  | nil => exact absurd rfl hne
  | cons c w =>
    have hc : c ∉ punctuation := fun h =>
      absurd (hw c List.mem_cons_self) (by simp [isNameChar_punctuation c h])
    simp only [punctuation, List.mem_cons, not_or] at hc
    rw [List.cons_append] at htake hdrop ⊢
    -- a character of a word is no punctuation, so only the last branch is left
    unfold signOf
    split
    case h_11 => rw [htake, hdrop]
    all_goals simp_all

theorem signOfWord_number (h : w.head?.any Char.isDigit) (next : Option Char) :
    signOfWord w next = .number := by
  unfold signOfWord
  split_ifs <;> first
    | rfl
    | subst w; cases h

theorem signOfWord_name {x : String} (h : IsName x) (next : Option Char) :
    signOfWord x.toList next = if next = some '(' then .call else .var := by
  obtain ⟨⟨c, hc, hstart⟩, -, hreserved⟩ := h
  have hne {w : List Char} (hw : String.ofList w ∈ reserved) : x.toList ≠ w := fun heq =>
    hreserved (by rwa [← heq, String.ofList_toList] at hw)
  have hdigit : x.toList.head?.any Char.isDigit = false := by
    rw [hc]
    simp only [isNameStart, Bool.and_eq_true, Bool.not_eq_true'] at hstart
    exact hstart.2
  unfold signOfWord
  rw [if_neg (hne (by decide)), if_neg (hne (by decide)), if_neg (hne (by decide)),
    if_neg (hne (by decide)), hdigit]
  rfl

theorem Literal.signOf_repr {v : Literal} (h : v.IsLegible) (hr : Leaves isNameChar r) :
    signOf (v.repr.toList ++ r) = v.sign := by
  cases v with
  | int n =>
    have hdigit : ∀ c ∈ Nat.toDigits 10 n.toInt.toNat, c.isDigit := fun c hc =>
      Decimal.isDigit_of_mem_toDigits hc
    rw [Literal.toList_repr_int h, signOf_word Nat.toDigits_ne_nil
      (fun c hc => isNameChar_of_isDigit (hdigit c hc)) hr]
    apply signOfWord_number
    rw [List.head?_eq_some_head Nat.toDigits_ne_nil]
    exact hdigit _ (List.head_mem _)
  | str s =>
    rw [toList_repr_str]
    rfl
  | date d =>
    rw [toList_repr_date]
    rfl
  | color c =>
    rw [show (color c).repr.toList = _ from c.toList_repr]
    rfl
  | _ => exact h.elim

theorem Text.IsName.signOf {x : String} (h : IsName x) (hr : Leaves isNameChar r) :
    signOf (x.toList ++ r) = if r.head? = some '(' then .call else .var := by
  obtain ⟨c, t, hx, -⟩ := h.exists_cons
  rw [signOf_word (by simp [hx]) h.2.1 hr, signOfWord_name h]

/-- A bracket with something right behind it. -/
theorem signOf_bracket (h : s.head? ≠ some ' ') :
    signOf ('[' :: s) = .list ∧ signOf ('{' :: s) = .dict ∧ signOf ('(' :: s) = .group := by
  cases s with
  | nil => exact ⟨rfl, rfl, rfl⟩
  | cons c s =>
    have hc : c ≠ ' ' := fun hc => h (congrArg some hc)
    refine ⟨?_, ?_, ?_⟩ <;>
    · unfold signOf
      split <;> simp_all

/-- Things with commas between begin as the first one does. -/
theorem head?_commaText {α : Type} {text : α → List Char} {as : List α} {close : Char}
    (has : ∀ a ∈ as, ∀ r, (text a ++ r).head? ≠ some c) (hclose : close ≠ c) :
    (commaText text as ++ [close] ++ r).head? ≠ some c := by
  cases as with
  | nil => exact fun h => hclose (Option.some.inj h)
  | cons a as =>
    rw [commaText, List.append_assoc, List.append_assoc]
    exact has a List.mem_cons_self _

theorem DictEntry.head?_chars {e : DictEntry} (h : ∀ n ∈ e.children, n.IsLegible)
    (hc : c ∈ [' ', '}']) (r : List Char) : (e.chars ++ r).head? ≠ some c := by
  have hedge : c ∈ [' ', '.', ')', ']', '}', ',', ':', '=', '*'] ∧ c ≠ '*' := by
    rcases List.mem_pair.1 hc with rfl | rfl <;> simp
  cases e with
  | pair key value =>
    rw [DictEntry.chars_pair, List.append_assoc]
    exact ((h key List.mem_cons_self).opens.append _).head?_ne hedge.1
  | splat mapping =>
    rw [DictEntry.chars_splat]
    exact fun h => hedge.2 (Option.some.inj h).symm

/-- The first characters of an expression without operators outside brackets tell what it is. -/
theorem Node.signOf_atom (hatom : n.kind.IsAtom) (hn : n.kind.IsLegible)
    (hchildren : ∀ c ∈ n.children, c.IsLegible) (hr : FollowsOperand r) :
    signOf (n.chars ++ r) = n.kind.sign := by
  obtain ⟨id, location, kind⟩ := n
  have hblank {c : Node} (hc : c.IsLegible) (r : List Char) : (c.chars ++ r).head? ≠ some ' ' :=
    (hc.opens.append r).head?_ne List.mem_cons_self
  cases kind with
  | noneConst =>
    rw [Node.chars_noneConst, signOf_word (by simp) (by simp [isNameChar]) hr.leaves]
    rfl
  | trueConst =>
    rw [Node.chars_trueConst, signOf_word (by simp) (by simp [isNameChar]) hr.leaves]
    rfl
  | falseConst =>
    rw [Node.chars_falseConst, signOf_word (by simp) (by simp [isNameChar]) hr.leaves]
    rfl
  | const v => exact Literal.signOf_repr hn hr.leaves
  | var x =>
    change signOf (x.toList ++ r) = _
    rw [hn.signOf hr.leaves, if_neg hr.head?_ne]
    rfl
  | list items =>
    rw [Node.chars_list]
    exact (signOf_bracket (head?_commaText (fun a ha => hblank (hchildren a ha)) (by decide))).1
  | dict entries =>
    rw [Node.chars_dict]
    refine (signOf_bracket (head?_commaText (fun e he => ?_) (by decide))).2.1
    exact DictEntry.head?_chars (fun c hc => hchildren c (List.mem_flatMap.2 ⟨e, he, hc⟩)) (by simp)
  | listComp item comp =>
    rw [Node.chars_listComp]
    rfl
  | dictComp key value comp =>
    rw [Node.chars_dictComp]
    rfl
  | genExpr item comp =>
    rw [Node.chars_genExpr]
    rfl
  | callFunc name args =>
    rw [Node.chars_callFunc, List.append_assoc]
    exact (hn.signOf (.cons rfl _)).trans (if_pos rfl)
  | unary | binary | getAttr | getSlice | callMeth | callMethKeywords => exact hatom.elim
  | _ => exact hn.elim

/-- **The first characters tell what kind of operand comes next.** -/
theorem Segment.signOf_operand (hp : p.IsOperand) (hlegible : p.IsLegible) (hr : FollowsOperand r) :
    signOf (p.text ++ r) = p.sign := by
  obtain ⟨hplain, hinner⟩ := hlegible
  cases p with
  | atom n => exact Node.signOf_atom hplain.1 hplain.2 hinner hr
  | group n =>
    have hn := hinner n List.mem_cons_self
    rw [Segment.text, List.cons_append, List.append_assoc]
    exact (signOf_bracket ((hn.opens.append _).head?_ne List.mem_cons_self)).2.2
  | _ => exact hp.elim

theorem signOf_lead (op : UnaryOp) (r : List Char) :
    signOf ((Segment.lead op).text ++ r) = (Segment.lead op).sign := by
  cases op with
  | neg => rfl
  | not =>
    exact signOf_word (w := ['n', 'o', 't']) (r := ' ' :: r) (by simp) (by simp [isNameChar])
      (.cons rfl r)

end Templating
