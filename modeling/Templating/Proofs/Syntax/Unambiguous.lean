import Templating.Proofs.Syntax.Display
import Templating.Proofs.Syntax.Regroup

/-!
# The text of an expression is unambiguous

* `toldApart_lead`, `toldApart_between`, `Segment.toldApart_operand`, `Segment.toldApart_suffix`:
  each segment is known from its text if the expressions in it are.
* `Arranged.toldApart`: so are the segments of an expression, one after another.
* `alike_of_format_eq`: **expressions with the same text are alike.**
-/

namespace Templating

open Text

variable {n n' : Node} {p p' q : Segment} {ps ps' : List Segment} {r r' s t : List Char} {c : Char}
  {b : Bool}

/-! ## Operators between operands -/

/-- The text of no operator between operands begins with that of another one. -/
theorem BinaryOp.eq_of_isPrefix {op op' : BinaryOp}
    (h : (Segment.between op).text <+: (Segment.between op').text) : op = op' := by
  have hall : ∀ op ∈ all, ∀ op' ∈ all,
      (Segment.between op).text <+: (Segment.between op').text → op = op' := by decide
  exact hall op op.mem_all op' op'.mem_all h

theorem toldApart_between {op op' : BinaryOp}
    (heq : (Segment.between op).text ++ r = (Segment.between op').text ++ r') :
    op = op' ∧ r = r' := by
  have hop : op = op' := by
    rcases List.prefix_or_prefix_of_prefix (List.prefix_append _ r)
      (heq ▸ List.prefix_append _ r') with h | h
    · exact BinaryOp.eq_of_isPrefix h
    · exact (BinaryOp.eq_of_isPrefix h).symm
  subst hop
  exact ⟨rfl, List.append_cancel_left heq⟩

/-- What goes on with an operator does not stop. -/
theorem not_stops_between (op : BinaryOp) (r : List Char) :
    ¬ Stops ((Segment.between op).text ++ r) := by
  have hall : ∀ op ∈ BinaryOp.all, ∀ w ∈ stopWords,
      ¬ w <+: (Segment.between op).text ∧ ¬ (Segment.between op).text <+: w := by decide
  rintro (h | ⟨w, hw, h⟩)
  · exact absurd (h ' ' rfl) (by simp)
  · obtain ⟨hword, hop⟩ := hall op op.mem_all w hw
    rcases List.prefix_or_prefix_of_prefix h (List.prefix_append _ r) with h | h
    · exact hword h
    · exact hop h

/-! ## Segments behind operands -/

theorem Segment.head?_suffix (hp : p.IsSuffix) (r : List Char) :
    (p.text ++ r).head? = some '.' ∨ (p.text ++ r).head? = some '[' := by
  cases p with
  | attr | call | keywordCall => exact .inl rfl
  | item | slice => exact .inr rfl
  | _ => exact hp.elim

/-- What goes on behind an operand does not stop. -/
theorem not_stops_suffix (hp : p.IsSuffix) (r : List Char) : ¬ Stops (p.text ++ r) := by
  have hhead := Segment.head?_suffix hp r
  rintro (h | ⟨w, hw, s, h⟩)
  · rcases hhead with hhead | hhead <;> simpa using h _ hhead
  · rw [← h, head?_of_mem_stopWords hw] at hhead
    simp at hhead

/-- The text of no expression is that of a name with an equals sign behind it. -/
theorem Node.IsLegible.ne_keyword (h : n.IsLegible) {x : String} (hx : IsName x) (hs : Stops s)
    (hequals : s.head? ≠ some '=') : n.chars ++ s ≠ x.toList ++ '=' :: t := by
  intro heq
  have hleaves : Leaves isNameChar ('=' :: t) := .cons rfl t
  have hsign : signOf (x.toList ++ '=' :: t) = .var := (hx.signOf hleaves).trans (if_neg (by simp))
  have harranged := h.arranged
  have hlegible := h.isLegible_segments
  rw [h.chars_eq] at heq
  generalize n.segments = ps at heq harranged hlegible
  cases harranged with
  | lead op =>
    rw [List.flatMap_cons, List.append_assoc] at heq
    rw [← heq, signOf_lead] at hsign
    cases op <;> cases hsign
  | @operand p ps hp hps =>
    have hfollows : FollowsOperand (ps.flatMap Segment.text ++ s) := follows_of_arranged hps hs
    obtain ⟨hp', hps'⟩ := List.forall_mem_cons.1 hlegible
    rw [List.flatMap_cons, List.append_assoc] at heq
    rw [← heq, Segment.signOf_operand hp hp' hfollows] at hsign
    cases p with
    | atom m =>
      obtain ⟨⟨hatom, hm⟩, -⟩ := hp'
      have hform := NodeKind.form_sign hatom hm
      rw [show m.kind.sign = .var from hsign] at hform
      obtain ⟨y, hkind, hy⟩ := hform
      obtain ⟨id, location, kind⟩ := m
      subst hkind
      -- after the name comes what follows the expression, and that is no equals sign
      obtain ⟨-, hrest⟩ := hy.toldApart hx hfollows.leaves hleaves heq
      cases hps with
      | done => exact hequals (congrArg List.head? hrest)
      | between op => cases hrest
      | @suffix q ps hq =>
        rw [List.flatMap_cons, List.append_assoc] at hrest
        have hhead := Segment.head?_suffix hq (ps.flatMap Segment.text ++ s)
        rw [hrest] at hhead
        simp at hhead
    | group m => cases hsign
    | _ => exact hp.elim

/-- Keyword arguments are told apart if the expressions in them are. -/
theorem KeywordArg.toldApart {a : KeywordArg} (ha : a.IsLegible) (h : a.value.Apart) :
    ToldApart KeywordArg.chars (fun a => a.IsLegible ∧ a.value.IsLegible) Stops
      (KeywordArg.Same Node.Alike) a := by
  rintro a' ⟨ha', h'⟩ r r' hr hr' heq
  match a, a' with
  | .named x value, .named x' value' =>
    simp only [KeywordArg.chars_named, List.append_assoc] at heq
    obtain ⟨rfl, hrest⟩ := Text.IsName.toldApart ha ha' (.cons rfl _) (.cons rfl _) heq
    obtain ⟨hvalue, hrest⟩ := h.2 h' hr hr' (List.tail_eq_of_cons_eq hrest)
    exact ⟨.named _ hvalue, hrest⟩
  | .named x value, .splat mapping' =>
    rw [KeywordArg.chars_named, KeywordArg.chars_splat, List.append_assoc] at heq
    exact absurd heq (Text.IsName.opens ha |>.append_ne (by simp))
  | .splat mapping, .named x' value' =>
    rw [KeywordArg.chars_named, KeywordArg.chars_splat, List.append_assoc] at heq
    exact absurd heq.symm (Text.IsName.opens ha' |>.append_ne (by simp))
  | .splat mapping, .splat mapping' =>
    simp only [KeywordArg.chars_splat] at heq
    have hsplat := List.tail_eq_of_cons_eq (List.tail_eq_of_cons_eq heq)
    obtain ⟨hmapping, hrest⟩ := h.2 h' hr hr' hsplat
    exact ⟨.splat hmapping, hrest⟩

theorem KeywordArg.chars_ne {a : KeywordArg} (h : a.IsLegible) : a.chars ++ r ≠ ')' :: s := by
  cases a with
  | named x value =>
    rw [KeywordArg.chars_named, List.append_assoc]
    exact (Text.IsName.opens h).append_ne (by simp)
  | splat mapping =>
    rw [KeywordArg.chars_splat]
    exact fun heq => nomatch heq

/-- Keyword arguments with commas between are told apart. -/
theorem toldApart_keywords {args : List KeywordArg} (hargs : ∀ a ∈ args, a.IsLegible)
    (h : ∀ a ∈ args, a.value.Apart) :
    ToldApart (fun args => commaText KeywordArg.chars args ++ [')'])
      (fun args => ∀ a ∈ args, a.IsLegible ∧ a.value.IsLegible) (fun _ => True)
      (List.Forall₂ (KeywordArg.Same Node.Alike)) args := by
  refine toldApart_commas (by decide)
    (fun a ha => ⟨⟨hargs a ha, (h a ha).1⟩, KeywordArg.toldApart (hargs a ha) (h a ha)⟩)
    (fun a ha r h => ?_) ?_
  · obtain ⟨s, hs⟩ := List.head?_eq_some_iff.1 h
    exact KeywordArg.chars_ne ha.1 hs
  · rintro d (rfl | rfl) r <;> exact stops_cons (by simp) r

/-- Arguments without keywords are told from those with keywords. -/
theorem items_ne_keywords {args : List Node} {keywords : List KeywordArg}
    (hargs : ∀ a ∈ args, a.IsLegible) (hne : keywords ≠ [])
    (hkeywords : ∀ a ∈ keywords, a.IsLegible) :
    commaText Node.chars args ++ ')' :: r ≠ commaText KeywordArg.chars keywords ++ ')' :: r' := by
  intro heq
  match args, keywords, hne with
  | [], a :: keywords, _ =>
    rw [commaText, commaText, List.append_assoc] at heq
    exact KeywordArg.chars_ne (hkeywords a List.mem_cons_self) heq.symm
  | n :: args, .splat mapping :: keywords, _ =>
    rw [commaText, commaText, List.append_assoc, KeywordArg.chars_splat] at heq
    exact (hargs n List.mem_cons_self).opens.append_ne (by simp) heq
  | n :: args, .named x value :: keywords, _ =>
    rw [commaText, commaText, List.append_assoc, List.append_assoc, KeywordArg.chars_named,
      List.append_assoc] at heq
    have hrest : Stops ((args.flatMap fun a => ',' :: ' ' :: a.chars) ++ ')' :: r) ∧
        ((args.flatMap fun a => ',' :: ' ' :: a.chars) ++ ')' :: r).head? ≠ some '=' := by
      cases args with
      | nil => exact ⟨stops_cons (by simp) _, by simp⟩
      | cons a args => exact ⟨stops_cons (by simp) _, by simp⟩
    exact (hargs n List.mem_cons_self).ne_keyword (hkeywords _ List.mem_cons_self) hrest.1 hrest.2
      heq

/-! ## Slices -/

/-- What follows a bound of a slice. -/
def FollowsBound (r : List Char) : Prop := ∃ c ∈ [':', ']'], ∃ s, r = c :: s

/-- FollowsBound of slices are told apart, and from no bound. -/
theorem toldApart_bound {bound : Option Node} (h : ∀ c ∈ bound.toList, c.Apart) :
    ToldApart Node.optionChars (fun bound => ∀ c ∈ bound.toList, c.IsLegible) FollowsBound
      (Option.Rel Node.Alike) bound := by
  have hstops {r : List Char} (hr : FollowsBound r) : Stops r := by
    obtain ⟨c, hc, s, rfl⟩ := hr
    rcases List.mem_pair.1 hc with rfl | rfl <;> exact stops_cons (by simp) s
  have hne {n : Node} (hn : n.IsLegible) {r r' : List Char} (hr : FollowsBound r) :
      n.chars ++ r' ≠ r := by
    obtain ⟨c, hc, s, rfl⟩ := hr
    rcases List.mem_pair.1 hc with rfl | rfl <;> exact hn.opens.append_ne (by simp)
  intro bound' h' r r' hr hr' heq
  match bound, bound' with
  | none, none => exact ⟨.none, heq⟩
  | none, some n' => exact absurd heq.symm (hne (h' n' List.mem_cons_self) hr)
  | some n, none => exact absurd heq (hne (h n List.mem_cons_self).1 hr')
  | some n, some n' =>
    obtain ⟨halike, hrest⟩ := (h n List.mem_cons_self).2 (h' n' List.mem_cons_self) (hstops hr)
      (hstops hr') heq
    exact ⟨.some halike, hrest⟩

/-! ## Segments -/

theorem FollowsOperand.ne_open (h : FollowsOperand r) : r ≠ '(' :: s := fun heq =>
  h.head?_ne (congrArg List.head? heq)

/-- Names behind dots are told apart. -/
theorem eq_of_dot {x x' : String} (hx : IsName x) (hx' : IsName x') (hs : Leaves isNameChar s)
    (ht : Leaves isNameChar t) (heq : '.' :: (x.toList ++ s) = '.' :: (x'.toList ++ t)) :
    x = x' ∧ s = t :=
  hx.toldApart hx' hs ht (List.tail_eq_of_cons_eq heq)

theorem Segment.toldApart_attr {x : String} (hx : IsName x) :
    ToldApart Segment.text (fun p => p.IsSuffix ∧ p.IsLegible) FollowsOperand Segment.Same
      (.attr x) := by
  rintro p ⟨hp, hplain, -⟩ r r' hr hr' heq
  cases p with
  | attr x' =>
    obtain ⟨rfl, hrest⟩ := eq_of_dot hx hplain hr.leaves hr'.leaves heq
    exact ⟨.attr _, hrest⟩
  | call x' args =>
    simp only [text, List.cons_append, List.append_assoc] at heq
    obtain ⟨-, hrest⟩ := eq_of_dot hx hplain hr.leaves (.cons rfl _) heq
    exact absurd hrest hr.ne_open
  | keywordCall x' args =>
    simp only [text, List.cons_append, List.append_assoc] at heq
    obtain ⟨-, hrest⟩ := eq_of_dot hx hplain.1 hr.leaves (.cons rfl _) heq
    exact absurd hrest hr.ne_open
  | item | slice => cases heq
  | _ => exact hp.elim

theorem Segment.toldApart_call {x : String} {args : List Node} (hx : IsName x)
    (h : ∀ n ∈ args, n.Apart) :
    ToldApart Segment.text (fun p => p.IsSuffix ∧ p.IsLegible) FollowsOperand Segment.Same
      (.call x args) := by
  rintro p ⟨hp, hplain, hinner⟩ r r' hr hr' heq
  simp only [text, List.cons_append, List.append_assoc] at heq
  cases p with
  | attr x' =>
    obtain ⟨-, hrest⟩ := eq_of_dot hx hplain (.cons rfl _) hr'.leaves heq
    exact absurd hrest.symm hr'.ne_open
  | call x' args' =>
    simp only [List.cons_append, List.append_assoc] at heq
    obtain ⟨rfl, hrest⟩ := eq_of_dot hx hplain (.cons rfl _) (.cons rfl _) heq
    have hitems : commaText Node.chars args ++ [')'] ++ r =
        commaText Node.chars args' ++ [')'] ++ r' := by simpa using hrest
    obtain ⟨hargs, hrest⟩ := toldApart_items (by simp) h hinner trivial trivial hitems
    exact ⟨.call _ hargs, hrest⟩
  | keywordCall x' args' =>
    simp only [List.cons_append, List.append_assoc] at heq
    obtain ⟨-, hrest⟩ := eq_of_dot hx hplain.1 (.cons rfl _) (.cons rfl _) heq
    exact absurd (List.tail_eq_of_cons_eq hrest)
      (items_ne_keywords (fun n hn => (h n hn).1) hplain.2.1 hplain.2.2)
  | item | slice => cases heq
  | _ => exact hp.elim

theorem Segment.toldApart_keywordCall {x : String} {args : List KeywordArg} (hx : IsName x)
    (hne : args ≠ []) (hargs : ∀ a ∈ args, a.IsLegible) (h : ∀ a ∈ args, a.value.Apart) :
    ToldApart Segment.text (fun p => p.IsSuffix ∧ p.IsLegible) FollowsOperand Segment.Same
      (.keywordCall x args) := by
  rintro p ⟨hp, hplain, hinner⟩ r r' hr hr' heq
  simp only [text, List.cons_append, List.append_assoc] at heq
  cases p with
  | attr x' =>
    obtain ⟨-, hrest⟩ := eq_of_dot hx hplain (.cons rfl _) hr'.leaves heq
    exact absurd hrest.symm hr'.ne_open
  | call x' args' =>
    simp only [List.cons_append, List.append_assoc] at heq
    obtain ⟨-, hrest⟩ := eq_of_dot hx hplain (.cons rfl _) (.cons rfl _) heq
    exact absurd (List.tail_eq_of_cons_eq hrest).symm (items_ne_keywords hinner hne hargs)
  | keywordCall x' args' =>
    simp only [List.cons_append, List.append_assoc] at heq
    obtain ⟨rfl, hrest⟩ := eq_of_dot hx hplain.1 (.cons rfl _) (.cons rfl _) heq
    have hkeywords : commaText KeywordArg.chars args ++ [')'] ++ r =
        commaText KeywordArg.chars args' ++ [')'] ++ r' := by simpa using hrest
    obtain ⟨hsame, hrest⟩ := toldApart_keywords hargs h
      (fun a ha => ⟨hplain.2.2 a ha, hinner _ (List.mem_map_of_mem ha)⟩) trivial trivial hkeywords
    exact ⟨.keywordCall _ hsame, hrest⟩
  | item | slice => cases heq
  | _ => exact hp.elim

/-- FollowsBound behind opening brackets are told apart. -/
theorem toldApart_open {start start' : Option Node} (h : ∀ n ∈ start.toList, n.Apart)
    (h' : ∀ n ∈ start'.toList, n.IsLegible) (hs : FollowsBound s) (ht : FollowsBound t)
    (heq : '[' :: (Node.optionChars start ++ s) = '[' :: (Node.optionChars start' ++ t)) :
    Option.Rel Node.Alike start start' ∧ s = t :=
  toldApart_bound h h' hs ht (List.tail_eq_of_cons_eq heq)

theorem followsBound_colon (s : List Char) : FollowsBound (':' :: s) := ⟨':', by simp, s, rfl⟩

theorem followsBound_close (s : List Char) : FollowsBound (']' :: s) := ⟨']', by simp, s, rfl⟩

theorem Segment.toldApart_item (h : n.Apart) :
    ToldApart Segment.text (fun p => p.IsSuffix ∧ p.IsLegible) FollowsOperand Segment.Same
      (.item n) := by
  rintro p ⟨hp, -, hinner⟩ r r' - - heq
  have hsome : ∀ m ∈ (some n).toList, m.Apart := List.forall_mem_singleton.2 h
  cases p with
  | attr | call | keywordCall => cases heq
  | item n' =>
    simp only [text, List.cons_append, List.append_assoc, List.nil_append] at heq
    obtain ⟨halike, hrest⟩ := @toldApart_open _ _ (some n) (some n') hsome hinner
      (followsBound_close _) (followsBound_close _) heq
    cases halike with
    | some halike => exact ⟨.item halike, List.tail_eq_of_cons_eq hrest⟩
  | slice start stop =>
    simp only [text, List.cons_append, List.append_assoc, List.nil_append] at heq
    obtain ⟨-, hrest⟩ := @toldApart_open _ _ (some n) _ hsome
      (fun m hm => hinner m (List.mem_append_left _ hm)) (followsBound_close _)
      (followsBound_colon _) heq
    cases hrest
  | _ => exact hp.elim

theorem Segment.toldApart_slice {start stop : Option Node} (hstart : ∀ n ∈ start.toList, n.Apart)
    (hstop : ∀ n ∈ stop.toList, n.Apart) :
    ToldApart Segment.text (fun p => p.IsSuffix ∧ p.IsLegible) FollowsOperand Segment.Same
      (.slice start stop) := by
  rintro p ⟨hp, -, hinner⟩ r r' - - heq
  cases p with
  | attr | call | keywordCall => cases heq
  | item n =>
    simp only [text, List.cons_append, List.append_assoc, List.nil_append] at heq
    obtain ⟨-, hrest⟩ := @toldApart_open _ _ _ (some n) hstart hinner (followsBound_colon _)
      (followsBound_close _) heq
    cases hrest
  | slice start' stop' =>
    simp only [text, List.cons_append, List.append_assoc, List.nil_append] at heq
    obtain ⟨halike, hrest⟩ := toldApart_open hstart
      (fun n hn => hinner n (List.mem_append_left _ hn)) (followsBound_colon _)
      (followsBound_colon _) heq
    obtain ⟨halike', hrest⟩ := toldApart_bound hstop
      (fun n hn => hinner n (List.mem_append_right _ hn)) (followsBound_close _)
      (followsBound_close _) (List.tail_eq_of_cons_eq hrest)
    exact ⟨.slice halike halike', List.tail_eq_of_cons_eq hrest⟩
  | _ => exact hp.elim

/-- Segments behind operands are told apart if the expressions in them are. -/
theorem Segment.toldApart_suffix (hp : p.IsSuffix) (hplain : p.IsPlain)
    (h : ∀ n ∈ p.inner, n.Apart) :
    ToldApart Segment.text (fun p => p.IsSuffix ∧ p.IsLegible) FollowsOperand Segment.Same p := by
  cases p with
  | attr x => exact Segment.toldApart_attr hplain
  | call x args => exact Segment.toldApart_call hplain h
  | keywordCall x args =>
    exact Segment.toldApart_keywordCall hplain.1 hplain.2.1 hplain.2.2
      fun a ha => h _ (List.mem_map_of_mem ha)
  | item n => exact Segment.toldApart_item (h n List.mem_cons_self)
  | slice start stop =>
    exact Segment.toldApart_slice (fun n hn => h n (List.mem_append_left _ hn))
      (fun n hn => h n (List.mem_append_right _ hn))
  | _ => exact hp.elim

/-- The sign of an atom is that of no other segment. -/
theorem NodeKind.sign_ne {k : NodeKind} (hatom : k.IsAtom) (hk : k.IsLegible) :
    k.sign ≠ .minus ∧ k.sign ≠ .negation ∧ k.sign ≠ .group := by
  have hform := NodeKind.form_sign hatom hk
  refine ⟨?_, ?_, ?_⟩ <;>
  · intro hsign
    rw [hsign] at hform
    exact hform.elim

/-- No operand begins with a prefix operator. -/
theorem lead_ne_operand (op : UnaryOp) (hp : p.IsOperand) (hlegible : p.IsLegible)
    (hr : FollowsOperand r) : (Segment.lead op).text ++ s ≠ p.text ++ r := by
  intro heq
  have hsign := congrArg signOf heq
  rw [signOf_lead, Segment.signOf_operand hp hlegible hr] at hsign
  cases p with
  | atom n =>
    obtain ⟨hminus, hnegation, -⟩ := NodeKind.sign_ne hlegible.1.1 hlegible.1.2
    cases op with
    | neg => exact hminus hsign.symm
    | not => exact hnegation hsign.symm
  | group n => cases op <;> cases hsign
  | _ => exact hp.elim

theorem toldApart_lead {op op' : UnaryOp}
    (heq : (Segment.lead op).text ++ r = (Segment.lead op').text ++ r') : op = op' ∧ r = r' := by
  have hsign := congrArg signOf heq
  rw [signOf_lead, signOf_lead] at hsign
  have hop : op = op' := by
    cases op <;> cases op' <;> first
      | rfl
      | cases hsign
  subst hop
  exact ⟨rfl, List.append_cancel_left heq⟩

/-- No segment behind an operand begins like an operator between operands. -/
theorem between_ne_suffix (op : BinaryOp) (hp : p.IsSuffix) :
    (Segment.between op).text ++ s ≠ p.text ++ r := by
  intro heq
  have hhead := Segment.head?_suffix hp r
  rw [← heq] at hhead
  exact hhead.elim nofun nofun

/-- Operands are told apart if the expressions in them are. -/
theorem Segment.toldApart_operand (hp : p.IsOperand) (hplain : p.IsPlain)
    (h : ∀ n ∈ p.inner, n.Apart) :
    ToldApart Segment.text (fun p => p.IsOperand ∧ p.IsLegible) FollowsOperand Segment.Same p := by
  rintro p' ⟨hp', hlegible'⟩ r r' hr hr' heq
  have hsign : p.sign = p'.sign := by
    rw [← Segment.signOf_operand hp ⟨hplain, fun n hn => (h n hn).1⟩ hr, heq,
      Segment.signOf_operand hp' hlegible' hr']
  match p, p' with
  | .atom n, .atom n' =>
    obtain ⟨hsame, hrest⟩ := Node.toldApart_atom hplain.1 hplain.2 h hlegible' hr hr' heq
    exact ⟨.atom hsame, hrest⟩
  | .atom n, .group n' => exact absurd hsign (NodeKind.sign_ne hplain.1 hplain.2).2.2
  | .group n, .atom n' =>
    exact absurd hsign.symm (NodeKind.sign_ne hlegible'.1.1 hlegible'.1.2).2.2
  | .group n, .group n' =>
    simp only [text, List.cons_append, List.append_assoc, List.nil_append] at heq
    obtain ⟨halike, hrest⟩ := (h n List.mem_cons_self).2 (hlegible'.2 n' List.mem_cons_self)
      (stops_cons (by simp) _) (stops_cons (by simp) _) (List.tail_eq_of_cons_eq heq)
    exact ⟨.group halike, List.tail_eq_of_cons_eq hrest⟩

/-! ## Expressions -/

/-- The segments of an expression are known from its text, if the expressions in them are. -/
theorem Arranged.toldApart (h : Arranged b ps) (hplain : ∀ p ∈ ps, p.IsPlain)
    (hinner : ∀ p ∈ ps, ∀ n ∈ p.inner, n.Apart) :
    ToldApart (List.flatMap Segment.text) (fun ps => Arranged b ps ∧ ∀ p ∈ ps, p.IsLegible) Stops
      (List.Forall₂ Segment.Same) ps := by
  rintro ps' ⟨h', hlegible'⟩ r r' hr hr' heq
  -- the induction is on the order of one side; each case looks at the first segment of the other
  induction h generalizing ps' with
  | lead op h ih =>
    obtain ⟨-, hplain⟩ := List.forall_mem_cons.1 hplain
    obtain ⟨-, hinner⟩ := List.forall_mem_cons.1 hinner
    rw [List.flatMap_cons, List.append_assoc] at heq
    cases h' with
    | lead op' h' =>
      obtain ⟨-, hps'⟩ := List.forall_mem_cons.1 hlegible'
      rw [List.flatMap_cons, List.append_assoc] at heq
      obtain ⟨rfl, hrest⟩ := toldApart_lead heq
      obtain ⟨hsame, hrest⟩ := ih hplain hinner h' hps' hrest
      exact ⟨.cons (.lead op) hsame, hrest⟩
    | operand hp' h' =>
      obtain ⟨hp'', -⟩ := List.forall_mem_cons.1 hlegible'
      rw [List.flatMap_cons, List.append_assoc] at heq
      exact absurd heq (lead_ne_operand op hp' hp'' (follows_of_arranged h' hr'))
  | operand hp h ih =>
    obtain ⟨hpplain, hplain⟩ := List.forall_mem_cons.1 hplain
    obtain ⟨hpinner, hinner⟩ := List.forall_mem_cons.1 hinner
    have hfollows := follows_of_arranged h hr
    rw [List.flatMap_cons, List.append_assoc] at heq
    cases h' with
    | lead op' h' =>
      rw [List.flatMap_cons, List.append_assoc] at heq
      exact absurd heq.symm
        (lead_ne_operand op' hp ⟨hpplain, fun n hn => (hpinner n hn).1⟩ hfollows)
    | operand hp' h' =>
      obtain ⟨hp'', hps'⟩ := List.forall_mem_cons.1 hlegible'
      rw [List.flatMap_cons, List.append_assoc] at heq
      obtain ⟨hsame, hrest⟩ := Segment.toldApart_operand hp hpplain hpinner ⟨hp', hp''⟩ hfollows
        (follows_of_arranged h' hr') heq
      obtain ⟨hsames, hrest⟩ := ih hplain hinner h' hps' hrest
      exact ⟨.cons hsame hsames, hrest⟩
  | done =>
    rw [List.flatMap_nil, List.nil_append] at heq
    cases h' with
    | done => exact ⟨.nil, heq⟩
    -- the rest stops here, so the other side cannot go on with a segment
    | between op' h' =>
      rw [List.flatMap_cons, List.append_assoc] at heq
      exact absurd (heq ▸ hr) (not_stops_between op' _)
    | suffix hp' h' =>
      rw [List.flatMap_cons, List.append_assoc] at heq
      exact absurd (heq ▸ hr) (not_stops_suffix hp' _)
  | between op h ih =>
    obtain ⟨-, hplain⟩ := List.forall_mem_cons.1 hplain
    obtain ⟨-, hinner⟩ := List.forall_mem_cons.1 hinner
    rw [List.flatMap_cons, List.append_assoc] at heq
    cases h' with
    | done =>
      rw [List.flatMap_nil, List.nil_append] at heq
      exact absurd (heq ▸ hr') (not_stops_between op _)
    | between op' h' =>
      obtain ⟨-, hps'⟩ := List.forall_mem_cons.1 hlegible'
      rw [List.flatMap_cons, List.append_assoc] at heq
      obtain ⟨rfl, hrest⟩ := toldApart_between heq
      obtain ⟨hsame, hrest⟩ := ih hplain hinner h' hps' hrest
      exact ⟨.cons (.between op) hsame, hrest⟩
    | suffix hp' h' =>
      rw [List.flatMap_cons, List.append_assoc] at heq
      exact absurd heq (between_ne_suffix op hp')
  | suffix hp h ih =>
    obtain ⟨hpplain, hplain⟩ := List.forall_mem_cons.1 hplain
    obtain ⟨hpinner, hinner⟩ := List.forall_mem_cons.1 hinner
    rw [List.flatMap_cons, List.append_assoc] at heq
    cases h' with
    | done =>
      rw [List.flatMap_nil, List.nil_append] at heq
      exact absurd (heq ▸ hr') (not_stops_suffix hp _)
    | between op' h' =>
      rw [List.flatMap_cons, List.append_assoc] at heq
      exact absurd heq.symm (between_ne_suffix op' hp)
    | suffix hp' h' =>
      obtain ⟨hp'', hps'⟩ := List.forall_mem_cons.1 hlegible'
      rw [List.flatMap_cons, List.append_assoc] at heq
      obtain ⟨hsame, hrest⟩ := Segment.toldApart_suffix hp hpplain hpinner ⟨hp', hp''⟩
        (follows_of_arranged h hr) (follows_of_arranged h' hr') heq
      obtain ⟨hsames, hrest⟩ := ih hplain hinner h' hps' hrest
      exact ⟨.cons hsame hsames, hrest⟩

/-- An expression is known from its text if the expressions in its segments are. -/
theorem Node.apart_of_inner (hn : n.IsLegible) (h : ∀ p ∈ n.segments, ∀ c ∈ p.inner, c.Apart) :
    n.Apart := by
  refine ⟨hn, fun n' hn' r r' hr hr' heq => ?_⟩
  rw [hn.chars_eq, hn'.chars_eq] at heq
  obtain ⟨hsame, hrest⟩ := hn.arranged.toldApart hn.isPlain h
    ⟨hn'.arranged, hn'.isLegible_segments⟩ hr hr' heq
  exact ⟨Node.alike_of_segments hn hn' hsame, hrest⟩

theorem Node.IsLegible.apart_inner (h : n.IsLegible) :
    ∀ p ∈ n.segments, ∀ c ∈ p.inner, c.Apart := by
  -- an expression is known once those inside its segments are, which lie below it
  induction h with
  | intro _ hchildren ih =>
    exact Node.forall_inner fun c hc => ⟨Node.apart_of_inner (hchildren c hc) (ih c hc), ih c hc⟩

/-- **Expressions with the same text are alike**: they are the same up to identities, locations and
the grouping of chains of one associative operator. -/
theorem alike_of_format_eq (hn : n.IsLegible) (hn' : n'.IsLegible) (h : n.format 0 = n'.format 0) :
    n.Alike n' := by
  have hapart := Node.apart_of_inner hn hn.apart_inner
  have hchars : n.chars ++ [] = n'.chars ++ [] := by rw [Node.chars, h, Node.chars]
  exact (hapart.2 hn' stops_nil stops_nil hchars).1

/-- A variable. -/
def Node.ofVar (id : Nat) (x : String) : Node := ⟨id, .ofText "" .empty, .var x⟩

/-- The sum of three variables, grouped to the right. -/
def Node.sumToRight : Node :=
  .joined .add (.ofVar 1 "x") (.joined .add (.ofVar 2 "y") (.ofVar 3 "z"))

/-- The sum of three variables, grouped to the left. -/
def Node.sumToLeft : Node :=
  .joined .add (.joined .add (.ofVar 4 "x") (.ofVar 5 "y")) (.ofVar 6 "z")

theorem Node.isLegible_ofVar (id : Nat) {x : String} (hx : IsName x) :
    (Node.ofVar id x).IsLegible :=
  .intro hx fun _ h => nomatch h

theorem alike_of_format_eq_sum :
    Node.sumToRight.IsLegible ∧ Node.sumToLeft.IsLegible ∧
      Node.sumToRight.format 0 = Node.sumToLeft.format 0 ∧
      Node.sumToRight.Alike Node.sumToLeft := by
  have hx : IsName "x" := ⟨⟨'x', rfl, by decide⟩, by simp [isNameChar], by decide⟩
  have hy : IsName "y" := ⟨⟨'y', rfl, by decide⟩, by simp [isNameChar], by decide⟩
  have hz : IsName "z" := ⟨⟨'z', rfl, by decide⟩, by simp [isNameChar], by decide⟩
  have hright : Node.sumToRight.IsLegible :=
    Node.isLegible_joined (Node.isLegible_ofVar 1 hx)
      (Node.isLegible_joined (Node.isLegible_ofVar 2 hy) (Node.isLegible_ofVar 3 hz))
  have hleft : Node.sumToLeft.IsLegible :=
    Node.isLegible_joined
      (Node.isLegible_joined (Node.isLegible_ofVar 4 hx) (Node.isLegible_ofVar 5 hy))
      (Node.isLegible_ofVar 6 hz)
  exact ⟨hright, hleft, rfl, alike_of_format_eq hright hleft rfl⟩

end Templating
