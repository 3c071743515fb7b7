import Templating.Proofs.Syntax.Sign

/-!
# Expressions without operators outside brackets are told apart

* `Node.Apart`: a legible expression that is known, up to likeness, from its text before any rest
  that may follow an expression.
* `Target.toldApart`: targets are told apart.
* `toldApart_generator`, `toldApart_items`, `toldApart_entries`: the contents of comprehensions and
  displays are told apart up to the closing bracket, if the expressions in them are.
* `Node.toldApart_atom`: **names, constants, displays, comprehensions and calls of functions are
  told apart** if the expressions in them are.
-/

namespace Templating

open Text

variable {n n' : Node} {r r' s t : List Char} {c : Char}

/-- A legible expression that is known, up to likeness, from its text. -/
def Node.Apart (n : Node) : Prop :=
  n.IsLegible ∧ ToldApart Node.chars Node.IsLegible Stops Node.Alike n

/-! ## Targets -/

/-- A target as text, on characters. -/
def Target.chars (t : Target) : List Char := t.text.toList

theorem Target.texts_eq (items : List Target) : Target.texts items = items.map Target.text := by
  induction items with
  | nil => rfl
  | cons item items ih => rw [Target.texts, ih, List.map_cons]

theorem Target.areLegible_iff {items : List Target} :
    Target.AreLegible items ↔ ∀ item ∈ items, item.IsLegible := by
  induction items with
  | nil => exact ⟨fun _ => nofun, fun _ => trivial⟩
  | cons item items ih => rw [Target.AreLegible, ih, List.forall_mem_cons]

/-- The targets of a tuple after the first one; a comma follows a target that is alone. -/
def Target.tail : List Target → List Char
  | [] => [',', ')']
  | items => ',' :: ' ' :: (commaText Target.chars items ++ [')'])

theorem Target.chars_tuple (item : Target) (items : List Target) :
    (Target.tuple (item :: items)).chars = '(' :: (item.chars ++ Target.tail items) := by
  cases items with
  | nil => simp [Target.chars, Target.text, Target.texts, tupleText, Target.tail]
  | cons item' items =>
    simp only [Target.chars, Target.text, Target.texts_eq, List.map_cons, tupleText,
      String.toList_append, toList_commas, commaText, Target.tail]
    simp [List.flatMap_map]

theorem Target.head?_tuple (items : List Target) : (Target.tuple items).chars.head? = some '(' := by
  cases items with
  | nil => rfl
  | cons item items => rw [Target.chars_tuple, List.head?_cons]

theorem Target.head?_chars_ne {target : Target} (h : target.IsLegible) (r : List Char) :
    (target.chars ++ r).head? ≠ some ')' := by
  cases target with
  | name x =>
    rw [Target.IsLegible] at h
    exact (h.opens.append r).head?_ne (by simp)
  | tuple items =>
    rw [List.head?_append, Target.head?_tuple]
    simp

/-- A name is no tuple. -/
theorem Target.name_ne_tuple {x : String} (hx : IsName x) (items : List Target) :
    x.toList ++ r ≠ (Target.tuple items).chars ++ r' := by
  intro heq
  obtain ⟨c, t, hx, hc⟩ := hx.exists_cons
  have hhead := congrArg List.head? heq
  rw [List.head?_append, List.head?_append, Target.head?_tuple, hx] at hhead
  cases hhead
  exact absurd hc (by simp [isNameChar])

theorem leaves_tail (items : List Target) (r : List Char) :
    Leaves isNameChar (Target.tail items ++ r) := by
  cases items <;> exact .cons rfl _

/-- Tuples are told apart if their items are. -/
theorem Target.toldApart_tuple {items : List Target}
    (hitems : ∀ item ∈ items, item.IsLegible ∧
      ToldApart Target.chars Target.IsLegible (Leaves isNameChar) Eq item) :
    ToldApart Target.chars Target.IsLegible (Leaves isNameChar) Eq (.tuple items) := by
  intro target' h' r r' _ _ heq
  match items, target' with
  | _, .name x =>
    rw [Target.IsLegible] at h'
    exact absurd heq.symm (Target.name_ne_tuple h' _)
  | [], .tuple [] => exact ⟨rfl, List.append_cancel_left heq⟩
  | [], .tuple (item' :: items') =>
    rw [Target.IsLegible, Target.areLegible_iff] at h'
    rw [Target.chars_tuple, List.cons_append, List.append_assoc] at heq
    refine absurd ?_ (Target.head?_chars_ne (h' item' List.mem_cons_self)
      (Target.tail items' ++ r'))
    rw [← List.tail_eq_of_cons_eq heq]
    rfl
  | item :: items, .tuple [] =>
    rw [Target.chars_tuple, List.cons_append, List.append_assoc] at heq
    refine absurd ?_ (Target.head?_chars_ne (hitems item List.mem_cons_self).1
      (Target.tail items ++ r))
    rw [List.tail_eq_of_cons_eq heq]
    rfl
  | item :: items, .tuple (item' :: items') =>
    rw [Target.IsLegible, Target.areLegible_iff] at h'
    simp only [Target.chars_tuple, List.cons_append, List.append_assoc, List.cons.injEq,
      true_and] at heq
    obtain ⟨⟨-, hitem⟩, hitems⟩ := List.forall_mem_cons.1 hitems
    obtain ⟨hitem', hitems'⟩ := List.forall_mem_cons.1 h'
    -- a comma follows the first item in any case, also one that is alone
    obtain ⟨rfl, htail⟩ := hitem hitem' (leaves_tail items r) (leaves_tail items' r') heq
    match items, items' with
    | [], [] => exact ⟨rfl, List.append_cancel_left htail⟩
    | [], _ :: _ | _ :: _, [] => simp [Target.tail] at htail
    | _ :: _, _ :: _ =>
      obtain ⟨hsame, hrest⟩ := toldApart_commas (by decide) hitems
        (fun _ h => Target.head?_chars_ne h) (by rintro _ (rfl | rfl) _ c ⟨⟩ <;> rfl)
        hitems' trivial trivial (List.tail_eq_of_cons_eq (List.tail_eq_of_cons_eq htail))
      have hitems := congrFun (congrFun List.forall₂_eq_eq_eq _) _ ▸ hsame
      exact ⟨congrArg (fun items => Target.tuple (item :: items)) hitems, hrest⟩

mutual

/-- Targets are told apart. -/
theorem Target.toldApart : (target : Target) → target.IsLegible →
    ToldApart Target.chars Target.IsLegible (Leaves isNameChar) Eq target
  | .name x, h => by
    intro target' h' r r' hr hr' heq
    rw [Target.IsLegible] at h
    cases target' with
    | name y =>
      rw [Target.IsLegible] at h'
      obtain ⟨rfl, hrest⟩ := h.toldApart h' hr hr' heq
      exact ⟨rfl, hrest⟩
    | tuple items => exact absurd heq (Target.name_ne_tuple h items)
  | .tuple items, h => Target.toldApart_tuple (Target.all_toldApart items h)

/-- Targets are told apart, each of a list. -/
theorem Target.all_toldApart : (items : List Target) → Target.AreLegible items →
    ∀ item ∈ items, item.IsLegible ∧
      ToldApart Target.chars Target.IsLegible (Leaves isNameChar) Eq item
  | [], _ => nofun
  | item :: items, h =>
    List.forall_mem_cons.2 ⟨⟨h.1, Target.toldApart item h.1⟩, Target.all_toldApart items h.2⟩

end

/-! ## Comprehensions -/

/-- The texts that may follow a comprehension: a blank and a closing bracket. -/
def Closes (r : List Char) : Prop :=
  ∃ w ∈ [" ]".toList, " )".toList, " \x7d".toList], w <+: r

theorem Closes.stops (h : Closes r) : Stops r := by
  obtain ⟨w, hw, hr⟩ := h
  refine .inr ⟨w, ?_, hr⟩
  simp only [stopWords, List.mem_cons, List.not_mem_nil, or_false] at hw ⊢
  tauto

theorem Closes.ne_condition (h : Closes r) : r ≠ " if ".toList ++ s := by
  obtain ⟨w, hw, t, rfl⟩ := h
  simp only [List.mem_cons, List.not_mem_nil, or_false] at hw
  rcases hw with rfl | rfl | rfl <;> simp

theorem Closes.stops_condition (h : Closes r) (condition : Option Node) :
    Stops (conditionChars condition ++ r) := by
  cases condition with
  | none => exact h.stops
  | some n =>
    rw [conditionChars, List.append_assoc]
    exact stops_word (by simp [stopWords]) _

/-- Conditions are told apart, and from no condition. -/
theorem toldApart_condition {condition : Option Node} (h : ∀ c ∈ condition.toList, c.Apart) :
    ToldApart conditionChars (fun condition => ∀ c ∈ condition.toList, c.IsLegible) Closes
      (Option.Rel Node.Alike) condition := by
  intro condition' h' r r' hr hr' heq
  match condition, condition' with
  | none, none => exact ⟨.none, heq⟩
  | none, some n =>
    rw [conditionChars, conditionChars, List.append_assoc] at heq
    exact absurd heq hr.ne_condition
  | some n, none =>
    rw [conditionChars, conditionChars, List.append_assoc] at heq
    exact absurd heq.symm hr'.ne_condition
  | some n, some n' =>
    rw [conditionChars, conditionChars, List.append_assoc, List.append_assoc] at heq
    obtain ⟨halike, hrest⟩ := (h n List.mem_cons_self).2 (h' n' List.mem_cons_self) hr.stops
      hr'.stops (List.append_cancel_left heq)
    exact ⟨.some halike, hrest⟩

/-- The names of a comprehension are legible, and so are the expressions in it. -/
def Comprehension.IsLegible (comp : Comprehension) : Prop :=
  comp.target.IsLegible ∧ ∀ c ∈ comp.children, c.IsLegible

/-- Comprehensions are told apart if the expressions in them are. -/
theorem Comprehension.toldApart {comp : Comprehension} (htarget : comp.target.IsLegible)
    (h : ∀ c ∈ comp.children, c.Apart) :
    ToldApart Comprehension.chars Comprehension.IsLegible Closes (Same Node.Alike) comp := by
  rintro comp' ⟨htarget', h'⟩ r r' hr hr' heq
  obtain ⟨target, container, condition⟩ := comp
  obtain ⟨target', container', condition'⟩ := comp'
  simp only [Comprehension.chars_eq, List.append_assoc] at heq
  have hin (s : List Char) : Leaves isNameChar (" in ".toList ++ s) := .cons rfl _
  obtain ⟨rfl, hrest⟩ := Target.toldApart target htarget htarget' (hin _) (hin _)
    (List.append_cancel_left heq)
  obtain ⟨hcontainer, hrest⟩ := (h container List.mem_cons_self).2
    (h' container' List.mem_cons_self) (hr.stops_condition _) (hr'.stops_condition _)
    (List.append_cancel_left hrest)
  obtain ⟨hcondition, hrest⟩ := toldApart_condition
    (fun c hc => h c (List.mem_cons_of_mem _ hc)) (fun c hc => h' c (List.mem_cons_of_mem _ hc))
    hr hr' hrest
  exact ⟨.intro target hcontainer hcondition, hrest⟩

/-- An item and its comprehension are told apart up to the closing bracket. -/
theorem toldApart_generator {item item' : Node} {comp comp' : Comprehension}
    (hc : c ∈ [']', ')', '}']) (htarget : comp.target.IsLegible)
    (h : ∀ n ∈ comp.children ++ [item], n.Apart) (htarget' : comp'.target.IsLegible)
    (h' : ∀ n ∈ comp'.children ++ [item'], n.IsLegible)
    (heq : item.chars ++ (' ' :: (comp.chars ++ (' ' :: c :: r))) =
      item'.chars ++ (' ' :: (comp'.chars ++ (' ' :: c :: r')))) :
    item.Alike item' ∧ comp.Same Node.Alike comp' ∧ r = r' := by
  have hfor (comp : Comprehension) (s : List Char) : Stops (' ' :: (comp.chars ++ s)) := by
    rw [Comprehension.chars_eq, List.append_assoc]
    exact stops_word (w := " for ".toList) (by simp [stopWords]) _
  have hclose (s : List Char) : Closes (' ' :: c :: s) := by
    refine ⟨[' ', c], ?_, s, rfl⟩
    simp only [List.mem_cons, List.not_mem_nil, or_false] at hc
    rcases hc with rfl | rfl | rfl <;> simp
  obtain ⟨halike, hrest⟩ := (h item (by simp)).2 (h' item' (by simp)) (hfor _ _) (hfor _ _) heq
  obtain ⟨hsame, hrest⟩ := Comprehension.toldApart htarget
    (fun n hn => h n (List.mem_append_left _ hn))
    ⟨htarget', fun n hn => h' n (List.mem_append_left _ hn)⟩ (hclose r) (hclose r')
    (List.tail_eq_of_cons_eq hrest)
  exact ⟨halike, hsame, List.tail_eq_of_cons_eq (List.tail_eq_of_cons_eq hrest)⟩

/-! ## Items and entries -/

/-- Items with commas between are told apart. -/
theorem toldApart_items {items : List Node} (hc : c ∈ [']', ')']) (h : ∀ n ∈ items, n.Apart) :
    ToldApart (fun items => commaText Node.chars items ++ [c])
      (fun items => ∀ n ∈ items, n.IsLegible) (fun _ => True) (List.Forall₂ Node.Alike) items := by
  have hclose : c ≠ ',' ∧ c ∈ [')', ']', '}', ',', ':', '='] ∧
      c ∈ [' ', '.', ')', ']', '}', ',', ':', '=', '*'] := by
    rcases List.mem_pair.1 hc with rfl | rfl <;> simp
  refine toldApart_commas hclose.1 h (fun a ha r => (ha.opens.append r).head?_ne hclose.2.2) ?_
  rintro d (rfl | rfl) r
  · exact stops_cons (by simp) r
  · exact stops_cons hclose.2.1 r

/-- Entries of dict displays are told apart if the expressions in them are. -/
theorem DictEntry.toldApart {e : DictEntry} (h : ∀ c ∈ e.children, c.Apart) :
    ToldApart DictEntry.chars (fun e => ∀ c ∈ e.children, c.IsLegible) Stops
      (DictEntry.Same Node.Alike) e := by
  intro e' h' r r' hr hr' heq
  cases e with
  | pair key value =>
    rw [DictEntry.chars_pair, List.append_assoc] at heq
    cases e' with
    | pair key' value' =>
      rw [DictEntry.chars_pair, List.append_assoc] at heq
      obtain ⟨hkey, hrest⟩ := (h key (by simp [children])).2 (h' key' (by simp [children]))
        (stops_cons (by simp) _) (stops_cons (by simp) _) heq
      obtain ⟨hvalue, hrest⟩ := (h value (by simp [children])).2 (h' value' (by simp [children]))
        hr hr' (List.tail_eq_of_cons_eq (List.tail_eq_of_cons_eq hrest))
      exact ⟨.pair hkey hvalue, hrest⟩
    | splat mapping' =>
      rw [DictEntry.chars_splat] at heq
      -- no expression opens with an asterisk, so a pair is no splat
      exact absurd heq ((h key (by simp [children])).1.opens.append_ne (by simp))
  | splat mapping =>
    rw [DictEntry.chars_splat] at heq
    cases e' with
    | pair key' value' =>
      rw [DictEntry.chars_pair, List.append_assoc] at heq
      exact absurd heq.symm ((h' key' (by simp [children])).opens.append_ne (by simp))
    | splat mapping' =>
      rw [DictEntry.chars_splat] at heq
      have hsplat := List.tail_eq_of_cons_eq (List.tail_eq_of_cons_eq heq)
      obtain ⟨hmapping, hrest⟩ := (h mapping (by simp [children])).2
        (h' mapping' (by simp [children])) hr hr' hsplat
      exact ⟨.splat hmapping, hrest⟩

/-- Entries with commas between are told apart. -/
theorem toldApart_entries {entries : List DictEntry}
    (h : ∀ e ∈ entries, ∀ c ∈ e.children, c.Apart) :
    ToldApart (fun entries => commaText DictEntry.chars entries ++ ['}'])
      (fun entries => ∀ e ∈ entries, ∀ c ∈ e.children, c.IsLegible) (fun _ => True)
      (List.Forall₂ (DictEntry.Same Node.Alike)) entries := by
  refine toldApart_commas (by decide)
    (fun e he => ⟨fun c hc => (h e he c hc).1, DictEntry.toldApart (h e he)⟩)
    (fun e he r => DictEntry.head?_chars he (by simp) r) ?_
  rintro d (rfl | rfl) r <;> exact stops_cons (by simp) r

/-! ## Atoms -/

/-- What an expression with a sign is. -/
def Sign.Form : Sign → NodeKind → Prop
  | none, k => k = .noneConst
  | true, k => k = .trueConst
  | false, k => k = .falseConst
  | number, k => ∃ n : Int64, 0 ≤ n.toInt ∧ k = .const (.int n)
  | text, k => ∃ s, k = .const (.str s)
  | date, k => ∃ d, k = .const (.date d)
  | color, k => ∃ c, k = .const (.color c)
  | list, k => ∃ items, k = .list items
  | listComp, k => ∃ item comp, k = .listComp item comp ∧ comp.target.IsLegible
  | dict, k => ∃ entries, k = .dict entries
  | dictComp, k => ∃ key value comp, k = .dictComp key value comp ∧ comp.target.IsLegible
  | genExpr, k => ∃ item comp, k = .genExpr item comp ∧ comp.target.IsLegible
  | var, k => ∃ name, k = .var name ∧ IsName name
  | call, k => ∃ name args, k = .callFunc name args ∧ IsName name
  | minus, _ | negation, _ | group, _ => False

theorem NodeKind.form_sign {k : NodeKind} (hatom : k.IsAtom) (hk : k.IsLegible) :
    k.sign.Form k := by
  cases k with
  | noneConst | trueConst | falseConst => rfl
  | const v =>
    cases v with
    | int n => exact ⟨n, hk, rfl⟩
    | str s => exact ⟨s, rfl⟩
    | date d => exact ⟨d, rfl⟩
    | color c => exact ⟨c, rfl⟩
    | _ => exact hk.elim
  | list items => exact ⟨items, rfl⟩
  | listComp item comp => exact ⟨item, comp, rfl, hk⟩
  | dict entries => exact ⟨entries, rfl⟩
  | dictComp key value comp => exact ⟨key, value, comp, rfl, hk⟩
  | genExpr item comp => exact ⟨item, comp, rfl, hk⟩
  | var name => exact ⟨name, rfl, hk⟩
  | callFunc name args => exact ⟨name, args, rfl, hk⟩
  | unary | binary | getAttr | getSlice | callMeth | callMethKeywords => exact hatom.elim
  | _ => exact hk.elim

/-- **Expressions without operators outside brackets are told apart** if the expressions in them
are. -/
theorem Node.toldApart_atom (hatom : n.kind.IsAtom) (hn : n.kind.IsLegible)
    (h : ∀ c ∈ n.children, c.Apart) :
    ToldApart Node.chars
      (fun n => (n.kind.IsAtom ∧ n.kind.IsLegible) ∧ ∀ c ∈ n.children, c.IsLegible) FollowsOperand
      (fun n n' => NodeKind.Same Node.Alike n.kind n'.kind) n := by
  rintro n' ⟨⟨hatom', hn'⟩, h'⟩ r r' hr hr' heq
  have hsign : n.kind.sign = n'.kind.sign := by
    rw [← Node.signOf_atom hatom hn (fun c hc => (h c hc).1) hr, heq,
      Node.signOf_atom hatom' hn' h' hr']
  have hform := NodeKind.form_sign hatom hn
  have hform' := hsign ▸ NodeKind.form_sign hatom' hn'
  obtain ⟨id, location, kind⟩ := n
  obtain ⟨id', location', kind'⟩ := n'
  dsimp only at hform hform' ⊢
  -- the same sign on both sides leaves the pairs of the same form only
  generalize kind.sign = s at hform hform'
  cases s with
  | none =>
    obtain rfl := hform
    obtain rfl := hform'
    exact ⟨.noneConst, List.append_cancel_left heq⟩
  | true =>
    obtain rfl := hform
    obtain rfl := hform'
    exact ⟨.trueConst, List.append_cancel_left heq⟩
  | false =>
    obtain rfl := hform
    obtain rfl := hform'
    exact ⟨.falseConst, List.append_cancel_left heq⟩
  | number =>
    obtain ⟨m, hm, rfl⟩ := hform
    obtain ⟨m', hm', rfl⟩ := hform'
    obtain ⟨rfl, hrest⟩ := Literal.toldApart_int hm hm' hr.leaves hr'.leaves heq
    exact ⟨.const _, hrest⟩
  | text =>
    obtain ⟨s, rfl⟩ := hform
    obtain ⟨s', rfl⟩ := hform'
    obtain ⟨rfl, hrest⟩ := toldApart_literal s trivial trivial trivial heq
    exact ⟨.const _, hrest⟩
  | date =>
    obtain ⟨d, rfl⟩ := hform
    obtain ⟨d', rfl⟩ := hform'
    obtain ⟨rfl, hrest⟩ := d.toldApart_repr trivial trivial trivial heq
    exact ⟨.const _, hrest⟩
  | color =>
    obtain ⟨c, rfl⟩ := hform
    obtain ⟨c', rfl⟩ := hform'
    obtain ⟨rfl, hrest⟩ := c.toldApart_repr trivial hr.leaves hr'.leaves heq
    exact ⟨.const _, hrest⟩
  | list =>
    obtain ⟨items, rfl⟩ := hform
    obtain ⟨items', rfl⟩ := hform'
    rw [Node.chars_list, Node.chars_list] at heq
    obtain ⟨hitems, hrest⟩ := toldApart_items (by simp) h h' trivial trivial
      (List.tail_eq_of_cons_eq heq)
    exact ⟨.list hitems, hrest⟩
  | listComp =>
    obtain ⟨item, comp, rfl, htarget⟩ := hform
    obtain ⟨item', comp', rfl, htarget'⟩ := hform'
    simp only [Node.chars_listComp, List.cons_append, List.append_assoc, List.cons.injEq,
      true_and] at heq
    obtain ⟨hitem, hcomp, hrest⟩ := toldApart_generator (by simp) htarget h htarget' h' heq
    exact ⟨.listComp hitem hcomp, hrest⟩
  | dict =>
    obtain ⟨entries, rfl⟩ := hform
    obtain ⟨entries', rfl⟩ := hform'
    rw [Node.chars_dict, Node.chars_dict] at heq
    obtain ⟨hentries, hrest⟩ := toldApart_entries
      (fun e he c hc => h c (List.mem_flatMap.2 ⟨e, he, hc⟩))
      (fun e he c hc => h' c (List.mem_flatMap.2 ⟨e, he, hc⟩)) trivial trivial
      (List.tail_eq_of_cons_eq heq)
    exact ⟨.dict hentries, hrest⟩
  | dictComp =>
    obtain ⟨key, value, comp, rfl, htarget⟩ := hform
    obtain ⟨key', value', comp', rfl, htarget'⟩ := hform'
    simp only [Node.chars_dictComp, List.cons_append, List.append_assoc, List.cons.injEq,
      true_and] at heq
    obtain ⟨hkey, hrest⟩ := (h key (by simp [children, NodeKind.children])).2
      (h' key' (by simp [children, NodeKind.children])) (stops_word (by simp [stopWords]) _)
      (stops_word (by simp [stopWords]) _) heq
    have hmem {comp : Comprehension} {key value c : Node} (hc : c ∈ comp.children ++ [value]) :
        c ∈ comp.children ++ [key, value] := by
      rw [List.mem_append] at hc ⊢
      exact hc.imp_right (List.mem_cons_of_mem _)
    obtain ⟨hvalue, hcomp, hrest⟩ := toldApart_generator (by simp) htarget
      (fun c hc => h c (hmem hc)) htarget' (fun c hc => h' c (hmem hc))
      (List.append_cancel_left hrest)
    exact ⟨.dictComp hkey hvalue hcomp, hrest⟩
  | genExpr =>
    obtain ⟨item, comp, rfl, htarget⟩ := hform
    obtain ⟨item', comp', rfl, htarget'⟩ := hform'
    simp only [Node.chars_genExpr, List.cons_append, List.append_assoc, List.cons.injEq,
      true_and] at heq
    obtain ⟨hitem, hcomp, hrest⟩ := toldApart_generator (by simp) htarget h htarget' h' heq
    exact ⟨.genExpr hitem hcomp, hrest⟩
  | var =>
    obtain ⟨x, rfl, hx⟩ := hform
    obtain ⟨x', rfl, hx'⟩ := hform'
    obtain ⟨rfl, hrest⟩ := hx.toldApart hx' hr.leaves hr'.leaves heq
    exact ⟨.var _, hrest⟩
  | call =>
    obtain ⟨x, args, rfl, hx⟩ := hform
    obtain ⟨x', args', rfl, hx'⟩ := hform'
    rw [Node.chars_callFunc, Node.chars_callFunc, List.append_assoc, List.append_assoc] at heq
    obtain ⟨rfl, hrest⟩ := hx.toldApart hx' (.cons rfl _) (.cons rfl _) heq
    obtain ⟨hargs, hrest⟩ := toldApart_items (by simp) h h' trivial trivial
      (List.tail_eq_of_cons_eq hrest)
    exact ⟨.callFunc _ hargs, hrest⟩
  | minus | negation | group => exact hform.elim

end Templating
