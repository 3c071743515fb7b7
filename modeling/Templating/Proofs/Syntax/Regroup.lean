import Templating.Proofs.Syntax.Segments

/-!
# Expressions are known from their segments

* `Segment.Same`: two segments that are the same up to expressions that are alike.
* `exists_leftmost`: a chain regrouped so that its first operand stands alone on the left.
* `Node.alike_of_segments`: **expressions with the same segments are alike.**
-/

namespace Templating

/-- Two segments that are the same up to the likeness of the expressions in them. -/
inductive Segment.Same : Segment → Segment → Prop
  | lead (op : UnaryOp) : Same (.lead op) (.lead op)
  | between (op : BinaryOp) : Same (.between op) (.between op)
  | atom {n n' : Node} : NodeKind.Same Node.Alike n.kind n'.kind → Same (.atom n) (.atom n')
  | group {n n' : Node} : n.Alike n' → Same (.group n) (.group n')
  | attr (name : String) : Same (.attr name) (.attr name)
  | item {n n' : Node} : n.Alike n' → Same (.item n) (.item n')
  | slice {start start' stop stop' : Option Node} : Option.Rel Node.Alike start start' →
    Option.Rel Node.Alike stop stop' → Same (.slice start stop) (.slice start' stop')
  | call (name : String) {args args' : List Node} : List.Forall₂ Node.Alike args args' →
    Same (.call name args) (.call name args')
  | keywordCall (name : String) {args args' : List KeywordArg} :
    List.Forall₂ (KeywordArg.Same Node.Alike) args args' →
    Same (.keywordCall name args) (.keywordCall name args')

variable {n n' x x' y : Node} {k k' : NodeKind} {op : BinaryOp} {p q q' : Segment}

theorem NodeKind.Same.precedence?_eq {R : Node → Node → Prop} (h : NodeKind.Same R k k') :
    k.precedence? = k'.precedence? := by
  cases h <;> rfl

theorem Segment.Same.level_eq (h : p.Same q) : p.level = q.level := by
  cases h with
  | atom h => exact congrArg (·.getD 0) h.precedence?_eq
  | _ => rfl

/-- Expressions with the same segments bind equally. -/
theorem level_eq_of_segments (hn : n.IsLegible) (hn' : n'.IsLegible)
    (h : List.Forall₂ Segment.Same n.segments n'.segments) : n.level = n'.level := by
  have hlevels : n.segments.map Segment.level = n'.segments.map Segment.level := by
    rw [← List.forall₂_eq_eq_eq, List.forall₂_map_left_iff, List.forall₂_map_right_iff]
    exact h.imp fun _ _ => Segment.Same.level_eq
  apply Nat.le_antisymm
  · obtain ⟨q, hq, hlevel⟩ := n'.exists_level_eq
    obtain ⟨p, hp, hpq⟩ := List.mem_map.1 (hlevels ▸ List.mem_map_of_mem hq)
    exact Nat.le_trans (hn.level_le p hp) (Nat.le_of_eq (hpq.trans hlevel))
  · obtain ⟨q, hq, hlevel⟩ := n.exists_level_eq
    obtain ⟨p, hp, hpq⟩ := List.mem_map.1 (hlevels ▸ List.mem_map_of_mem hq)
    exact Nat.le_trans (hn'.level_le p hp) (Nat.le_of_eq (hpq.trans hlevel))

/-! ## Operands -/

theorem Node.segments_ne_nil (n : Node) : n.segments ≠ [] := by
  obtain ⟨q, hq, -⟩ := n.exists_level_eq
  exact List.ne_nil_of_mem hq

theorem enclose_of_not (h : ¬ k.Encloses x.kind) (ps : List Segment) : enclose k x ps = ps :=
  if_neg h

theorem length_enclose_pos (k : NodeKind) (x : Node) : 0 < (enclose k x x.segments).length := by
  unfold enclose
  split
  · exact Nat.one_pos
  · exact List.length_pos_iff.2 x.segments_ne_nil

/-- No expression is a single operand in parentheses. -/
theorem Node.segments_ne_group (n x : Node) : n.segments ≠ [.group x] := by
  intro h
  have hlength := congrArg List.length h
  rcases n.built with ⟨-, hsegments⟩ | ⟨op, y, -, hsegments⟩ | ⟨y, p, -, hsegments⟩ |
    ⟨op, y, z, -, -, hsegments⟩ <;> rw [hsegments] at h hlength
  · cases h
  · cases h
  all_goals
    have hpos := length_enclose_pos n.kind y
    simp only [List.length_append, List.length_cons, List.length_nil] at hlength
    omega

/-- Operands with the same segments are alike, whether in parentheses or not. -/
theorem alike_of_enclose
    (ih : ¬ k.Encloses x.kind → List.Forall₂ Segment.Same x.segments x'.segments → x.Alike x')
    (h : List.Forall₂ Segment.Same (enclose k x x.segments) (enclose k' x' x'.segments)) :
    x.Alike x' := by
  unfold enclose at h
  split at h
  next =>
    split at h
    next =>
      obtain ⟨h, -⟩ := List.forall₂_cons.1 h
      cases h with
      | group h => exact h
    next =>
      -- a node in parentheses against one without: no node is a single group by itself
      generalize hsegments : x'.segments = ps at h
      cases h with
      | cons h hnil =>
        cases hnil
        cases h
        exact absurd hsegments (x'.segments_ne_group _)
  next hparens =>
    split at h
    next =>
      generalize hsegments : x.segments = ps at h
      cases h with
      | cons h hnil =>
        cases hnil
        cases h
        exact absurd hsegments (x.segments_ne_group _)
    next => exact ih hparens h

/-! ## Chains -/

theorem BinaryOp.tag_injective : Function.Injective BinaryOp.tag := by
  have hall : ∀ op ∈ all, ∀ op' ∈ all, op.tag = op'.tag → op = op' := by decide
  exact fun op op' h => hall op op.mem_all op' op'.mem_all h

/-- An operand that binds equally and has no parentheses has the same operator. -/
theorem kind_of_not_encloses {l r : Node} (hop : op ≠ .getItem) (hx : x.IsLegible)
    (h : ¬ (NodeKind.binary op l r).Encloses x.kind) (hlevel : x.level = op.precedence) :
    op.isAssociative ∧ ∃ a b, x.kind = .binary op a b := by
  have hsame : x.kind.tag = op.tag ∧ op.isAssociative := by
    by_contra hne
    exact h (.inr ⟨hlevel, not_and_or.1 hne⟩)
  refine ⟨hsame.2, ?_⟩
  obtain ⟨hle, hne⟩ := BinaryOp.precedence_cases hop
  obtain ⟨hkind, -⟩ := hx
  obtain ⟨id, location, kind⟩ := x
  cases kind with
  | binary op' a b =>
    obtain rfl : op' = op := BinaryOp.tag_injective hsame.1
    exact ⟨a, b, rfl⟩
  | unary op' a =>
    have hcases := op'.precedence_cases
    change op'.precedence = _ at hlevel
    omega
  | noneConst | trueConst | falseConst | const | list | listComp | dict | dictComp | genExpr | var
  | getAttr | getSlice | callFunc | callMeth | callMethKeywords =>
    simp only [Node.level, NodeKind.precedence?, Option.getD_some] at hlevel
    omega
  | _ => exact hkind.elim

/-- Two operands with an operator between them. -/
def Node.joined (op : BinaryOp) (x y : Node) : Node := ⟨0, .ofText "" .empty, .binary op x y⟩

theorem Node.isLegible_joined (hx : x.IsLegible) (hy : y.IsLegible) :
    (Node.joined op x y).IsLegible := by
  refine .intro trivial fun child h => ?_
  rcases List.mem_pair.1 h with rfl | rfl
  · exact hx
  · exact hy

theorem Node.segments_of_binary {l r : Node} (hop : op ≠ .getItem) (hn : n.kind = .binary op l r) :
    n.segments = enclose n.kind l l.segments ++ .between op :: enclose n.kind r r.segments := by
  obtain ⟨id, location, kind⟩ := n
  subst hn
  exact if_neg hop

theorem Node.IsLegible.of_binary {l r : Node} (h : n.IsLegible) (hn : n.kind = .binary op l r) :
    l.IsLegible ∧ r.IsLegible := by
  obtain ⟨-, hchildren⟩ := h
  exact ⟨hchildren l (left_mem_children hn), hchildren r (right_mem_children hn)⟩

/-- The groupings of a chain have the same segments. -/
theorem segments_regroup {l r a b : Node} (hop : op ≠ .getItem) (hassoc : op.isAssociative)
    (hn : n.kind = .binary op l r) (hl : l.kind = .binary op a b)
    (hparens : ¬ (NodeKind.binary op l r).Encloses l.kind) :
    (Node.joined op a (.joined op b r)).segments = n.segments := by
  have hinner : ¬ (NodeKind.binary op a (.joined op b r)).Encloses (Node.joined op b r).kind :=
    fun h => h.elim (Nat.lt_irrefl _) fun h => h.2.elim (· rfl) (· hassoc)
  rw [Node.segments_of_binary hop hn, Node.segments_of_binary hop (n := .joined ..) rfl, hn]
  calc enclose (.binary op a (.joined op b r)) a a.segments ++
        .between op :: enclose (.binary op a (.joined op b r)) (.joined op b r)
          (Node.joined op b r).segments
      = enclose (.binary op a b) a a.segments ++ .between op ::
          (enclose (.binary op a b) b b.segments ++ .between op ::
            enclose (.binary op l r) r r.segments) := by
        rw [enclose_of_not hinner, Node.segments_of_binary hop (n := .joined op b r) rfl]
        rfl
    _ = enclose (.binary op l r) l l.segments ++ .between op ::
          enclose (.binary op l r) r r.segments := by
        rw [enclose_of_not hparens, Node.segments_of_binary hop hl, hl, List.append_assoc,
          List.cons_append]

/-- A chain can be regrouped so that the operand on its left binds more tightly than its operator.
The regrouped chain has the same segments. -/
theorem exists_leftmost (hop : op ≠ .getItem) {l r : Node} (hn : n.IsLegible)
    (hkind : n.kind = .binary op l r) :
    ∃ m l' r' : Node, (n = m ∨ n.Alike m) ∧ m.IsLegible ∧ m.kind = .binary op l' r' ∧
      m.segments = n.segments ∧ ∀ q ∈ enclose m.kind l' l'.segments, op.precedence < q.level := by
  obtain ⟨hl, hr⟩ := hn.of_binary hkind
  obtain ⟨hle, -⟩ := BinaryOp.precedence_cases hop
  -- the induction goes down the left operands of the chain
  induction hl generalizing n r with
  | @intro l hl hchildren ih =>
    have hl : l.IsLegible := .intro hl hchildren
    by_cases hparens : n.kind.Encloses l.kind
    · refine ⟨n, l, r, .inl rfl, hn, hkind, rfl, fun q hq => ?_⟩
      rw [enclose, if_pos hparens] at hq
      obtain rfl := List.mem_singleton.1 hq
      simp only [Segment.level]
      omega
    · rw [hkind] at hparens
      rcases Nat.lt_or_ge op.precedence l.level with hlt | hge
      · refine ⟨n, l, r, .inl rfl, hn, hkind, rfl, fun q hq => ?_⟩
        rw [hkind, enclose, if_neg hparens] at hq
        exact Nat.lt_of_lt_of_le hlt (hl.level_le q hq)
      · have hlevel : l.level = op.precedence :=
          Nat.le_antisymm hge (level_of_not_encloses hparens)
        obtain ⟨hassoc, a, b, hab⟩ := kind_of_not_encloses hop hl hparens hlevel
        obtain ⟨ha, hb⟩ := hl.of_binary hab
        have hm : (Node.joined op a (.joined op b r)).IsLegible :=
          Node.isLegible_joined ha (Node.isLegible_joined hb hr)
        have halike : n.Alike (.joined op a (.joined op b r)) :=
          .regroup hassoc hkind hab rfl rfl
        have hsegments : (Node.joined op a (.joined op b r)).segments = n.segments :=
          segments_regroup hop hassoc hkind hab hparens
        obtain ⟨m, l', r', hnm, hm, hkind', hsegments', hlevels⟩ :=
          ih a (left_mem_children hab) hm rfl (Node.isLegible_joined hb hr)
        refine ⟨m, l', r', .inr ?_, hm, hkind', hsegments'.trans hsegments, hlevels⟩
        rcases hnm with rfl | hnm
        · exact halike
        · exact halike.trans hnm

/-! ## Expressions from their segments -/

/-- Two related lists are divided alike at their first items of some kind. -/
theorem forall₂_divide {α : Type} {R : α → α → Prop} {Q : α → Prop}
    (hQ : ∀ a b, R a b → (Q a ↔ Q b)) {as as' bs bs' : List α} {a a' : α}
    (has : ∀ x ∈ as, ¬ Q x) (ha : Q a) (has' : ∀ x ∈ as', ¬ Q x) (ha' : Q a')
    (h : List.Forall₂ R (as ++ a :: bs) (as' ++ a' :: bs')) :
    List.Forall₂ R as as' ∧ R a a' ∧ List.Forall₂ R bs bs' := by
  induction as generalizing as' with
  | nil =>
    cases as' with
    | nil =>
      obtain ⟨h, hs⟩ := List.forall₂_cons.1 h
      exact ⟨.nil, h, hs⟩
    | cons b as' =>
      obtain ⟨h, -⟩ := List.forall₂_cons.1 h
      exact absurd ((hQ _ _ h).1 ha) (has' b List.mem_cons_self)
  | cons b as ih =>
    obtain ⟨hb, has⟩ := List.forall_mem_cons.1 has
    cases as' with
    | nil =>
      obtain ⟨h, -⟩ := List.forall₂_cons.1 h
      exact absurd ((hQ _ _ h).2 ha') hb
    | cons b' as' =>
      obtain ⟨-, has'⟩ := List.forall_mem_cons.1 has'
      obtain ⟨h, hs⟩ := List.forall₂_cons.1 h
      obtain ⟨hsame, hparts⟩ := ih has has' hs
      exact ⟨.cons h hsame, hparts⟩

/-- The expression of a segment behind an operand. -/
def Segment.behind (x : Node) : Segment → NodeKind
  | item index => .binary .getItem x index
  | attr name => .getAttr x name
  | slice start stop => .getSlice x start stop
  | call name args => .callMeth name x args
  | keywordCall name args => .callMethKeywords name x args
  | _ => .text

theorem NodeKind.eq_behind_of_suffix? (h : k.suffix? = some (x, q)) : k = q.behind x := by
  cases k with
  | binary op x y =>
    cases op <;> cases h
    rfl
  | getAttr | getSlice | callMeth | callMethKeywords =>
    cases h
    rfl
  | _ => cases h

/-- Two expressions that end with the same segment, behind operands that are alike. -/
theorem alike_of_suffix? (hn : n.kind.suffix? = some (x, q)) (hn' : n'.kind.suffix? = some (x', q'))
    (hx : x.Alike x') (hq : q.Same q') : n.Alike n' := by
  apply Node.Alike.same
  have hkind := NodeKind.eq_behind_of_suffix? hn
  rw [hkind, NodeKind.eq_behind_of_suffix? hn']
  cases hq with
  | attr name => exact .getAttr name hx
  | item h => exact .binary .getItem hx h
  | slice hstart hstop => exact .getSlice hx hstart hstop
  | call name h => exact .callMeth name hx h
  | keywordCall name h => exact .callMethKeywords name hx h
  | _ =>
    rw [hkind] at hn
    cases hn

theorem Node.IsLegible.of_suffix? (h : n.IsLegible) (hn : n.kind.suffix? = some (x, q)) :
    x.IsLegible := by
  obtain ⟨-, hchildren⟩ := h
  exact hchildren x (mem_children_of_suffix? hn)

theorem Node.IsLegible.of_unary {op : UnaryOp} (h : n.IsLegible) (hn : n.kind = .unary op x) :
    x.IsLegible := by
  obtain ⟨-, hchildren⟩ := h
  exact hchildren x (mem_children_of_unary hn)

/-- The number of segments and the level show the form of an expression. -/
theorem Node.marks (n : Node) :
    (n.segments = [.atom n] ∧ n.segments.length = 1) ∨
    (∃ op x, n.kind = .unary op x ∧ n.segments = .lead op :: enclose n.kind x x.segments ∧
      2 ≤ n.segments.length ∧ (n.level = 2 ∨ n.level = 7)) ∨
    (∃ x q, n.kind.suffix? = some (x, q) ∧ n.segments = enclose n.kind x x.segments ++ [q] ∧
      2 ≤ n.segments.length ∧ 8 ≤ n.level) ∨
    ∃ op x y, op ≠ .getItem ∧ n.kind = .binary op x y ∧
      2 ≤ n.segments.length ∧ n.level ≤ 6 ∧ n.level ≠ 2 := by
  rcases n.built with ⟨-, hsegments⟩ | ⟨op, x, hkind, hsegments⟩ | ⟨x, q, hkind, hsegments⟩ |
    ⟨op, x, y, hkind, hop, hsegments⟩
  · exact .inl ⟨hsegments, congrArg List.length hsegments⟩
  all_goals
    have hpos := length_enclose_pos n.kind x
    have hlength := congrArg List.length hsegments
    simp only [List.length_append, List.length_cons, List.length_nil] at hlength
  · have hlevel : n.level = op.precedence := by
      rw [Node.level, hkind]
      rfl
    exact .inr (.inl ⟨op, x, hkind, hsegments, by omega, hlevel ▸ op.precedence_cases⟩)
  · exact .inr (.inr (.inl ⟨x, q, hkind, hsegments, by omega, (level_of_suffix? hkind).2.1⟩))
  · have hlevel : n.level = op.precedence := by
      rw [Node.level, hkind]
      rfl
    exact .inr (.inr (.inr ⟨op, x, y, hop, hkind, by omega,
      hlevel ▸ BinaryOp.precedence_cases hop⟩))

/-- Two expressions of the same form. -/
inductive Node.BuiltAlike (n n' : Node) : Prop
  | atom : n.segments = [.atom n] → n'.segments = [.atom n'] → BuiltAlike n n'
  | lead (op op' : UnaryOp) (x x' : Node) : n.kind = .unary op x → n'.kind = .unary op' x' →
    n.segments = .lead op :: enclose n.kind x x.segments →
    n'.segments = .lead op' :: enclose n'.kind x' x'.segments → BuiltAlike n n'
  | suffix (x x' : Node) (q q' : Segment) : n.kind.suffix? = some (x, q) →
    n'.kind.suffix? = some (x', q') → n.segments = enclose n.kind x x.segments ++ [q] →
    n'.segments = enclose n'.kind x' x'.segments ++ [q'] → BuiltAlike n n'
  | between (op op' : BinaryOp) (x x' y y' : Node) : op ≠ .getItem → op' ≠ .getItem →
    n.kind = .binary op x y → n'.kind = .binary op' x' y' → BuiltAlike n n'

/-- Expressions with equally many segments and the same level have the same form. -/
theorem Node.builtAlike (hlength : n.segments.length = n'.segments.length)
    (hlevel : n.level = n'.level) : n.BuiltAlike n' := by
  rcases n.marks with ⟨hsegments, h⟩ | ⟨op, x, hkind, hsegments, h⟩ | ⟨x, q, hkind, hsegments, h⟩ |
    ⟨op, x, y, hop, hkind, h⟩ <;>
  rcases n'.marks with ⟨hsegments', h'⟩ | ⟨op', x', hkind', hsegments', h'⟩ |
    ⟨x', q', hkind', hsegments', h'⟩ | ⟨op', x', y', hop', hkind', h'⟩
  case inl.inl => exact .atom hsegments hsegments'
  case inr.inl.inr.inl => exact .lead op op' x x' hkind hkind' hsegments hsegments'
  case inr.inr.inl.inr.inr.inl => exact .suffix x x' q q' hkind hkind' hsegments hsegments'
  case inr.inr.inr.inr.inr.inr => exact .between op op' x x' y y' hop hop' hkind hkind'
  all_goals omega

/-- The segments before the last one, and the last one. -/
theorem forall₂_concat {α : Type} {R : α → α → Prop} {as as' : List α} {a a' : α}
    (h : List.Forall₂ R (as ++ [a]) (as' ++ [a'])) : List.Forall₂ R as as' ∧ R a a' := by
  rw [← List.forall₂_reverse_iff, List.reverse_concat, List.reverse_concat, List.forall₂_cons,
    List.forall₂_reverse_iff] at h
  exact h.symm

/-- **Expressions with the same segments are alike.** -/
theorem Node.alike_of_segments (hn : n.IsLegible) (hn' : n'.IsLegible)
    (h : List.Forall₂ Segment.Same n.segments n'.segments) : n.Alike n' := by
  generalize hlength : n.segments.length = length
  induction length using Nat.strongRecOn generalizing n n' with
  | ind length ih =>
    have hoperand {k k' : NodeKind} {x x' : Node} (hx : x.IsLegible) (hx' : x'.IsLegible)
        (hlt : (enclose k x x.segments).length < length)
        (h : List.Forall₂ Segment.Same (enclose k x x.segments) (enclose k' x' x'.segments)) :
        x.Alike x' := by
      refine alike_of_enclose (fun hparens h => ?_) h
      rw [enclose_of_not hparens] at hlt
      exact ih _ hlt hx hx' h rfl
    cases Node.builtAlike h.length_eq (level_eq_of_segments hn hn' h) with
    | atom hsegments hsegments' =>
      rw [hsegments, hsegments'] at h
      obtain ⟨h, -⟩ := List.forall₂_cons.1 h
      cases h with
      | atom h => exact .same h
    | lead op op' x x' hkind hkind' hsegments hsegments' =>
      rw [hsegments, hsegments'] at h
      obtain ⟨hop, h⟩ := List.forall₂_cons.1 h
      have hx := hoperand (hn.of_unary hkind) (hn'.of_unary hkind')
        (by simp [← hlength, hsegments]) h
      cases hop
      apply Alike.same
      rw [hkind, hkind']
      exact .unary op hx
    | suffix x x' q q' hkind hkind' hsegments hsegments' =>
      rw [hsegments, hsegments'] at h
      obtain ⟨h, hq⟩ := forall₂_concat h
      have hx := hoperand (hn.of_suffix? hkind) (hn'.of_suffix? hkind')
        (by simp [← hlength, hsegments]) h
      exact alike_of_suffix? hkind hkind' hx hq
    | between op op' x x' y y' hop hop' hkind hkind' =>
      have hlevel := level_eq_of_segments hn hn' h
      obtain ⟨m, l, r, hnm, hm, hmkind, hmsegments, hleft⟩ := exists_leftmost hop hn hkind
      obtain ⟨m', l', r', hnm', hm', hmkind', hmsegments', hleft'⟩ :=
        exists_leftmost hop' hn' hkind'
      have hsame : op.precedence = op'.precedence := by
        rw [Node.level, Node.level, hkind, hkind'] at hlevel
        exact hlevel
      have hsegments := Node.segments_of_binary hop hmkind
      rw [← hmsegments, ← hmsegments', hsegments, Node.segments_of_binary hop' hmkind'] at h
      -- on both sides the first segment of this level is the first operator of the chain
      obtain ⟨hl, hmiddle, hr⟩ := forall₂_divide (Q := fun q => q.level ≤ op.precedence)
        (fun _ _ hq => by rw [hq.level_eq]) (fun q hq => Nat.not_le.2 (hleft q hq))
        (Nat.le_refl _) (fun q hq => Nat.not_le.2 (hsame ▸ hleft' q hq)) (Nat.le_of_eq hsame.symm) h
      have hlengths : (enclose m.kind l l.segments).length < length ∧
          (enclose m.kind r r.segments).length < length := by
        rw [← hlength, ← hmsegments, hsegments, List.length_append, List.length_cons]
        omega
      have hll := hoperand (hm.of_binary hmkind).1 (hm'.of_binary hmkind').1 hlengths.1 hl
      have hrr := hoperand (hm.of_binary hmkind).2 (hm'.of_binary hmkind').2 hlengths.2 hr
      cases hmiddle
      have hmm : m.Alike m' := by
        apply Alike.same
        rw [hmkind, hmkind']
        exact .binary op hll hrr
      have hnm'' : n.Alike m' := by
        rcases hnm with rfl | hnm
        · exact hmm
        · exact hnm.trans hmm
      rcases hnm' with rfl | hnm'
      · exact hnm''
      · exact hnm''.trans hnm'.symm

end Templating
