import Templating.Proofs.Syntax.Segments

/-!
# Expressions are written segment by segment

* `Node.IsLegible.chars_eq`: **the text of an expression is that of its segments.**
* `Arranged`: the order in which segments follow one another.
* `Node.forall_segments`, `Node.forall_inner`: what holds of all segments, and of the expressions
  inside them.
-/

namespace Templating

open Text

variable {n x : Node} {k : NodeKind} {op : BinaryOp} {p q : Segment} {ps : List Segment}

/-! ## Texts -/

theorem toList_parenthesize (h : x.chars = x.segments.flatMap Segment.text) :
    (parenthesize k x.kind (x.format 0)).toList =
      (enclose k x x.segments).flatMap Segment.text := by
  unfold enclose
  split
  next hparens =>
    rw [show parenthesize k x.kind (x.format 0) = "(" ++ x.format 0 ++ ")" from if_pos hparens]
    simp [Segment.text, Node.chars]
  next hparens =>
    rw [show parenthesize k x.kind (x.format 0) = x.format 0 from if_neg hparens]
    exact h

theorem Node.formats_eq (nodes : List Node) :
    Node.formats 0 nodes = nodes.map (Node.format 0) := by
  induction nodes with
  | nil => rfl
  | cons node nodes ih => rw [Node.formats, ih, List.map_cons]

theorem DictEntry.formats_eq (entries : List DictEntry) :
    DictEntry.formats 0 entries = entries.map (DictEntry.format 0) := by
  induction entries with
  | nil => rfl
  | cons entry entries ih => rw [DictEntry.formats, ih, List.map_cons]

theorem KeywordArg.formats_eq (args : List KeywordArg) :
    KeywordArg.formats 0 args = args.map (KeywordArg.format 0) := by
  induction args with
  | nil => rfl
  | cons arg args ih => rw [KeywordArg.formats, ih, List.map_cons]

theorem toList_formats (nodes : List Node) :
    (commas (Node.formats 0 nodes)).toList = commaText Node.chars nodes := by
  rw [toList_commas, Node.formats_eq, commaText_map]
  rfl

theorem toList_formats_entries (entries : List DictEntry) :
    (commas (DictEntry.formats 0 entries)).toList = commaText DictEntry.chars entries := by
  rw [toList_commas, DictEntry.formats_eq, commaText_map]
  rfl

theorem toList_formats_args (args : List KeywordArg) :
    (commas (KeywordArg.formats 0 args)).toList = commaText KeywordArg.chars args := by
  rw [toList_commas, KeywordArg.formats_eq, commaText_map]
  rfl

theorem toList_formatOption (n : Option Node) :
    (Node.formatOption 0 n).toList = Node.optionChars n := by
  cases n <;> rfl

theorem chars_of_unary {op : UnaryOp} (hn : n.kind = .unary op x) :
    n.chars = op.lead.toList ++ (parenthesize n.kind x.kind (x.format 0)).toList := by
  obtain ⟨id, location, kind⟩ := n
  subst hn
  exact String.toList_append ..

theorem chars_of_binary {y : Node} (hn : n.kind = .binary op x y) (hop : op ≠ .getItem) :
    n.chars = (parenthesize n.kind x.kind (x.format 0)).toList ++ ((Segment.between op).text ++
      (parenthesize n.kind y.kind (y.format 0)).toList) := by
  obtain ⟨id, location, kind⟩ := n
  subst hn
  have hformat : Node.chars ⟨id, location, .binary op x y⟩ = _ :=
    congrArg String.toList (if_neg hop)
  rw [hformat]
  simp [Segment.text]

theorem chars_of_suffix? (hn : n.kind.suffix? = some (x, q)) :
    n.chars = (parenthesize n.kind x.kind (x.format 0)).toList ++ q.text := by
  obtain ⟨id, location, kind⟩ := n
  cases kind with
  | binary op x y =>
    cases op <;> cases hn
    simp [Node.chars, Node.format, NodeKind.format, Segment.text]
  | getAttr | getSlice | callMeth | callMethKeywords =>
    cases hn
    simp [Node.chars, Node.format, NodeKind.format, Segment.text, toList_formatOption,
      toList_formats, toList_formats_args]
  | _ => cases hn

/-- **The text of an expression is that of its segments.** -/
theorem Node.IsLegible.chars_eq (h : n.IsLegible) : n.chars = n.segments.flatMap Segment.text := by
  induction h with
  | @intro n _ _ ih =>
    rcases n.built with ⟨-, hsegments⟩ | ⟨op, x, hkind, hsegments⟩ | ⟨x, q, hkind, hsegments⟩ |
      ⟨op, x, y, hkind, hop, hsegments⟩ <;> rw [hsegments]
    · exact (List.append_nil _).symm
    · have hx := ih x (mem_children_of_unary hkind)
      rw [chars_of_unary hkind, toList_parenthesize hx]
      rfl
    · have hx := ih x (mem_children_of_suffix? hkind)
      rw [chars_of_suffix? hkind, toList_parenthesize hx]
      simp
    · have hx := ih x (left_mem_children hkind)
      have hy := ih y (right_mem_children hkind)
      rw [chars_of_binary hkind hop, toList_parenthesize hx, toList_parenthesize hy]
      simp

/-! ## The order of segments -/

/-- A segment that stands for an operand. -/
def Segment.IsOperand : Segment → Prop
  | atom _ | group _ => True
  | _ => False

/-- A segment behind an operand. -/
def Segment.IsSuffix : Segment → Prop
  | attr _ | item _ | slice .. | call .. | keywordCall .. => True
  | _ => False

/-- Segments in the order of an expression, where an operand is to come next, or one has just
come. -/
inductive Arranged : Bool → List Segment → Prop
  | lead (op : UnaryOp) {ps : List Segment} : Arranged true ps → Arranged true (.lead op :: ps)
  | operand {p : Segment} {ps : List Segment} : p.IsOperand → Arranged false ps →
    Arranged true (p :: ps)
  | done : Arranged false []
  | between (op : BinaryOp) {ps : List Segment} : Arranged true ps →
    Arranged false (.between op :: ps)
  | suffix {p : Segment} {ps : List Segment} : p.IsSuffix → Arranged false ps →
    Arranged false (p :: ps)

theorem isSuffix_of_suffix? (h : k.suffix? = some (x, q)) : q.IsSuffix := by
  cases k with
  | binary op x y =>
    cases op <;> cases h
    trivial
  | getAttr | getSlice | callMeth | callMethKeywords =>
    cases h
    trivial
  | _ => cases h

theorem arranged_enclose (h : ∀ ps, Arranged false ps → Arranged true (x.segments ++ ps))
    (hps : Arranged false ps) : Arranged true (enclose k x x.segments ++ ps) := by
  unfold enclose
  split
  · exact .operand trivial hps
  · exact h ps hps

/-- The segments of an expression are an operand as a whole. -/
theorem Node.IsLegible.arranged_append (h : n.IsLegible) (hps : Arranged false ps) :
    Arranged true (n.segments ++ ps) := by
  induction h generalizing ps with
  | @intro n _ _ ih =>
    rcases n.built with ⟨-, hsegments⟩ | ⟨op, x, hkind, hsegments⟩ | ⟨x, q, hkind, hsegments⟩ |
      ⟨op, x, y, hkind, hop, hsegments⟩ <;> rw [hsegments]
    · exact .operand trivial hps
    · exact .lead op (arranged_enclose (fun _ => ih x (mem_children_of_unary hkind)) hps)
    · rw [List.append_assoc]
      exact arranged_enclose (fun _ => ih x (mem_children_of_suffix? hkind))
        (.suffix (isSuffix_of_suffix? hkind) hps)
    · rw [List.append_assoc]
      exact arranged_enclose (fun _ => ih x (left_mem_children hkind))
        (.between op (arranged_enclose (fun _ => ih y (right_mem_children hkind)) hps))

theorem Node.IsLegible.arranged (h : n.IsLegible) : Arranged true n.segments := by
  rw [← List.append_nil n.segments]
  exact h.arranged_append .done

/-! ## The expressions inside segments -/

/-- The expressions inside a segment. -/
def Segment.inner : Segment → List Node
  | lead _ | between _ | attr _ => []
  | atom n => n.children
  | group n | item n => [n]
  | slice start stop => start.toList ++ stop.toList
  | call _ args => args
  | keywordCall _ args => args.map KeywordArg.value

/-- The names and constants of a segment itself are legible. -/
def Segment.IsPlain : Segment → Prop
  | lead _ | between _ | group _ | item _ | slice .. => True
  | atom n => n.kind.IsAtom ∧ n.kind.IsLegible
  | attr name | call name _ => IsName name
  | keywordCall name args => IsName name ∧ args ≠ [] ∧ ∀ arg ∈ args, arg.IsLegible

/-- A segment whose names and constants are legible, and so are the expressions in it. -/
def Segment.IsLegible (p : Segment) : Prop := p.IsPlain ∧ ∀ n ∈ p.inner, n.IsLegible

theorem inner_of_suffix? (h : n.kind.suffix? = some (x, q)) : ∀ c ∈ q.inner, c ∈ n.children := by
  obtain ⟨id, location, kind⟩ := n
  intro c hc
  cases kind with
  | binary op x y =>
    cases op <;> cases h
    exact List.mem_cons_of_mem _ hc
  | getAttr | getSlice | callMeth | callMethKeywords =>
    cases h
    exact List.mem_cons_of_mem _ hc
  | _ => cases h

theorem mem_enclose_cases (h : p ∈ enclose k x x.segments) : p = .group x ∨ p ∈ x.segments := by
  unfold enclose at h
  split at h
  · exact .inl (List.mem_singleton.1 h)
  · exact .inr h

/-- What holds of the segments of the operands of an expression, in parentheses or not, and of what
the expression adds, holds of all its segments. -/
theorem Node.forall_segments {P : Segment → Prop} (hatom : n.kind.IsAtom → P (.atom n))
    (hlead : ∀ op, P (.lead op)) (hbetween : ∀ op, P (.between op))
    (hsuffix : ∀ x q, n.kind.suffix? = some (x, q) → P q)
    (hoperands : ∀ x ∈ n.children, P (.group x) ∧ ∀ p ∈ x.segments, P p) :
    ∀ p ∈ n.segments, P p := by
  have hoperand {x : Node} (hx : x ∈ n.children) : ∀ p ∈ enclose n.kind x x.segments, P p := by
    intro p hp
    rcases mem_enclose_cases hp with rfl | hp
    · exact (hoperands x hx).1
    · exact (hoperands x hx).2 p hp
  rcases n.built with ⟨hkind, hsegments⟩ | ⟨op, x, hkind, hsegments⟩ | ⟨x, q, hkind, hsegments⟩ |
    ⟨op, x, y, hkind, hop, hsegments⟩ <;> rw [hsegments]
  · exact List.forall_mem_singleton.2 (hatom hkind)
  · exact List.forall_mem_cons.2 ⟨hlead op, hoperand (mem_children_of_unary hkind)⟩
  · exact List.forall_mem_append.2 ⟨hoperand (mem_children_of_suffix? hkind),
      List.forall_mem_singleton.2 (hsuffix x q hkind)⟩
  · exact List.forall_mem_append.2 ⟨hoperand (left_mem_children hkind),
      List.forall_mem_cons.2 ⟨hbetween op, hoperand (right_mem_children hkind)⟩⟩

/-- What holds of the expressions below an expression and inside their segments, holds inside its
segments. -/
theorem Node.forall_inner {P : Node → Prop}
    (h : ∀ c ∈ n.children, P c ∧ ∀ p ∈ c.segments, ∀ d ∈ p.inner, P d) :
    ∀ p ∈ n.segments, ∀ d ∈ p.inner, P d := by
  refine Node.forall_segments (fun _ d hd => (h d hd).1) (fun _ _ hd => nomatch hd)
    (fun _ _ hd => nomatch hd) (fun x q hkind d hd => (h d (inner_of_suffix? hkind d hd)).1)
    fun x hx => ⟨?_, (h x hx).2⟩
  exact List.forall_mem_singleton.2 (h x hx).1

theorem isPlain_of_suffix? (hk : k.IsLegible) (h : k.suffix? = some (x, q)) : q.IsPlain := by
  cases k with
  | binary op x y =>
    cases op <;> cases h
    trivial
  | getSlice =>
    cases h
    trivial
  | getAttr | callMeth | callMethKeywords =>
    cases h
    exact hk
  | _ => cases h

theorem Node.IsLegible.isPlain (h : n.IsLegible) : ∀ p ∈ n.segments, p.IsPlain := by
  induction h with
  | intro hlegible _ ih =>
    exact Node.forall_segments (fun hatom => ⟨hatom, hlegible⟩) (fun _ => trivial)
      (fun _ => trivial) (fun _ _ hkind => isPlain_of_suffix? hlegible hkind)
      fun x hx => ⟨trivial, ih x hx⟩

theorem Node.IsLegible.isLegible_inner (h : n.IsLegible) :
    ∀ p ∈ n.segments, ∀ c ∈ p.inner, c.IsLegible := by
  induction h with
  | intro _ hchildren ih => exact Node.forall_inner fun c hc => ⟨hchildren c hc, ih c hc⟩

/-- The segments of a legible expression are legible. -/
theorem Node.IsLegible.isLegible_segments (h : n.IsLegible) : ∀ p ∈ n.segments, p.IsLegible :=
  fun p hp => ⟨h.isPlain p hp, h.isLegible_inner p hp⟩

end Templating
