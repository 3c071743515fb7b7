import Mathlib.Data.List.Forall2
import Mathlib.Data.Option.Defs
import Templating.Proofs.Syntax.LiteralText

/-!
# The segments of an expression

* `Node.Alike`: two expressions are the same up to identities, locations and the grouping of chains
  of one associative operator.
* `Node.IsLegible`: expressions whose names are names and whose constants can be told from
  expressions.
* `Segment`, `Node.segments`: an expression as the sequence of its parts outside parentheses and
  brackets, from the left to the right.
* `Node.Built`, `Node.built`: how an expression is made up of its segments.
* `Node.IsLegible.level_le`, `Node.exists_level_eq`: **an expression binds as the segment does that
  binds least tightly.**
-/

namespace Templating

open Text

/-! ## Names -/

/-- The characters that a name begins with: those of names without the digits. -/
def Text.isNameStart (c : Char) : Bool := isNameChar c && !c.isDigit

/-- The words of expressions that are no names. -/
def reserved : List String := ["None", "True", "False", "not", "and", "or", "in", "for", "if"]

/-- A name: an identifier that is not reserved. -/
def Text.IsName (s : String) : Prop :=
  (∃ c, s.toList.head? = some c ∧ isNameStart c) ∧ (∀ c ∈ s.toList, isNameChar c) ∧ s ∉ reserved

mutual

/-- All names of a target are names. -/
def Target.IsLegible : Target → Prop
  | .name x => IsName x
  | .tuple items => Target.AreLegible items

/-- All names of some targets are names. -/
def Target.AreLegible : List Target → Prop
  | [] => True
  | item :: items => item.IsLegible ∧ Target.AreLegible items

end

/-! ## The same expression -/

/-- Two parts of comprehensions that are the same up to a relation of nodes. -/
inductive Comprehension.Same (R : Node → Node → Prop) : Comprehension → Comprehension → Prop
  | intro (target : Target) {container container' : Node} {condition condition' : Option Node} :
    R container container' → Option.Rel R condition condition' →
    Same R ⟨target, container, condition⟩ ⟨target, container', condition'⟩

/-- Two entries of dict displays that are the same up to a relation of nodes. -/
inductive DictEntry.Same (R : Node → Node → Prop) : DictEntry → DictEntry → Prop
  | pair {key key' value value' : Node} : R key key' → R value value' →
    Same R (.pair key value) (.pair key' value')
  | splat {mapping mapping' : Node} : R mapping mapping' → Same R (.splat mapping) (.splat mapping')

/-- Two keyword arguments that are the same up to a relation of nodes. -/
inductive KeywordArg.Same (R : Node → Node → Prop) : KeywordArg → KeywordArg → Prop
  | named (name : String) {value value' : Node} : R value value' →
    Same R (.named name value) (.named name value')
  | splat {mapping mapping' : Node} : R mapping mapping' → Same R (.splat mapping) (.splat mapping')

/-- Two expressions that are the same up to a relation of the nodes below them. -/
inductive NodeKind.Same (R : Node → Node → Prop) : NodeKind → NodeKind → Prop
  | noneConst : Same R .noneConst .noneConst
  | trueConst : Same R .trueConst .trueConst
  | falseConst : Same R .falseConst .falseConst
  | const (value : Literal) : Same R (.const value) (.const value)
  | var (name : String) : Same R (.var name) (.var name)
  | list {items items' : List Node} : List.Forall₂ R items items' →
    Same R (.list items) (.list items')
  | listComp {item item' : Node} {comp comp' : Comprehension} : R item item' →
    comp.Same R comp' → Same R (.listComp item comp) (.listComp item' comp')
  | dict {entries entries' : List DictEntry} : List.Forall₂ (DictEntry.Same R) entries entries' →
    Same R (.dict entries) (.dict entries')
  | dictComp {key key' value value' : Node} {comp comp' : Comprehension} : R key key' →
    R value value' → comp.Same R comp' →
    Same R (.dictComp key value comp) (.dictComp key' value' comp')
  | genExpr {item item' : Node} {comp comp' : Comprehension} : R item item' →
    comp.Same R comp' → Same R (.genExpr item comp) (.genExpr item' comp')
  | unary (op : UnaryOp) {operand operand' : Node} : R operand operand' →
    Same R (.unary op operand) (.unary op operand')
  | binary (op : BinaryOp) {left left' right right' : Node} : R left left' → R right right' →
    Same R (.binary op left right) (.binary op left' right')
  | getAttr {object object' : Node} (attr : String) : R object object' →
    Same R (.getAttr object attr) (.getAttr object' attr)
  | getSlice {object object' : Node} {start start' stop stop' : Option Node} : R object object' →
    Option.Rel R start start' → Option.Rel R stop stop' →
    Same R (.getSlice object start stop) (.getSlice object' start' stop')
  | callFunc (name : String) {args args' : List Node} : List.Forall₂ R args args' →
    Same R (.callFunc name args) (.callFunc name args')
  | callMeth (name : String) {object object' : Node} {args args' : List Node} :
    R object object' → List.Forall₂ R args args' →
    Same R (.callMeth name object args) (.callMeth name object' args')
  | callMethKeywords (name : String) {object object' : Node} {args args' : List KeywordArg} :
    R object object' → List.Forall₂ (KeywordArg.Same R) args args' →
    Same R (.callMethKeywords name object args) (.callMethKeywords name object' args')

/-- Two expressions that are the same up to identities, locations, and the grouping of chains of one
associative operator. -/
inductive Node.Alike : Node → Node → Prop
  | same {n n' : Node} : NodeKind.Same Alike n.kind n'.kind → Alike n n'
  | regroup {op : BinaryOp} {a b c left inner right inner' : Node} : op.isAssociative →
    left.kind = .binary op inner c → inner.kind = .binary op a b →
    right.kind = .binary op a inner' → inner'.kind = .binary op b c → Alike left right
  | symm {n n' : Node} : Alike n n' → Alike n' n
  | trans {n n' n'' : Node} : Alike n n' → Alike n' n'' → Alike n n''

/-! ## Legible expressions -/

/-- The constants whose texts are no expressions: integers without a sign, strings, dates and
colors. `None`, `True` and `False` have nodes of their own. -/
def Literal.IsLegible : Literal → Prop
  | .int n => 0 ≤ n.toInt
  | .str _ | .date _ | .color _ => True
  | _ => False

/-- The name of a keyword argument is a name. -/
def KeywordArg.IsLegible : KeywordArg → Prop
  | .named name _ => IsName name
  | .splat _ => True

/-- An expression whose own names and constants are legible. A call with keyword arguments has
one. -/
def NodeKind.IsLegible : NodeKind → Prop
  | .noneConst | .trueConst | .falseConst | .list _ | .dict _ | .unary .. | .binary ..
  | .getSlice .. => True
  | .const value => value.IsLegible
  | .listComp _ comp | .dictComp _ _ comp | .genExpr _ comp => comp.target.IsLegible
  | .var name | .getAttr _ name | .callFunc name _ | .callMeth name .. => IsName name
  | .callMethKeywords name _ args => IsName name ∧ args ≠ [] ∧ ∀ arg ∈ args, arg.IsLegible
  | _ => False

/-- An expression whose names and constants are legible, here and below. -/
inductive Node.IsLegible : Node → Prop
  | intro {n : Node} : n.kind.IsLegible → (∀ child ∈ n.children, child.IsLegible) → IsLegible n

/-! ## Texts on characters -/

/-- An expression as text, on characters. -/
def Node.chars (n : Node) : List Char := (n.format 0).toList

/-- An optional expression as text; a missing one leaves nothing. -/
def Node.optionChars : Option Node → List Char
  | none => []
  | some n => n.chars

/-- A comprehension without its item, as text. -/
def Comprehension.chars (c : Comprehension) : List Char := (c.format 0).toList

/-- An entry of a dict display as text. -/
def DictEntry.chars (e : DictEntry) : List Char := (e.format 0).toList

/-- A keyword argument as text. -/
def KeywordArg.chars (a : KeywordArg) : List Char := (a.format 0).toList

/-- A part of an expression outside parentheses and brackets. -/
inductive Segment where
  /-- A prefix operator. -/
  | lead (op : UnaryOp)
  /-- An operator between two operands. -/
  | between (op : BinaryOp)
  /-- An expression without operators outside brackets. -/
  | atom (n : Node)
  /-- An operand in parentheses. -/
  | group (n : Node)
  | attr (name : String)
  | item (index : Node)
  | slice (start stop : Option Node)
  | call (name : String) (args : List Node)
  | keywordCall (name : String) (args : List KeywordArg)

/-- A segment as text. -/
def Segment.text : Segment → List Char
  | lead op => op.lead.toList
  | between op => ' ' :: (op.symbol.toList ++ [' '])
  | atom n => n.chars
  | group n => '(' :: (n.chars ++ [')'])
  | attr name => '.' :: name.toList
  | item index => '[' :: (index.chars ++ [']'])
  | slice start stop => '[' :: (Node.optionChars start ++ ':' :: (Node.optionChars stop ++ [']']))
  | call name args => '.' :: (name.toList ++ '(' :: (commaText Node.chars args ++ [')']))
  | keywordCall name args =>
    '.' :: (name.toList ++ '(' :: (commaText KeywordArg.chars args ++ [')']))

/-- Whether an operand is put in parentheses. -/
def NodeKind.Encloses (around operand : NodeKind) : Prop :=
  operand.precedence?.getD 0 < around.precedence?.getD 0 ∨
    operand.precedence?.getD 0 = around.precedence?.getD 0 ∧
      (operand.tag ≠ around.tag ∨ ¬ around.isAssociative)

instance (around operand : NodeKind) : Decidable (around.Encloses operand) :=
  inferInstanceAs (Decidable (_ ∨ _))

/-- The segments of an operand: its own, or one in parentheses. -/
def enclose (around : NodeKind) (operand : Node) (segments : List Segment) : List Segment :=
  if around.Encloses operand.kind then [.group operand] else segments

mutual

/-- The segments of an expression, from the left to the right. -/
def Node.segments : Node → List Segment
  | n@⟨_, _, kind⟩ => kind.segments n

/-- The segments of an expression of some kind. -/
def NodeKind.segments (whole : Node) : NodeKind → List Segment
  | .unary op operand => .lead op :: enclose (.unary op operand) operand operand.segments
  | .binary op left right =>
    let lead := enclose (.binary op left right) left left.segments
    if op = .getItem then lead ++ [.item right]
    else lead ++ .between op :: enclose (.binary op left right) right right.segments
  | .getAttr object attr => enclose (.getAttr object attr) object object.segments ++ [.attr attr]
  | .getSlice object start stop =>
    enclose (.getSlice object start stop) object object.segments ++ [.slice start stop]
  | .callMeth name object args =>
    enclose (.callMeth name object args) object object.segments ++ [.call name args]
  | .callMethKeywords name object args =>
    enclose (.callMethKeywords name object args) object object.segments ++ [.keywordCall name args]
  | _ => [.atom whole]

end

/-- What an expression does to the operand on its left: it is written behind it. -/
def NodeKind.suffix? : NodeKind → Option (Node × Segment)
  | .binary .getItem object index => some (object, .item index)
  | .getAttr object attr => some (object, .attr attr)
  | .getSlice object start stop => some (object, .slice start stop)
  | .callMeth name object args => some (object, .call name args)
  | .callMethKeywords name object args => some (object, .keywordCall name args)
  | _ => none

/-- The kinds of expressions without operators outside brackets. -/
def NodeKind.IsAtom : NodeKind → Prop
  | .unary .. | .binary .. | .getAttr .. | .getSlice .. | .callMeth ..
  | .callMethKeywords .. => False
  | _ => True

/-- How an expression is made up of its segments. -/
inductive Node.Built (n : Node) : Prop
  | atom : n.kind.IsAtom → n.segments = [.atom n] → Built n
  | lead (op : UnaryOp) (x : Node) : n.kind = .unary op x →
    n.segments = .lead op :: enclose n.kind x x.segments → Built n
  | suffix (x : Node) (q : Segment) : n.kind.suffix? = some (x, q) →
    n.segments = enclose n.kind x x.segments ++ [q] → Built n
  | between (op : BinaryOp) (x y : Node) : n.kind = .binary op x y → op ≠ .getItem →
    n.segments = enclose n.kind x x.segments ++ .between op :: enclose n.kind y y.segments → Built n

theorem Node.built (n : Node) : n.Built := by
  obtain ⟨id, location, kind⟩ := n
  cases kind with
  | unary op x => exact .lead op x rfl rfl
  | binary op x y =>
    by_cases hop : op = .getItem
    · subst hop
      exact .suffix x (.item y) rfl rfl
    · exact .between op x y rfl hop (if_neg hop)
  | getAttr x attr => exact .suffix x (.attr attr) rfl rfl
  | getSlice x start stop => exact .suffix x (.slice start stop) rfl rfl
  | callMeth name x args => exact .suffix x (.call name args) rfl rfl
  | callMethKeywords name x args => exact .suffix x (.keywordCall name args) rfl rfl
  | _ => exact .atom trivial rfl

/-! ## Levels -/

/-- How tightly an expression binds. -/
def Node.level (n : Node) : Nat := n.kind.precedence?.getD 0

/-- How tightly a segment binds. -/
def Segment.level : Segment → Nat
  | lead op => op.precedence
  | between op => op.precedence
  | atom n => n.level
  | group _ => 11
  | attr _ | item _ | keywordCall .. => 9
  | slice .. => 8
  | call .. => 10

variable {n n' x x' y : Node} {k k' : NodeKind} {op : BinaryOp} {p q : Segment}

theorem UnaryOp.precedence_cases (op : UnaryOp) : op.precedence = 2 ∨ op.precedence = 7 := by
  cases op <;> decide

theorem BinaryOp.precedence_cases {op : BinaryOp} (h : op ≠ .getItem) :
    op.precedence ≤ 6 ∧ op.precedence ≠ 2 := by
  cases op <;> first
    | exact absurd rfl h
    | decide

theorem Node.level_le (n : Node) : n.level ≤ 11 := by
  obtain ⟨id, location, kind⟩ := n
  cases kind with
  | unary op x => cases op <;> exact Nat.le_of_ble_eq_true rfl
  | binary op x y => cases op <;> exact Nat.le_of_ble_eq_true rfl
  | _ => exact Nat.le_of_ble_eq_true rfl

theorem level_of_suffix? (h : n.kind.suffix? = some (x, q)) :
    n.level = q.level ∧ 8 ≤ n.level ∧ n.level ≤ 10 := by
  obtain ⟨id, location, kind⟩ := n
  cases kind with
  | binary op x y =>
    cases op <;> cases h
    exact ⟨rfl, Nat.le_of_ble_eq_true rfl, Nat.le_of_ble_eq_true rfl⟩
  | getAttr | getSlice | callMeth | callMethKeywords =>
    cases h
    exact ⟨rfl, Nat.le_of_ble_eq_true rfl, Nat.le_of_ble_eq_true rfl⟩
  | _ => cases h

theorem level_of_not_encloses (h : ¬ k.Encloses x.kind) : k.precedence?.getD 0 ≤ x.level :=
  Nat.not_lt.1 fun hlt => h (.inl hlt)

/-- No segment of an operand binds less tightly than the expression around it. -/
theorem level_le_of_mem_enclose (hk : k.precedence?.getD 0 ≤ 11)
    (hx : ∀ q ∈ x.segments, x.level ≤ q.level) (hq : q ∈ enclose k x x.segments) :
    k.precedence?.getD 0 ≤ q.level := by
  unfold enclose at hq
  split at hq
  next =>
    obtain rfl := List.mem_singleton.1 hq
    exact hk
  next h => exact Nat.le_trans (level_of_not_encloses h) (hx q hq)

theorem mem_children_of_suffix? (h : n.kind.suffix? = some (x, q)) : x ∈ n.children := by
  obtain ⟨id, location, kind⟩ := n
  cases kind with
  | binary op x y =>
    cases op <;> cases h
    exact List.mem_cons_self
  | getAttr | getSlice | callMeth | callMethKeywords => cases h; exact List.mem_cons_self
  | _ => cases h

theorem mem_children_of_unary {op : UnaryOp} (h : n.kind = .unary op x) : x ∈ n.children := by
  rw [Node.children, h]
  exact List.mem_cons_self

theorem left_mem_children (h : n.kind = .binary op x y) : x ∈ n.children := by
  rw [Node.children, h]
  exact List.mem_cons_self

theorem right_mem_children (h : n.kind = .binary op x y) : y ∈ n.children := by
  rw [Node.children, h]
  exact List.mem_cons_of_mem _ List.mem_cons_self

/-- No segment of an expression binds less tightly than the expression. -/
theorem Node.IsLegible.level_le (h : n.IsLegible) : ∀ q ∈ n.segments, n.level ≤ q.level := by
  induction h with
  | @intro n _ _ ih =>
    intro q hq
    have hle := n.level_le
    rcases n.built with ⟨-, hsegments⟩ | ⟨op, x, hkind, hsegments⟩ | ⟨x, p, hkind, hsegments⟩ |
      ⟨op, x, y, hkind, hop, hsegments⟩ <;> rw [hsegments] at hq
    · obtain rfl := List.mem_singleton.1 hq
      exact Nat.le_refl _
    · rcases List.mem_cons.1 hq with rfl | hq
      · rw [Node.level, hkind]
        exact Nat.le_refl _
      · exact level_le_of_mem_enclose hle (ih x (mem_children_of_unary hkind)) hq
    · rcases List.mem_append.1 hq with hq | hq
      · exact level_le_of_mem_enclose hle (ih x (mem_children_of_suffix? hkind)) hq
      · obtain rfl := List.mem_singleton.1 hq
        exact Nat.le_of_eq (level_of_suffix? hkind).1
    · rcases List.mem_append.1 hq with hq | hq
      · exact level_le_of_mem_enclose hle (ih x (left_mem_children hkind)) hq
      · rcases List.mem_cons.1 hq with rfl | hq
        · rw [Node.level, hkind]
          exact Nat.le_refl _
        · exact level_le_of_mem_enclose hle (ih y (right_mem_children hkind)) hq

/-- Some segment of an expression binds as tightly as the expression. -/
theorem Node.exists_level_eq (n : Node) : ∃ q ∈ n.segments, q.level = n.level := by
  rcases n.built with ⟨-, hsegments⟩ | ⟨op, x, hkind, hsegments⟩ | ⟨x, p, hkind, hsegments⟩ |
    ⟨op, x, y, hkind, hop, hsegments⟩ <;> rw [hsegments]
  · exact ⟨_, List.mem_singleton_self _, rfl⟩
  · exact ⟨_, List.mem_cons_self, by rw [Node.level, hkind]; rfl⟩
  · exact ⟨p, by simp, (level_of_suffix? hkind).1.symm⟩
  · exact ⟨.between op, by simp, by rw [Node.level, hkind]; rfl⟩

end Templating
