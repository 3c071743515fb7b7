import Templating.Syntax.Node

/-!
# Renaming the identities in a syntax tree

* `Relabel`: new identities for nodes and templates; it can also put a tree into the form in which
  it is read back from its written form.
* `Node.relabel`, `Template.relabel`: a tree with new identities.
* `Node.objects`, `Template.objects`: everything in a tree that has an identity.
* `Node.relabel_relabel`, `Template.relabel_relabel`: two renamings are one.
* `Node.relabel_congr`, `Template.relabel_congr`: only the identities that occur matter.
* `Node.objects_sublist`, `Template.objects_sublist`: what a template in a tree contains is in the
  tree.
* `Template.not_mem_block`: no template contains itself.
-/

namespace Templating

/-- A renaming of identities. -/
structure Relabel where
  node : Nat → Nat
  template : Nat → Nat
  /-- Whether constants take their dedicated nodes and definitions the places of their templates. -/
  tidy : Bool

/-- One renaming after another. -/
def Relabel.andThen (f g : Relabel) : Relabel :=
  ⟨g.node ∘ f.node, g.template ∘ f.template, f.tidy || g.tidy⟩

/-- Forgets which node is which. -/
def Relabel.anonymous : Relabel := ⟨fun _ => 0, id, false⟩

/-- What reading back gives, where templates have other identities. -/
def Relabel.readBack (σ : Nat → Nat) : Relabel := ⟨fun _ => 0, σ, true⟩

@[simp] theorem Relabel.anonymous_node (i : Nat) : Relabel.anonymous.node i = 0 := rfl

@[simp] theorem Relabel.anonymous_template (i : Nat) : Relabel.anonymous.template i = i := rfl

@[simp] theorem Relabel.anonymous_tidy : Relabel.anonymous.tidy = false := rfl

@[simp] theorem Relabel.readBack_node (σ : Nat → Nat) (i : Nat) : (readBack σ).node i = 0 := rfl

@[simp] theorem Relabel.readBack_template (σ : Nat → Nat) (i : Nat) :
    (readBack σ).template i = σ i := rfl

@[simp] theorem Relabel.readBack_tidy (σ : Nat → Nat) : (readBack σ).tidy = true := rfl

/-- Something with an identity. -/
inductive Object where
  | node (id : Nat)
  | template (t : Template)

/-- The identity of something. -/
def Object.id : Object → Nat
  | .node id => id
  | .template t => t.id

/-- An identity stands for one template. -/
def Coherent (os : List Object) : Prop :=
  ∀ t u, .template t ∈ os → .template u ∈ os → t.id = u.id → t = u

/-- Where a node of some kind is. The definition of a template is where the template is, or it is
the empty text at the beginning. -/
def NodeKind.place (location : Location) : NodeKind → Location
  | .template t => t.location.getD (Location.ofText t.source .empty)
  | _ => location

theorem NodeKind.place_of_template?_eq_none {kind : NodeKind} (h : kind.template? = none)
    (location : Location) : kind.place location = location := by
  cases kind with
  | template t => cases h
  | _ => rfl

mutual

/-- A template with new identities. -/
def Template.relabel (f : Relabel) : Template → Template
  | ⟨id, location, source, name, startDelim, endDelim, block⟩ =>
    ⟨f.template id, location, source, name, startDelim, endDelim, block.relabel f⟩

/-- A node with new identities. -/
def Node.relabel (f : Relabel) : Node → Node
  | ⟨id, location, kind⟩ =>
    ⟨f.node id, if f.tidy then kind.place location else location, kind.relabel f⟩

/-- Nodes with new identities. -/
def Node.relabelAll (f : Relabel) : List Node → List Node
  | [] => []
  | node :: nodes => node.relabel f :: Node.relabelAll f nodes

/-- A node, if there is one, with new identities. -/
def Node.relabelOpt (f : Relabel) : Option Node → Option Node
  | some node => some (node.relabel f)
  | none => none

/-- What a node is, with new identities below it. -/
def NodeKind.relabel (f : Relabel) : NodeKind → NodeKind
  | .text => .text
  | .noneConst => .noneConst
  | .trueConst => .trueConst
  | .falseConst => .falseConst
  | .const value => if f.tidy then .ofLiteral value else .const value
  | .list items => .list (Node.relabelAll f items)
  | .listComp item comp => .listComp (item.relabel f) (comp.relabel f)
  | .dict entries => .dict (DictEntry.relabelAll f entries)
  | .dictComp key value comp => .dictComp (key.relabel f) (value.relabel f) (comp.relabel f)
  | .genExpr item comp => .genExpr (item.relabel f) (comp.relabel f)
  | .var name => .var name
  | .unary op operand => .unary op (operand.relabel f)
  | .binary op left right => .binary op (left.relabel f) (right.relabel f)
  | .getAttr object attr => .getAttr (object.relabel f) attr
  | .getSlice object start stop =>
    .getSlice (object.relabel f) (Node.relabelOpt f start) (Node.relabelOpt f stop)
  | .callFunc name args => .callFunc name (Node.relabelAll f args)
  | .callMeth name object args => .callMeth name (object.relabel f) (Node.relabelAll f args)
  | .callMethKeywords name object args =>
    .callMethKeywords name (object.relabel f) (KeywordArg.relabelAll f args)
  | .print value => .print (value.relabel f)
  | .printX value => .printX (value.relabel f)
  | .render value => .render (value.relabel f)
  | .storeVar target value => .storeVar target (value.relabel f)
  | .augAssign op name value => .augAssign op name (value.relabel f)
  | .delVar name => .delVar name
  | .forLoop target container block => .forLoop target (container.relabel f) (block.relabel f)
  | .breakLoop => .breakLoop
  | .continueLoop => .continueLoop
  | .chain branches => .chain (branches.relabel f)
  | .ifBranch condition block => .ifBranch (condition.relabel f) (block.relabel f)
  | .elifBranch condition block => .elifBranch (condition.relabel f) (block.relabel f)
  | .elseBranch block => .elseBranch (block.relabel f)
  | .template t => .template (t.relabel f)

/-- A comprehension with new identities. -/
def Comprehension.relabel (f : Relabel) : Comprehension → Comprehension
  | ⟨target, container, condition⟩ =>
    ⟨target, container.relabel f, Node.relabelOpt f condition⟩

/-- The entries of a dict display with new identities. -/
def DictEntry.relabelAll (f : Relabel) : List DictEntry → List DictEntry
  | [] => []
  | entry :: entries => entry.relabel f :: DictEntry.relabelAll f entries

/-- An entry of a dict display with new identities. -/
def DictEntry.relabel (f : Relabel) : DictEntry → DictEntry
  | .pair key value => .pair (key.relabel f) (value.relabel f)
  | .splat mapping => .splat (mapping.relabel f)

/-- Keyword arguments with new identities. -/
def KeywordArg.relabelAll (f : Relabel) : List KeywordArg → List KeywordArg
  | [] => []
  | arg :: args => arg.relabel f :: KeywordArg.relabelAll f args

/-- A keyword argument with new identities. -/
def KeywordArg.relabel (f : Relabel) : KeywordArg → KeywordArg
  | .named name value => .named name (value.relabel f)
  | .splat mapping => .splat (mapping.relabel f)

/-- A block with new identities. -/
def Block.relabel (f : Relabel) : Block → Block
  | ⟨stop, content⟩ => ⟨stop, Node.relabelAll f content⟩

end

mutual

/-- What has an identity in a template, itself first. -/
def Template.objects : Template → List Object
  | t@⟨_, _, _, _, _, _, block⟩ => .template t :: block.objects

/-- What has an identity in a node, itself first. -/
def Node.objects : Node → List Object
  | ⟨id, _, kind⟩ => .node id :: kind.objects

/-- What has an identity in some nodes. -/
def Node.objectsAll : List Node → List Object
  | [] => []
  | node :: nodes => node.objects ++ Node.objectsAll nodes

/-- What has an identity in a node, if there is one. -/
def Node.objectsOpt : Option Node → List Object
  | some node => node.objects
  | none => []

/-- What has an identity below a node of some kind. -/
def NodeKind.objects : NodeKind → List Object
  | .text | .noneConst | .trueConst | .falseConst | .const _ | .var _ | .delVar _ | .breakLoop
  | .continueLoop => []
  | .list items => Node.objectsAll items
  | .listComp item comp => item.objects ++ comp.objects
  | .dict entries => DictEntry.objectsAll entries
  | .dictComp key value comp => key.objects ++ (value.objects ++ comp.objects)
  | .genExpr item comp => item.objects ++ comp.objects
  | .unary _ operand => operand.objects
  | .binary _ left right => left.objects ++ right.objects
  | .getAttr object _ => object.objects
  | .getSlice object start stop =>
    object.objects ++ (Node.objectsOpt start ++ Node.objectsOpt stop)
  | .callFunc _ args => Node.objectsAll args
  | .callMeth _ object args => object.objects ++ Node.objectsAll args
  | .callMethKeywords _ object args => object.objects ++ KeywordArg.objectsAll args
  | .print value => value.objects
  | .printX value => value.objects
  | .render value => value.objects
  | .storeVar _ value => value.objects
  | .augAssign _ _ value => value.objects
  | .forLoop _ container block => container.objects ++ block.objects
  | .chain branches => branches.objects
  | .ifBranch condition block => condition.objects ++ block.objects
  | .elifBranch condition block => condition.objects ++ block.objects
  | .elseBranch block => block.objects
  | .template t => t.objects

/-- What has an identity in a comprehension without its item. -/
def Comprehension.objects : Comprehension → List Object
  | ⟨_, container, condition⟩ => container.objects ++ Node.objectsOpt condition

/-- What has an identity in the entries of a dict display. -/
def DictEntry.objectsAll : List DictEntry → List Object
  | [] => []
  | entry :: entries => entry.objects ++ DictEntry.objectsAll entries

/-- What has an identity in an entry of a dict display. -/
def DictEntry.objects : DictEntry → List Object
  | .pair key value => key.objects ++ value.objects
  | .splat mapping => mapping.objects

/-- What has an identity in some keyword arguments. -/
def KeywordArg.objectsAll : List KeywordArg → List Object
  | [] => []
  | arg :: args => arg.objects ++ KeywordArg.objectsAll args

/-- What has an identity in a keyword argument. -/
def KeywordArg.objects : KeywordArg → List Object
  | .named _ value => value.objects
  | .splat mapping => mapping.objects

/-- What has an identity in a block. -/
def Block.objects : Block → List Object
  | ⟨_, content⟩ => Node.objectsAll content

end

theorem Node.relabelAll_eq (f : Relabel) (nodes : List Node) :
    Node.relabelAll f nodes = nodes.map (Node.relabel f) := by
  induction nodes with
  | nil => rfl
  | cons node nodes ih => simp [Node.relabelAll, ih]

theorem DictEntry.relabelAll_eq (f : Relabel) (entries : List DictEntry) :
    DictEntry.relabelAll f entries = entries.map (DictEntry.relabel f) := by
  induction entries with
  | nil => rfl
  | cons entry entries ih => simp [DictEntry.relabelAll, ih]

theorem KeywordArg.relabelAll_eq (f : Relabel) (args : List KeywordArg) :
    KeywordArg.relabelAll f args = args.map (KeywordArg.relabel f) := by
  induction args with
  | nil => rfl
  | cons arg args ih => simp [KeywordArg.relabelAll, ih]

section

variable (f : Relabel) (t : Template)

@[simp] theorem Template.id_relabel : (t.relabel f).id = f.template t.id := by
  cases t
  rfl

@[simp] theorem Template.source_relabel : (t.relabel f).source = t.source := by
  cases t
  rfl

@[simp] theorem Template.name_relabel : (t.relabel f).name = t.name := by
  cases t
  rfl

@[simp] theorem Template.startDelim_relabel : (t.relabel f).startDelim = t.startDelim := by
  cases t
  rfl

@[simp] theorem Template.endDelim_relabel : (t.relabel f).endDelim = t.endDelim := by
  cases t
  rfl

@[simp] theorem Template.block_relabel : (t.relabel f).block = t.block.relabel f := by
  cases t
  rfl

@[simp] theorem Node.kind_relabel (node : Node) : (node.relabel f).kind = node.kind.relabel f := by
  cases node
  rfl

end

/-! ## Two renamings are one -/

variable {f g : Relabel}

@[simp] theorem NodeKind.relabel_ofLiteral (f : Relabel) (value : Literal) :
    (NodeKind.ofLiteral value).relabel f = .ofLiteral value := by
  unfold NodeKind.ofLiteral
  split <;> simp only [NodeKind.relabel]
  split
  · unfold NodeKind.ofLiteral
    split <;> simp_all
  · rfl

theorem NodeKind.place_ofLiteral (location : Location) (value : Literal) :
    (NodeKind.ofLiteral value).place location = location := by
  unfold NodeKind.ofLiteral
  split <;> rfl

theorem NodeKind.place_relabel (f : Relabel) (location : Location) (kind : NodeKind) :
    (kind.relabel f).place location = kind.place location := by
  cases kind with
  | const value =>
    rw [NodeKind.relabel]
    split
    · exact NodeKind.place_ofLiteral location value
    · rfl
  | template t =>
    obtain ⟨id, place, source, name, startDelim, endDelim, block⟩ := t
    rfl
  | _ => rfl

theorem NodeKind.template?_relabel (f : Relabel) (kind : NodeKind) :
    (kind.relabel f).template? = kind.template?.map (Template.relabel f) := by
  cases kind with
  | const value =>
    rw [NodeKind.relabel]
    split
    · unfold NodeKind.ofLiteral
      split <;> rfl
    · rfl
  | _ => rfl

/-- A definition has its place already once it was put there. -/
theorem NodeKind.place_place (location : Location) (kind : NodeKind) :
    kind.place (kind.place location) = kind.place location := by
  cases kind <;> rfl

mutual

theorem Template.relabel_relabel : ∀ t : Template,
    (t.relabel f).relabel g = t.relabel (f.andThen g)
  | ⟨_, _, _, _, _, _, block⟩ => by
    simp only [Template.relabel, Block.relabel_relabel block]
    rfl

theorem Node.relabel_relabel : ∀ node : Node,
    (node.relabel f).relabel g = node.relabel (f.andThen g)
  | ⟨_, location, kind⟩ => by
    simp only [Node.relabel, NodeKind.place_relabel, NodeKind.relabel_relabel kind]
    cases hf : f.tidy <;> cases hg : g.tidy <;>
      simp [Relabel.andThen, hf, hg, NodeKind.place_place]

theorem Node.relabelAll_relabelAll : ∀ nodes : List Node,
    Node.relabelAll g (Node.relabelAll f nodes) = Node.relabelAll (f.andThen g) nodes
  | [] => rfl
  | node :: nodes => by
    simp only [Node.relabelAll, Node.relabel_relabel node, Node.relabelAll_relabelAll nodes]

theorem Node.relabelOpt_relabelOpt : ∀ node : Option Node,
    Node.relabelOpt g (Node.relabelOpt f node) = Node.relabelOpt (f.andThen g) node
  | none => rfl
  | some node => by simp only [Node.relabelOpt, Node.relabel_relabel node]

theorem NodeKind.relabel_relabel : ∀ kind : NodeKind,
    (kind.relabel f).relabel g = kind.relabel (f.andThen g)
  | .text | .noneConst | .trueConst | .falseConst | .var _ | .delVar _ | .breakLoop
  | .continueLoop => rfl
  | .const value => by
    cases hf : f.tidy <;> cases hg : g.tidy <;> simp [NodeKind.relabel, Relabel.andThen, hf, hg]
  | .list items => by simp only [NodeKind.relabel, Node.relabelAll_relabelAll items]
  | .listComp item comp => by
    simp only [NodeKind.relabel, Node.relabel_relabel item, Comprehension.relabel_relabel comp]
  | .dict entries => by simp only [NodeKind.relabel, DictEntry.relabelAll_relabelAll entries]
  | .dictComp key value comp => by
    simp only [NodeKind.relabel, Node.relabel_relabel key, Node.relabel_relabel value,
      Comprehension.relabel_relabel comp]
  | .genExpr item comp => by
    simp only [NodeKind.relabel, Node.relabel_relabel item, Comprehension.relabel_relabel comp]
  | .unary _ operand => by simp only [NodeKind.relabel, Node.relabel_relabel operand]
  | .binary _ left right => by
    simp only [NodeKind.relabel, Node.relabel_relabel left, Node.relabel_relabel right]
  | .getAttr object _ => by simp only [NodeKind.relabel, Node.relabel_relabel object]
  | .getSlice object start stop => by
    simp only [NodeKind.relabel, Node.relabel_relabel object, Node.relabelOpt_relabelOpt start,
      Node.relabelOpt_relabelOpt stop]
  | .callFunc _ args => by simp only [NodeKind.relabel, Node.relabelAll_relabelAll args]
  | .callMeth _ object args => by
    simp only [NodeKind.relabel, Node.relabel_relabel object, Node.relabelAll_relabelAll args]
  | .callMethKeywords _ object args => by
    simp only [NodeKind.relabel, Node.relabel_relabel object,
      KeywordArg.relabelAll_relabelAll args]
  | .print value => by simp only [NodeKind.relabel, Node.relabel_relabel value]
  | .printX value => by simp only [NodeKind.relabel, Node.relabel_relabel value]
  | .render value => by simp only [NodeKind.relabel, Node.relabel_relabel value]
  | .storeVar _ value => by simp only [NodeKind.relabel, Node.relabel_relabel value]
  | .augAssign _ _ value => by simp only [NodeKind.relabel, Node.relabel_relabel value]
  | .forLoop _ container block => by
    simp only [NodeKind.relabel, Node.relabel_relabel container, Block.relabel_relabel block]
  | .chain branches => by simp only [NodeKind.relabel, Block.relabel_relabel branches]
  | .ifBranch condition block => by
    simp only [NodeKind.relabel, Node.relabel_relabel condition, Block.relabel_relabel block]
  | .elifBranch condition block => by
    simp only [NodeKind.relabel, Node.relabel_relabel condition, Block.relabel_relabel block]
  | .elseBranch block => by simp only [NodeKind.relabel, Block.relabel_relabel block]
  | .template t => by simp only [NodeKind.relabel, Template.relabel_relabel t]

theorem Comprehension.relabel_relabel : ∀ comp : Comprehension,
    (comp.relabel f).relabel g = comp.relabel (f.andThen g)
  | ⟨_, container, condition⟩ => by
    simp only [Comprehension.relabel, Node.relabel_relabel container,
      Node.relabelOpt_relabelOpt condition]

theorem DictEntry.relabelAll_relabelAll : ∀ entries : List DictEntry,
    DictEntry.relabelAll g (DictEntry.relabelAll f entries) =
      DictEntry.relabelAll (f.andThen g) entries
  | [] => rfl
  | entry :: entries => by
    simp only [DictEntry.relabelAll, DictEntry.relabel_relabel entry,
      DictEntry.relabelAll_relabelAll entries]

theorem DictEntry.relabel_relabel : ∀ entry : DictEntry,
    (entry.relabel f).relabel g = entry.relabel (f.andThen g)
  | .pair key value => by
    simp only [DictEntry.relabel, Node.relabel_relabel key, Node.relabel_relabel value]
  | .splat mapping => by simp only [DictEntry.relabel, Node.relabel_relabel mapping]

theorem KeywordArg.relabelAll_relabelAll : ∀ args : List KeywordArg,
    KeywordArg.relabelAll g (KeywordArg.relabelAll f args) =
      KeywordArg.relabelAll (f.andThen g) args
  | [] => rfl
  | arg :: args => by
    simp only [KeywordArg.relabelAll, KeywordArg.relabel_relabel arg,
      KeywordArg.relabelAll_relabelAll args]

theorem KeywordArg.relabel_relabel : ∀ arg : KeywordArg,
    (arg.relabel f).relabel g = arg.relabel (f.andThen g)
  | .named _ value => by simp only [KeywordArg.relabel, Node.relabel_relabel value]
  | .splat mapping => by simp only [KeywordArg.relabel, Node.relabel_relabel mapping]

theorem Block.relabel_relabel : ∀ block : Block,
    (block.relabel f).relabel g = block.relabel (f.andThen g)
  | ⟨_, content⟩ => by simp only [Block.relabel, Node.relabelAll_relabelAll content]

end

/-! ## Only the identities that occur matter -/

/-- The same renaming with other identities. -/
def Relabel.onto (f : Relabel) (node template : Nat → Nat) : Relabel := ⟨node, template, f.tidy⟩

/-- A renaming gives an object a certain identity. -/
def Relabel.Agrees (f : Relabel) (ν τ : Nat → Nat) : Object → Prop
  | .node id => f.node id = ν id
  | .template t => f.template t.id = τ t.id

variable {ν τ : Nat → Nat}

mutual

theorem Template.relabel_congr : ∀ t : Template, (∀ o ∈ t.objects, f.Agrees ν τ o) →
    t.relabel f = t.relabel (f.onto ν τ)
  | ⟨id, location, source, name, startDelim, endDelim, block⟩, h => by
    simp only [Template.objects, List.forall_mem_cons] at h
    have hid : f.template id = τ id := h.1
    simp only [Template.relabel, Relabel.onto, hid, Block.relabel_congr block h.2]

theorem Node.relabel_congr : ∀ node : Node, (∀ o ∈ node.objects, f.Agrees ν τ o) →
    node.relabel f = node.relabel (f.onto ν τ)
  | ⟨id, location, kind⟩, h => by
    simp only [Node.objects, List.forall_mem_cons] at h
    have hid : f.node id = ν id := h.1
    rw [Node.relabel, Node.relabel, hid, NodeKind.relabel_congr kind h.2]
    rfl

theorem Node.relabelAll_congr : ∀ nodes : List Node,
    (∀ o ∈ Node.objectsAll nodes, f.Agrees ν τ o) →
      Node.relabelAll f nodes = Node.relabelAll (f.onto ν τ) nodes
  | [], _ => rfl
  | node :: nodes, h => by
    simp only [Node.objectsAll, List.forall_mem_append] at h
    simp only [Node.relabelAll, Node.relabel_congr node h.1, Node.relabelAll_congr nodes h.2]

theorem Node.relabelOpt_congr : ∀ node : Option Node,
    (∀ o ∈ Node.objectsOpt node, f.Agrees ν τ o) →
      Node.relabelOpt f node = Node.relabelOpt (f.onto ν τ) node
  | none, _ => rfl
  | some node, h => by simp only [Node.relabelOpt, Node.relabel_congr node h]

theorem NodeKind.relabel_congr : ∀ kind : NodeKind, (∀ o ∈ kind.objects, f.Agrees ν τ o) →
    kind.relabel f = kind.relabel (f.onto ν τ)
  | .text, _ | .noneConst, _ | .trueConst, _ | .falseConst, _ | .const _, _ | .var _, _
  | .delVar _, _ | .breakLoop, _ | .continueLoop, _ => rfl
  | .list items, h => by simp only [NodeKind.relabel, Node.relabelAll_congr items h]
  | .listComp item comp, h => by
    simp only [NodeKind.objects, List.forall_mem_append] at h
    simp only [NodeKind.relabel, Node.relabel_congr item h.1, Comprehension.relabel_congr comp h.2]
  | .dict entries, h => by simp only [NodeKind.relabel, DictEntry.relabelAll_congr entries h]
  | .dictComp key value comp, h => by
    simp only [NodeKind.objects, List.forall_mem_append] at h
    simp only [NodeKind.relabel, Node.relabel_congr key h.1, Node.relabel_congr value h.2.1,
      Comprehension.relabel_congr comp h.2.2]
  | .genExpr item comp, h => by
    simp only [NodeKind.objects, List.forall_mem_append] at h
    simp only [NodeKind.relabel, Node.relabel_congr item h.1, Comprehension.relabel_congr comp h.2]
  | .unary _ operand, h => by simp only [NodeKind.relabel, Node.relabel_congr operand h]
  | .binary _ left right, h => by
    simp only [NodeKind.objects, List.forall_mem_append] at h
    simp only [NodeKind.relabel, Node.relabel_congr left h.1, Node.relabel_congr right h.2]
  | .getAttr object _, h => by simp only [NodeKind.relabel, Node.relabel_congr object h]
  | .getSlice object start stop, h => by
    simp only [NodeKind.objects, List.forall_mem_append] at h
    simp only [NodeKind.relabel, Node.relabel_congr object h.1, Node.relabelOpt_congr start h.2.1,
      Node.relabelOpt_congr stop h.2.2]
  | .callFunc _ args, h => by simp only [NodeKind.relabel, Node.relabelAll_congr args h]
  | .callMeth _ object args, h => by
    simp only [NodeKind.objects, List.forall_mem_append] at h
    simp only [NodeKind.relabel, Node.relabel_congr object h.1, Node.relabelAll_congr args h.2]
  | .callMethKeywords _ object args, h => by
    simp only [NodeKind.objects, List.forall_mem_append] at h
    simp only [NodeKind.relabel, Node.relabel_congr object h.1,
      KeywordArg.relabelAll_congr args h.2]
  | .print value, h => by simp only [NodeKind.relabel, Node.relabel_congr value h]
  | .printX value, h => by simp only [NodeKind.relabel, Node.relabel_congr value h]
  | .render value, h => by simp only [NodeKind.relabel, Node.relabel_congr value h]
  | .storeVar _ value, h => by simp only [NodeKind.relabel, Node.relabel_congr value h]
  | .augAssign _ _ value, h => by simp only [NodeKind.relabel, Node.relabel_congr value h]
  | .forLoop _ container block, h => by
    simp only [NodeKind.objects, List.forall_mem_append] at h
    simp only [NodeKind.relabel, Node.relabel_congr container h.1, Block.relabel_congr block h.2]
  | .chain branches, h => by simp only [NodeKind.relabel, Block.relabel_congr branches h]
  | .ifBranch condition block, h => by
    simp only [NodeKind.objects, List.forall_mem_append] at h
    simp only [NodeKind.relabel, Node.relabel_congr condition h.1, Block.relabel_congr block h.2]
  | .elifBranch condition block, h => by
    simp only [NodeKind.objects, List.forall_mem_append] at h
    simp only [NodeKind.relabel, Node.relabel_congr condition h.1, Block.relabel_congr block h.2]
  | .elseBranch block, h => by simp only [NodeKind.relabel, Block.relabel_congr block h]
  | .template t, h => by simp only [NodeKind.relabel, Template.relabel_congr t h]

theorem Comprehension.relabel_congr : ∀ comp : Comprehension,
    (∀ o ∈ comp.objects, f.Agrees ν τ o) → comp.relabel f = comp.relabel (f.onto ν τ)
  | ⟨_, container, condition⟩, h => by
    simp only [Comprehension.objects, List.forall_mem_append] at h
    simp only [Comprehension.relabel, Node.relabel_congr container h.1,
      Node.relabelOpt_congr condition h.2]

theorem DictEntry.relabelAll_congr : ∀ entries : List DictEntry,
    (∀ o ∈ DictEntry.objectsAll entries, f.Agrees ν τ o) →
      DictEntry.relabelAll f entries = DictEntry.relabelAll (f.onto ν τ) entries
  | [], _ => rfl
  | entry :: entries, h => by
    simp only [DictEntry.objectsAll, List.forall_mem_append] at h
    simp only [DictEntry.relabelAll, DictEntry.relabel_congr entry h.1,
      DictEntry.relabelAll_congr entries h.2]

theorem DictEntry.relabel_congr : ∀ entry : DictEntry, (∀ o ∈ entry.objects, f.Agrees ν τ o) →
    entry.relabel f = entry.relabel (f.onto ν τ)
  | .pair key value, h => by
    simp only [DictEntry.objects, List.forall_mem_append] at h
    simp only [DictEntry.relabel, Node.relabel_congr key h.1, Node.relabel_congr value h.2]
  | .splat mapping, h => by simp only [DictEntry.relabel, Node.relabel_congr mapping h]

theorem KeywordArg.relabelAll_congr : ∀ args : List KeywordArg,
    (∀ o ∈ KeywordArg.objectsAll args, f.Agrees ν τ o) →
      KeywordArg.relabelAll f args = KeywordArg.relabelAll (f.onto ν τ) args
  | [], _ => rfl
  | arg :: args, h => by
    simp only [KeywordArg.objectsAll, List.forall_mem_append] at h
    simp only [KeywordArg.relabelAll, KeywordArg.relabel_congr arg h.1,
      KeywordArg.relabelAll_congr args h.2]

theorem KeywordArg.relabel_congr : ∀ arg : KeywordArg, (∀ o ∈ arg.objects, f.Agrees ν τ o) →
    arg.relabel f = arg.relabel (f.onto ν τ)
  | .named _ value, h => by simp only [KeywordArg.relabel, Node.relabel_congr value h]
  | .splat mapping, h => by simp only [KeywordArg.relabel, Node.relabel_congr mapping h]

theorem Block.relabel_congr : ∀ block : Block, (∀ o ∈ block.objects, f.Agrees ν τ o) →
    block.relabel f = block.relabel (f.onto ν τ)
  | ⟨_, content⟩, h => by simp only [Block.relabel, Node.relabelAll_congr content h]

end

/-! ## Objects below objects -/

section Objects

/-- A list that is part of the half in which an object lies is part of the whole. -/
theorem sublist_of_mem_append {o : Object} {os l k : List Object} (h : o ∈ l ++ k)
    (hl : o ∈ l → os.Sublist l) (hk : o ∈ k → os.Sublist k) : os.Sublist (l ++ k) := by
  rcases List.mem_append.1 h with h | h
  · exact (hl h).trans (List.sublist_append_left l k)
  · exact (hk h).trans (List.sublist_append_right l k)

variable {t : Template}

mutual

theorem Template.objects_sublist : ∀ {u : Template}, .template t ∈ u.objects →
    t.objects.Sublist u.objects
  | ⟨id, location, source, name, startDelim, endDelim, block⟩, h => by
    rw [Template.objects] at h ⊢
    rcases List.mem_cons.1 h with h | h
    · cases h
      unfold Template.objects
      exact List.Sublist.refl _
    · exact (Block.objects_sublist h).cons _

theorem Node.objects_sublist : ∀ {n : Node}, .template t ∈ n.objects →
    t.objects.Sublist n.objects
  | ⟨id, location, kind⟩, h => by
    rw [Node.objects] at h ⊢
    rcases List.mem_cons.1 h with h | h
    · cases h
    · exact (NodeKind.objects_sublist h).cons _

theorem Node.objectsAll_sublist : ∀ {l : List Node}, .template t ∈ Node.objectsAll l →
    t.objects.Sublist (Node.objectsAll l)
  | _ :: _, h => sublist_of_mem_append h Node.objects_sublist Node.objectsAll_sublist

theorem Node.objectsOpt_sublist : ∀ {node : Option Node}, .template t ∈ Node.objectsOpt node →
    t.objects.Sublist (Node.objectsOpt node)
  | some node, h => Node.objects_sublist (n := node) h

theorem NodeKind.objects_sublist : ∀ {kind : NodeKind}, .template t ∈ kind.objects →
    t.objects.Sublist kind.objects
  | .list items, h => Node.objectsAll_sublist (l := items) h
  | .listComp item _, h =>
    sublist_of_mem_append (l := item.objects) h Node.objects_sublist Comprehension.objects_sublist
  | .dict entries, h => DictEntry.objectsAll_sublist (l := entries) h
  | .dictComp key _ _, h =>
    sublist_of_mem_append (l := key.objects) h Node.objects_sublist fun h =>
      sublist_of_mem_append h Node.objects_sublist Comprehension.objects_sublist
  | .genExpr item _, h =>
    sublist_of_mem_append (l := item.objects) h Node.objects_sublist Comprehension.objects_sublist
  | .unary _ operand, h => Node.objects_sublist (n := operand) h
  | .binary _ left _, h =>
    sublist_of_mem_append (l := left.objects) h Node.objects_sublist Node.objects_sublist
  | .getAttr object _, h => Node.objects_sublist (n := object) h
  | .getSlice object _ _, h =>
    sublist_of_mem_append (l := object.objects) h Node.objects_sublist fun h =>
      sublist_of_mem_append h Node.objectsOpt_sublist Node.objectsOpt_sublist
  | .callFunc _ args, h => Node.objectsAll_sublist (l := args) h
  | .callMeth _ object _, h =>
    sublist_of_mem_append (l := object.objects) h Node.objects_sublist Node.objectsAll_sublist
  | .callMethKeywords _ object _, h =>
    sublist_of_mem_append (l := object.objects) h Node.objects_sublist
      KeywordArg.objectsAll_sublist
  | .print value, h => Node.objects_sublist (n := value) h
  | .printX value, h => Node.objects_sublist (n := value) h
  | .render value, h => Node.objects_sublist (n := value) h
  | .storeVar _ value, h => Node.objects_sublist (n := value) h
  | .augAssign _ _ value, h => Node.objects_sublist (n := value) h
  | .forLoop _ container _, h =>
    sublist_of_mem_append (l := container.objects) h Node.objects_sublist Block.objects_sublist
  | .chain branches, h => Block.objects_sublist (b := branches) h
  | .ifBranch condition _, h =>
    sublist_of_mem_append (l := condition.objects) h Node.objects_sublist Block.objects_sublist
  | .elifBranch condition _, h =>
    sublist_of_mem_append (l := condition.objects) h Node.objects_sublist Block.objects_sublist
  | .elseBranch block, h => Block.objects_sublist (b := block) h
  | .template u, h => Template.objects_sublist (u := u) h

theorem Comprehension.objects_sublist : ∀ {comp : Comprehension}, .template t ∈ comp.objects →
    t.objects.Sublist comp.objects
  | ⟨_, container, _⟩, h =>
    sublist_of_mem_append (l := container.objects) h Node.objects_sublist Node.objectsOpt_sublist

theorem DictEntry.objectsAll_sublist : ∀ {l : List DictEntry},
    .template t ∈ DictEntry.objectsAll l → t.objects.Sublist (DictEntry.objectsAll l)
  | _ :: _, h => sublist_of_mem_append h DictEntry.objects_sublist DictEntry.objectsAll_sublist

theorem DictEntry.objects_sublist : ∀ {entry : DictEntry}, .template t ∈ entry.objects →
    t.objects.Sublist entry.objects
  | .pair key _, h =>
    sublist_of_mem_append (l := key.objects) h Node.objects_sublist Node.objects_sublist
  | .splat mapping, h => Node.objects_sublist (n := mapping) h

theorem KeywordArg.objectsAll_sublist : ∀ {args : List KeywordArg},
    .template t ∈ KeywordArg.objectsAll args → t.objects.Sublist (KeywordArg.objectsAll args)
  | _ :: _, h => sublist_of_mem_append h KeywordArg.objects_sublist KeywordArg.objectsAll_sublist

theorem KeywordArg.objects_sublist : ∀ {arg : KeywordArg}, .template t ∈ arg.objects →
    t.objects.Sublist arg.objects
  | .named _ value, h => Node.objects_sublist (n := value) h
  | .splat mapping, h => Node.objects_sublist (n := mapping) h

theorem Block.objects_sublist : ∀ {b : Block}, .template t ∈ b.objects →
    t.objects.Sublist b.objects
  | ⟨_, content⟩, h => Node.objectsAll_sublist (l := content) h

end

theorem Template.objects_eq (t : Template) : t.objects = .template t :: t.block.objects := by
  obtain ⟨id, location, source, name, startDelim, endDelim, block⟩ := t
  rw [Template.objects]

/-- No template contains itself. -/
theorem Template.not_mem_block (t : Template) : .template t ∉ t.block.objects := by
  intro h
  have hle := (Block.objects_sublist h).length_le
  rw [t.objects_eq, List.length_cons] at hle
  omega

end Objects

end Templating
