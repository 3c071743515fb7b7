import Templating.Value.Basic

/-!
# Variables

A stack of scopes. Names are looked up from the innermost scope outward and bound in the innermost
one. There is always at least one scope.

* `push`, `pop`, `lookup?`, `bind`, `remove?`: the operations.
* `snapshot`: all visible bindings.
* `pop_push`, `depth_bind`, `lookup?_bind_self`: what the operations do to one another.
-/

namespace Templating

/-- The bindings of one scope, in order of definition. -/
abbrev Scope := List (String × Value)

/-- A stack of scopes. -/
structure Environment where
  inner : Scope
  /-- The other scopes, from the second innermost outward. -/
  outer : List Scope

namespace Environment

/-- A single scope with some variables. -/
def ofVars (vars : Scope) : Environment := ⟨vars, []⟩

/-- The scopes from the innermost outward. -/
def scopes (e : Environment) : List Scope := e.inner :: e.outer

/-- The number of scopes. -/
def depth (e : Environment) : Nat := e.scopes.length

/-- The environment with an empty scope inside. -/
def push (e : Environment) : Environment := ⟨[], e.inner :: e.outer⟩

/-- The environment without its innermost scope; the last scope stays. -/
def pop (e : Environment) : Environment :=
  match e.outer with
  | [] => e
  | scope :: outer => ⟨scope, outer⟩

/-- The value of a name in the innermost scope that binds it. -/
def lookup? (e : Environment) (name : String) : Option Value :=
  e.scopes.findSome? (Bindings.lookup? name)

/-- Binds a name in the innermost scope. -/
def bind (e : Environment) (name : String) (value : Value) : Environment :=
  { e with inner := Bindings.insert name value e.inner }

/-- Removes a name from the first of some scopes that binds it. -/
def removeFrom (name : String) : List Scope → Option (Value × List Scope)
  | [] => none
  | scope :: outer =>
    match Bindings.lookup? name scope with
    | some value => some (value, Bindings.erase name scope :: outer)
    | none => (removeFrom name outer).map fun (value, outer) => (value, scope :: outer)

/-- Removes a name from the innermost scope that binds it. -/
def remove? (e : Environment) (name : String) : Option (Value × Environment) :=
  match Bindings.lookup? name e.inner with
  | some value => some (value, { e with inner := Bindings.erase name e.inner })
  | none => (removeFrom name e.outer).map fun (value, outer) => (value, { e with outer })

/-- All visible bindings: those of outer scopes come first, and inner ones replace their values. -/
def snapshot (e : Environment) : Scope := e.scopes.reverse.foldl Bindings.merge []

@[simp] theorem pop_push (e : Environment) : e.push.pop = e := rfl

@[simp] theorem depth_push (e : Environment) : e.push.depth = e.depth + 1 := rfl

@[simp] theorem depth_bind (e : Environment) (name : String) (value : Value) :
    (e.bind name value).depth = e.depth := rfl

theorem lookup?_bind_self (e : Environment) (name : String) (value : Value) :
    (e.bind name value).lookup? name = some value := by
  simp [lookup?, scopes, bind, Bindings.lookup?_insert_self]

theorem lookup?_bind_of_ne (e : Environment) {name other : String} (h : other ≠ name)
    (value : Value) : (e.bind name value).lookup? other = e.lookup? other := by
  simp only [lookup?, scopes, bind, List.findSome?_cons, Bindings.lookup?_insert_of_ne h]

end Environment

end Templating
