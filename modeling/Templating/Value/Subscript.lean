import Templating.Error
import Templating.Text.Search
import Templating.Value.Arithmetic
import Templating.Value.Equality
import Templating.Value.Text

/-!
# Membership, subscription and slices

* `Value.contains`: whether a value is in a container.
* `Value.getItem`: the item of a container at an index or under a key.
* `sliceBounds`, `Value.getSlice`: the part of a string or list between two bounds.
-/

namespace Templating

/-- A bound counted from the end if it is negative, cut to the positions of a sequence. -/
def clampBound (length : Nat) (bound : Int64) : Nat :=
  let b := bound.toInt
  if b < 0 then (b + length).toNat else min b.toNat length

/-- The positions between two bounds: from the first component up to the second, which is never
smaller. A missing bound is an end of the sequence. -/
def sliceBounds (length : Nat) (start stop : Option Int64) : Nat × Nat :=
  let lo := (start.map (clampBound length)).getD 0
  let hi := (stop.map (clampBound length)).getD length
  (lo, max lo hi)

/-- The items between two bounds. -/
def sliceList {α : Type} (items : List α) (start stop : Option Int64) : List α :=
  let (lo, hi) := sliceBounds items.length start stop
  (items.drop lo).take (hi - lo)

namespace Value

/-- The item at an index; a negative index counts from the end. -/
def itemAt {α : Type} (items : List α) (index : Int64) : Except Cause α :=
  let i := index.toInt
  let position := if i < 0 then i + items.length else i
  match if position < 0 then Option.none else items[position.toNat]? with
  | some item => .ok item
  | .none => .error (.indexOutOfRange index)

/-- The channels of a color as values. -/
def channels (c : Color) : List Value := c.channels.map fun n => ofNat n.toNat

/-- Whether a value is in a container: a part of a string, an item of a list, a key of a dict, or a
channel of a color. -/
def contains (item container : Value) : Except Cause Bool :=
  match container with
  | str hay =>
    match item with
    | str needle => .ok (Text.contains needle.toList hay.toList)
    | item => .error (.binaryUnsupported item.typeName .contains "str")
  | list items => .ok (item.member items)
  | dict entries => .ok ((item.asStr?.map (Bindings.contains · entries)).getD false)
  | color c => .ok (item.member (channels c))
  | container => .error (.notContainer container.typeName)

/-- An index as a word. -/
def indexOf (container index : Value) : Except Cause Int64 :=
  match index.asInt? with
  | some i => .ok i
  | .none => .error (unsupported container .getItem index)

/-- The item of a container. -/
def getItem (container index : Value) : Except Cause Value :=
  match container with
  | dict entries =>
    match index.asStr?.bind (Bindings.lookup? · entries) with
    | some value => .ok value
    | .none => .error (.keyNotFound index.repr)
  | str s => do
    let c ← itemAt s.toList (← indexOf container index)
    return str (String.singleton c)
  | list items => do itemAt items (← indexOf container index)
  | color c => do itemAt (channels c) (← indexOf container index)
  | container => .error (.notSubscriptable container.typeName)

/-- The part of a string or list between two bounds. -/
def getSlice (container : Value) (start stop : Option Int64) : Except Cause Value :=
  match container with
  | str s => .ok (str (String.ofList (sliceList s.toList start stop)))
  | list items => .ok (list (sliceList items start stop))
  | container => .error (.notSubscriptable container.typeName)

end Value

end Templating
