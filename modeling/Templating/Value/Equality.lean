import Templating.Value.Basic

/-!
# Equality of values

Numbers are equal when their values are, whatever their types; an integer is compared with a float
as the nearest float. Lists are equal item by item and dicts entry by entry, whatever the order of
the entries. Templates and iterators are equal to themselves alone.

* `Value.equal`: equality.
* `Value.member`: whether an equal value is in a list.
-/

namespace Templating

/-- Equality of numbers; `none` if one of the values is no number. -/
def Value.numbersEqual? (a b : Value) : Option Bool :=
  match a.asInt?, b.asInt? with
  | some m, some n => some (m = n)
  | _, _ =>
    match a.asFloat?, b.asFloat? with
    | some x, some y => some (x == y)
    | _, _ => .none

mutual

/-- Whether two values are equal. -/
def Value.equal (a b : Value) : Bool :=
  match a with
  | .none => b.isNone
  | .str s => match b with
    | .str t => s = t
    | _ => false
  | .list xs => match b with
    | .list ys => Value.listEqual xs ys
    | _ => false
  | .dict xs => match b with
    | .dict ys => xs.length = ys.length && Value.entriesEqual xs ys
    | _ => false
  | .date d => match b with
    | .date e => d = e
    | _ => false
  | .duration d => match b with
    | .duration e => d = e
    | _ => false
  | .months m => match b with
    | .months n => m = n
    | _ => false
  | .color c => match b with
    | .color d => c = d
    | _ => false
  | .template t => match b with
    | .template u => t.id = u.id
    | _ => false
  | .iterator h => match b with
    | .iterator i => h = i
    | _ => false
  | .bool _ | .int _ | .float _ => (a.numbersEqual? b).getD false

/-- Whether two lists are equal item by item. -/
def Value.listEqual : List Value → List Value → Bool
  | [], [] => true
  | x :: xs, y :: ys => x.equal y && Value.listEqual xs ys
  | _, _ => false

/-- Whether each entry has an equal one among others. -/
def Value.entriesEqual : List (String × Value) → List (String × Value) → Bool
  | [], _ => true
  | (key, x) :: xs, others =>
    (match Bindings.lookup? key others with
      | some y => x.equal y
      | .none => false) && Value.entriesEqual xs others

end

/-- Whether an equal value is in a list. -/
def Value.member (value : Value) (items : List Value) : Bool := items.any (·.equal value)

end Templating
