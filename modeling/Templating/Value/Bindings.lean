/-!
# Bindings in order

A list of pairs of a name and a value, in order of definition, each name at most once. It is the
content of a dict and of a scope.

* `lookup?`, `insert`, `erase`, `merge`, `ofList`: the operations.
* `keys_insert`, `lookup?_insert_self`, `lookup?_insert_of_ne`: what an insertion does to the names
  and to the values.
-/

namespace Templating.Bindings

variable {α : Type}

/-- The value bound to a name. -/
def lookup? (name : String) (bs : List (String × α)) : Option α := bs.lookup name

/-- Whether a name is bound. -/
def contains (name : String) (bs : List (String × α)) : Bool := (lookup? name bs).isSome

/-- Binds a name. A name that is bound keeps its place, another one comes last. -/
def insert (name : String) (value : α) : List (String × α) → List (String × α)
  | [] => [(name, value)]
  | (k, v) :: bs => if k = name then (name, value) :: bs else (k, v) :: insert name value bs

/-- Removes the binding of a name; the others keep their order. -/
def erase (name : String) : List (String × α) → List (String × α)
  | [] => []
  | (k, v) :: bs => if k = name then bs else (k, v) :: erase name bs

/-- Binds the names of a second list one after another. -/
def merge (bs news : List (String × α)) : List (String × α) :=
  news.foldl (fun acc b => insert b.1 b.2 acc) bs

/-- Bindings from pairs; a repeated name keeps its first place and takes its last value. -/
def ofList (pairs : List (String × α)) : List (String × α) := merge [] pairs

theorem keys_insert (name : String) (value : α) (bs : List (String × α)) :
    (insert name value bs).map Prod.fst =
      if name ∈ bs.map Prod.fst then bs.map Prod.fst else bs.map Prod.fst ++ [name] := by
  induction bs with
  | nil => simp [insert]
  | cons b bs ih =>
    obtain ⟨k, v⟩ := b
    by_cases h : k = name
    · simp [insert, h]
    · by_cases hm : name ∈ bs.map Prod.fst <;> simp_all [insert, Ne.symm h]

theorem lookup?_insert_self (name : String) (value : α) (bs : List (String × α)) :
    lookup? name (insert name value bs) = some value := by
  induction bs with
  | nil => simp [insert, lookup?]
  | cons b bs ih =>
    obtain ⟨k, v⟩ := b
    by_cases h : k = name
    · simp [insert, lookup?, h]
    · have h' : (name == k) = false := by simpa using Ne.symm h
      simpa [insert, lookup?, h, h', List.lookup_cons] using ih

theorem lookup?_insert_of_ne {name other : String} (h : other ≠ name) (value : α)
    (bs : List (String × α)) : lookup? other (insert name value bs) = lookup? other bs := by
  induction bs with
  | nil =>
    have h' : (other == name) = false := by simpa using h
    simp [insert, lookup?, List.lookup_cons, h']
  | cons b bs ih =>
    obtain ⟨k, v⟩ := b
    by_cases hk : k = name
    · have h' : (other == name) = false := by simpa using h
      simp [insert, lookup?, hk, List.lookup_cons, h']
    · simp only [lookup?] at ih
      by_cases ho : other == k <;> simp [insert, lookup?, hk, List.lookup_cons, ho, ih]

end Templating.Bindings
