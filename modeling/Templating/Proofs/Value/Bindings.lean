import Templating.Value.Bindings

/-!
# The names in bindings

* `nodup_keys_ofList`: bindings made from pairs have each name once.
* `mem_ofList`: they are some of the pairs.
* `ofList_of_nodup`: pairs with distinct names are bindings already.
* `exists_split`, `insert_split`, `erase_split`: what the operations do to the binding of a name.
* `keys_merge`, `lookup?_merge`: the names of a merge and their values.
* `insert_mapValues` and so on: the operations do not look at the values.
-/

namespace Templating.Bindings

variable {α : Type} {name other : String} {value old : α}
  {bs news pairs before after : List (String × α)}

theorem nodup_keys_insert (h : (bs.map Prod.fst).Nodup) :
    ((insert name value bs).map Prod.fst).Nodup := by
  rw [keys_insert]
  split
  · exact h
  · rename_i hname
    refine List.nodup_append.2 ⟨h, by simp, ?_⟩
    rintro k hk _ hk' rfl
    exact hname (List.mem_singleton.1 hk' ▸ hk)

theorem nodup_keys_merge (h : (bs.map Prod.fst).Nodup) : ((merge bs news).map Prod.fst).Nodup := by
  induction news generalizing bs with
  | nil => exact h
  | cons b news ih => exact ih (nodup_keys_insert h)

/-- Bindings made from pairs have each name once. -/
theorem nodup_keys_ofList (pairs : List (String × α)) : ((ofList pairs).map Prod.fst).Nodup :=
  nodup_keys_merge (by simp)

theorem mem_insert {b : String × α} (h : b ∈ insert name value bs) :
    b = (name, value) ∨ b ∈ bs := by
  induction bs with
  | nil => exact .inl (List.mem_singleton.1 h)
  | cons c bs ih =>
    rw [insert] at h
    split at h <;> rcases List.mem_cons.1 h with h | h
    · exact .inl h
    · exact .inr (List.mem_cons_of_mem c h)
    · exact .inr (h ▸ List.mem_cons_self)
    · exact (ih h).imp id (List.mem_cons_of_mem c)

theorem mem_merge {b : String × α} (h : b ∈ merge bs news) : b ∈ bs ∨ b ∈ news := by
  induction news generalizing bs with
  | nil => exact .inl h
  | cons c news ih =>
    rcases ih h with h | h
    · rcases mem_insert h with h | h
      · exact .inr (h ▸ List.mem_cons_self)
      · exact .inl h
    · exact .inr (List.mem_cons_of_mem c h)

/-- Bindings made from pairs are some of them. -/
theorem mem_ofList {b : String × α} (h : b ∈ ofList pairs) : b ∈ pairs :=
  (mem_merge h).resolve_left List.not_mem_nil

theorem mem_of_lookup? (h : lookup? name bs = some value) : (name, value) ∈ bs := by
  obtain ⟨before, after, rfl, -⟩ := List.lookup_eq_some_iff.1 h
  simp

/-- With each name once, the value of a name is the one that is bound to it. -/
theorem lookup?_eq_some_iff (hkeys : (bs.map Prod.fst).Nodup) :
    lookup? name bs = some value ↔ (name, value) ∈ bs := by
  refine ⟨mem_of_lookup?, fun hmem => ?_⟩
  obtain ⟨before, after, rfl⟩ := List.append_of_mem hmem
  refine List.lookup_eq_some_iff.2 ⟨before, after, rfl, fun b hb => ?_⟩
  have hne : b.1 ≠ name := by
    rw [List.map_append, List.nodup_append] at hkeys
    exact hkeys.2.2 b.1 (List.mem_map_of_mem hb) name (by simp)
  simpa using hne.symm

/-- A name has a value exactly if it is among the names. -/
theorem isSome_lookup? : (lookup? name bs).isSome ↔ name ∈ bs.map Prod.fst := by
  constructor
  · intro h
    obtain ⟨value, hvalue⟩ := Option.isSome_iff_exists.1 h
    exact List.mem_map_of_mem (mem_of_lookup? hvalue)
  · intro h
    obtain ⟨b, hb, rfl⟩ := List.mem_map.1 h
    refine Option.isSome_iff_ne_none.2 fun hnone => ?_
    have hne := List.lookup_eq_none_iff.1 hnone b hb
    simp at hne

theorem lookup?_eq_none_iff : lookup? name bs = none ↔ name ∉ bs.map Prod.fst := by
  rw [← isSome_lookup?, Option.not_isSome_iff_eq_none]

theorem lookup?_append (name : String) (bs news : List (String × α)) :
    lookup? name (bs ++ news) = (lookup? name bs).or (lookup? name news) :=
  List.lookup_append

/-- The first binding of a name that has a value. -/
theorem exists_split (h : lookup? name bs = some value) :
    ∃ before after, bs = before ++ (name, value) :: after ∧ name ∉ before.map Prod.fst := by
  obtain ⟨before, after, rfl, hbefore⟩ := List.lookup_eq_some_iff.1 h
  refine ⟨before, after, rfl, fun hmem => ?_⟩
  obtain ⟨b, hb, rfl⟩ := List.mem_map.1 hmem
  have hne := hbefore b hb
  simp at hne

/-- A bound name takes another value where it stands. -/
theorem insert_split (h : name ∉ before.map Prod.fst) :
    insert name value (before ++ (name, old) :: after) = before ++ (name, value) :: after := by
  induction before with
  | nil => rw [List.nil_append, insert, if_pos rfl, List.nil_append]
  | cons b before ih =>
    simp only [List.map_cons, List.mem_cons, not_or] at h
    rw [List.cons_append, insert, if_neg (Ne.symm h.1), ih h.2, List.cons_append]

/-- The binding of a name goes, and the others stay where they are. -/
theorem erase_split (h : name ∉ before.map Prod.fst) :
    erase name (before ++ (name, old) :: after) = before ++ after := by
  induction before with
  | nil => rw [List.nil_append, erase, if_pos rfl, List.nil_append]
  | cons b before ih =>
    simp only [List.map_cons, List.mem_cons, not_or] at h
    rw [List.cons_append, erase, if_neg (Ne.symm h.1), ih h.2, List.cons_append]

theorem insert_of_not_mem (h : name ∉ bs.map Prod.fst) :
    insert name value bs = bs ++ [(name, value)] := by
  induction bs with
  | nil => rfl
  | cons b bs ih =>
    simp only [List.map_cons, List.mem_cons, not_or] at h
    rw [insert, if_neg (Ne.symm h.1), ih h.2, List.cons_append]

theorem merge_of_nodup (h : ((bs ++ news).map Prod.fst).Nodup) : merge bs news = bs ++ news := by
  induction news generalizing bs with
  | nil => simp [merge]
  | cons b news ih =>
    have hb : b.1 ∉ bs.map Prod.fst := by
      rw [List.map_append, List.nodup_append] at h
      intro hmem
      exact h.2.2 b.1 hmem b.1 (by simp) rfl
    have hrest : merge bs (b :: news) = merge (bs ++ [b]) news := by
      rw [merge, List.foldl_cons, insert_of_not_mem hb]
      rfl
    rw [hrest, ih (by simpa using h), List.append_assoc, List.singleton_append]

theorem eraseDups_of_nodup {keys : List String} (h : keys.Nodup) : keys.eraseDups = keys := by
  induction keys with
  | nil => rfl
  | cons key keys ih =>
    obtain ⟨hkey, hkeys⟩ := List.nodup_cons.1 h
    have hkeep : keys.filter (fun other => !other == key) = keys := by
      refine List.filter_eq_self.2 fun other hother => ?_
      have hne : other ≠ key := fun heq => hkey (heq ▸ hother)
      simpa using hne
    rw [List.eraseDups_cons, hkeep, ih hkeys]

/-- A merge has the names in the order in which they are first met. -/
theorem keys_merge (h : (bs.map Prod.fst).Nodup) :
    (merge bs news).map Prod.fst = (bs.map Prod.fst ++ news.map Prod.fst).eraseDups := by
  induction news generalizing bs with
  | nil => simp [merge, eraseDups_of_nodup h]
  | cons b news ih =>
    have hmerge : merge bs (b :: news) = merge (insert b.1 b.2 bs) news := rfl
    rw [hmerge, ih (nodup_keys_insert h), keys_insert]
    by_cases hb : b.1 ∈ bs.map Prod.fst
    · rw [if_pos hb, List.eraseDups_append, List.eraseDups_append, List.map_cons]
      simp only [List.removeAll, List.filter_cons, List.elem_eq_mem, hb, decide_true, Bool.not_true,
        Bool.false_eq_true, if_false]
    · rw [if_neg hb, List.append_assoc, List.singleton_append, List.map_cons]

/-- In a merge the later value of a name counts. -/
theorem lookup?_merge (hnews : (news.map Prod.fst).Nodup) (name : String) :
    lookup? name (merge bs news) = (lookup? name news).or (lookup? name bs) := by
  induction news generalizing bs with
  | nil => rfl
  | cons b news ih =>
    obtain ⟨key, v⟩ := b
    obtain ⟨hkey, hnews⟩ := List.nodup_cons.1 hnews
    have hmerge : merge bs ((key, v) :: news) = merge (insert key v bs) news := rfl
    rw [hmerge, ih hnews]
    by_cases hname : name = key
    · rw [hname, lookup?_eq_none_iff.2 hkey, lookup?_insert_self]
      simp [lookup?]
    · have hskip : (name == key) = false := by simpa using hname
      rw [lookup?_insert_of_ne hname]
      simp only [lookup?, List.lookup_cons, hskip]

/-- In a merge the last value of a name counts, also if it is repeated. -/
theorem lookup?_merge_reverse (bs news : List (String × α)) (name : String) :
    lookup? name (merge bs news) = (lookup? name news.reverse).or (lookup? name bs) := by
  induction news generalizing bs with
  | nil => rfl
  | cons b news ih =>
    obtain ⟨key, v⟩ := b
    have hmerge : merge bs ((key, v) :: news) = merge (insert key v bs) news := rfl
    rw [hmerge, ih, List.reverse_cons, lookup?_append, Option.or_assoc]
    congr 1
    by_cases hname : name = key
    · rw [hname, lookup?_insert_self]
      simp [lookup?]
    · have hskip : (name == key) = false := by simpa using hname
      rw [lookup?_insert_of_ne hname]
      simp only [lookup?, List.lookup_cons, hskip, List.lookup_nil, Option.none_or]

/-- Bindings with distinct names are taken as they are. -/
theorem ofList_of_nodup (h : (bs.map Prod.fst).Nodup) : ofList bs = bs := by
  rw [ofList, merge_of_nodup (by simpa using h), List.nil_append]

/-! ## Other values -/

section

variable {β : Type} (f : α → β)

/-- Bindings with a function applied to each value. -/
def mapValues (bs : List (String × α)) : List (String × β) := bs.map fun b => (b.1, f b.2)

theorem lookup?_mapValues (name : String) (bs : List (String × α)) :
    lookup? name (mapValues f bs) = (lookup? name bs).map f := by
  induction bs with
  | nil => rfl
  | cons b bs ih =>
    obtain ⟨k, v⟩ := b
    simp only [lookup?, mapValues, List.map_cons, List.lookup_cons] at ih ⊢
    cases name == k with
    | true => rfl
    | false => exact ih

theorem contains_mapValues (name : String) (bs : List (String × α)) :
    contains name (mapValues f bs) = contains name bs := by
  rw [contains, contains, lookup?_mapValues, Option.isSome_map]

theorem insert_mapValues (name : String) (value : α) (bs : List (String × α)) :
    insert name (f value) (mapValues f bs) = mapValues f (insert name value bs) := by
  induction bs with
  | nil => rfl
  | cons b bs ih =>
    obtain ⟨k, v⟩ := b
    rw [mapValues, List.map_cons, insert, insert]
    by_cases h : k = name
    · rw [if_pos h, if_pos h]
      rfl
    · rw [if_neg h, if_neg h]
      exact congrArg _ ih

theorem erase_mapValues (name : String) (bs : List (String × α)) :
    erase name (mapValues f bs) = mapValues f (erase name bs) := by
  induction bs with
  | nil => rfl
  | cons b bs ih =>
    obtain ⟨k, v⟩ := b
    rw [mapValues, List.map_cons, erase, erase]
    by_cases h : k = name
    · rw [if_pos h, if_pos h]
      rfl
    · rw [if_neg h, if_neg h]
      exact congrArg _ ih

theorem merge_mapValues (bs news : List (String × α)) :
    merge (mapValues f bs) (mapValues f news) = mapValues f (merge bs news) := by
  unfold merge
  induction news generalizing bs with
  | nil => rfl
  | cons b news ih =>
    obtain ⟨k, v⟩ := b
    have hinsert := insert_mapValues f k v bs
    simp only [mapValues, List.map_cons, List.foldl_cons] at ih hinsert ⊢
    rw [hinsert, ih]

end

end Templating.Bindings
