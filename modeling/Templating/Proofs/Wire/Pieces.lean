import Templating.Proofs.Action
import Templating.Wire.Loading

/-!
# What the pieces of items read

* `Reader.behind`, `Reader.facing`: the reader after a stretch, and before another text.
* `skipBlanks_apply`, `next?_cons`, `closes_true`, `closes_false`, `expect_apply`,
  `readNumber_apply`, `readText_apply`: what an action does before a text of the right form.
* `Registry.get?_builtin`: the loaders of the built-in registry.
-/

namespace Templating.Wire

open Text

variable {α β : Type}

@[simp] theorem pure_apply (a : α) (r : Reader) : (pure a : Read α) r = .ok a r := rfl

@[simp] theorem failAt_apply (offset : Nat) (message : String) (r : Reader) :
    (failAt offset message : Read α) r = .error (.malformed offset message) r := rfl

@[simp] theorem failHere_apply (message : String) (r : Reader) :
    (failHere message : Read α) r = .error (.malformed r.offset message) r := rfl

/-! ## Moving the reader -/

/-- The reader with another text before it. -/
def Reader.facing (r : Reader) (rest : List Char) : Reader := { r with rest }

@[simp] theorem Reader.facing_rest (r : Reader) : r.facing r.rest = r := rfl

/-- The reader behind a stretch, with some rest before it. -/
def Reader.behind (r : Reader) (p rest : List Char) : Reader :=
  { r with rest, offset := r.offset + byteLength p }

@[simp] theorem Reader.behind_rest (r : Reader) (p rest : List Char) :
    (r.behind p rest).rest = rest := rfl

/-- Moving over a stretch. -/
theorem Reader.skip_length {r : Reader} {p q : List Char} (h : r.rest = p ++ q) :
    r.skip p.length = r.behind p q := by
  simp [Reader.skip, Reader.behind, h]

/-- The run of characters of a class that a text begins with. -/
theorem takeWhile_append {p : Char → Bool} {cs rest : List Char} (hcs : ∀ c ∈ cs, p c)
    (hrest : ∀ c, rest.head? = some c → p c = false) : (cs ++ rest).takeWhile p = cs := by
  rw [List.takeWhile_append_of_pos hcs]
  cases rest with
  | nil => simp
  | cons c rest => simp [hrest c rfl]

theorem of_mem_takeWhile {p : Char → Bool} {cs : List Char} {c : Char}
    (h : c ∈ cs.takeWhile p) : p c :=
  List.all_eq_true.1 List.all_takeWhile c h

theorem of_head?_dropWhile {p : Char → Bool} {cs : List Char} {c : Char}
    (h : (cs.dropWhile p).head? = some c) : p c = false := by
  have := List.head?_dropWhile_not p cs
  rw [h] at this
  simpa using this

/-! ## The pieces of items -/

theorem skipBlanks_apply {r : Reader} {p q : List Char} (h : r.rest = p ++ q)
    (hp : ∀ c ∈ p, isBlank c) (hrest : ∀ c, q.head? = some c → isBlank c = false) :
    skipBlanks r = .ok () (r.behind p q) := by
  change EStateM.Result.ok () (r.skip (r.rest.takeWhile isBlank).length) = _
  have hrun : r.rest.takeWhile isBlank = p := by rw [h, takeWhile_append hp hrest]
  rw [hrun, Reader.skip_length h]

theorem next?_apply (r : Reader) : next? r = .ok r.rest.head? (r.skip 1) := rfl

theorem next?_nil {r : Reader} (h : r.rest = []) : next? r = .ok none r := by
  obtain ⟨rest, offset, records, fresh⟩ := r
  cases h
  rfl

theorem next?_cons {r : Reader} {c : Char} {rest : List Char} (h : r.rest = c :: rest) :
    next? r = .ok (some c) (r.behind [c] rest) := by
  rw [next?_apply, ← Reader.skip_length (p := [c]) h, h]
  rfl

/-- A text is blanks and a rest that begins with none. -/
theorem blanks_split (cs : List Char) : ∃ p rest, cs = p ++ rest ∧ (∀ c ∈ p, isBlank c) ∧
    ∀ c, rest.head? = some c → isBlank c = false :=
  ⟨_, _, (List.takeWhile_append_dropWhile (p := isBlank)).symm, fun _ => of_mem_takeWhile,
    fun _ => of_head?_dropWhile⟩

theorem closes_true {r : Reader} {c : Char} {p rest : List Char} (h : r.rest = p ++ c :: rest)
    (hp : ∀ c ∈ p, isBlank c) (hc : isBlank c = false) :
    closes c r = .ok true (r.behind (p ++ [c]) rest) := by
  have hskip := skipBlanks_apply h hp (by simpa using hc)
  have hnext := next?_cons (r := r.behind p (c :: rest)) rfl
  rw [closes, bind_ok hskip, bind_ok (x := peek?) rfl]
  rw [if_pos (by rfl), bind_ok hnext]
  simp [Reader.behind, Nat.add_assoc]

theorem closes_false {r : Reader} {c : Char} {p q : List Char} (h : r.rest = p ++ q)
    (hp : ∀ c ∈ p, isBlank c) (hrest : ∀ c, q.head? = some c → isBlank c = false)
    (hc : q.head? ≠ some c) : closes c r = .ok false (r.behind p q) := by
  rw [closes, bind_ok (skipBlanks_apply h hp hrest), bind_ok (x := peek?) rfl]
  simp [hc]

theorem expect_apply {r : Reader} {c : Char} {rest : List Char} (h : r.rest = c :: rest)
    (hc : isBlank c = false) : expect c r = .ok () (r.behind [c] rest) := by
  have hskip := skipBlanks_apply (p := []) h (by simp) (by simpa using hc)
  rw [expect, bind_ok hskip, bind_ok (x := here) rfl, bind_ok (next?_cons rfl)]
  simp [Reader.behind]

theorem readField_apply {r : Reader} {field rest : List Char} (h : r.rest = field ++ '|' :: rest)
    (hfield : '|' ∉ field) : readField r = .ok field (r.behind (field ++ ['|']) rest) := by
  have hrun : r.rest.takeWhile (· ≠ '|') = field := by
    rw [h, takeWhile_append (fun c hc => ?_) (by simp)]
    have : c ≠ '|' := fun hc' => hfield (hc' ▸ hc)
    simpa using this
  have hskip : r.skip (field.length + 1) = r.behind (field ++ ['|']) rest := by
    rw [← Reader.skip_length (p := field ++ ['|']) (by simp [h])]
    simp
  rw [readField, bind_ok (x := get) rfl]
  simp only [hrun, bind_ok (x := get) (s := r) rfl]
  rw [h, List.drop_left]
  simp only [List.isEmpty_cons, Bool.false_eq_true, if_false]
  rw [bind_ok (x := modify _) (t := r.skip (field.length + 1)) rfl, hskip]
  rfl

/-- A field ends before a bar, or there is none. -/
theorem field_split (cs : List Char) :
    (∃ field rest, cs = field ++ '|' :: rest ∧ '|' ∉ field) ∨ '|' ∉ cs := by
  by_cases h : '|' ∈ cs
  · obtain ⟨field, rest, rfl, hfield⟩ := List.eq_append_cons_of_mem h
    exact .inl ⟨field, rest, rfl, hfield⟩
  · exact .inr h

theorem readNumber_apply {r : Reader} {what : String} {parse? : List Char → Option α}
    {field rest : List Char} {a : α} (h : r.rest = field ++ '|' :: rest) (hfield : '|' ∉ field)
    (ha : parse? field = some a) :
    readNumber what parse? r = .ok a (r.behind (field ++ ['|']) rest) := by
  rw [readNumber, bind_ok (x := here) rfl, bind_ok (readField_apply h hfield)]
  simp [ha]

theorem readText_apply {r : Reader} {text rest : List Char} (h : r.rest = text ++ rest) :
    readText text.length r = .ok (String.ofList text) (r.behind text rest) := by
  have htake : r.rest.take text.length = text := by rw [h, List.take_left]
  rw [readText, bind_ok (x := get) rfl]
  simp only [htake, Nat.lt_irrefl, if_false]
  rw [bind_ok (x := modify _) rfl, Reader.skip_length h]
  rfl

theorem takeBytes?_append {size : Nat} {cs text : List Char} (h : takeBytes? size cs = some text) :
    text <+: cs ∧ ∀ other, takeBytes? size (text ++ other) = some text := by
  induction cs generalizing size text with
  | nil =>
    cases size with
    | zero => cases h; simp [takeBytes?]
    | succ size => cases h
  | cons c cs ih =>
    cases size with
    | zero => cases h; simp [takeBytes?]
    | succ size =>
      rw [takeBytes?] at h
      split at h
      · obtain ⟨tail, htail, rfl⟩ := Option.map_eq_some_iff.1 h
        obtain ⟨hcs, hother⟩ := ih htail
        refine ⟨List.cons_prefix_cons.2 ⟨rfl, hcs⟩, fun other => ?_⟩
        rw [List.cons_append, takeBytes?, if_pos ‹_›, hother other, Option.map_some]
      · cases h

/-- A text of digits takes up as many bytes as it has characters. -/
theorem takeBytes?_digits {cs : List Char} (h : ∀ c ∈ cs, c.isDigit) (rest : List Char) :
    takeBytes? cs.length (cs ++ rest) = some cs := by
  induction cs with
  | nil => cases rest <;> rfl
  | cons c cs ih =>
    rw [List.forall_mem_cons] at h
    have hsize : c.utf8Size = 1 := by
      have hdigit := h.1
      simp only [Char.isDigit, Bool.and_eq_true, decide_eq_true_eq, UInt32.le_iff_toNat_le,
        ge_iff_le] at hdigit
      rw [Char.utf8Size_eq_one_iff, UInt32.le_iff_toNat_le]
      exact Nat.le_trans hdigit.2 (by decide)
    rw [List.length_cons, List.cons_append, takeBytes?, hsize, if_pos (by omega),
      Nat.add_sub_cancel, ih h.2, Option.map_some]

theorem closes_nil {r : Reader} {c : Char} (hr : r.rest = []) : closes c r = .ok false r := by
  rw [closes_false (p := []) (q := []) hr (by simp) (by simp) (by simp)]
  obtain ⟨rest, offset, records, fresh⟩ := r
  cases hr
  rfl

/-! ## Loaders by tag -/

theorem Registry.get?_insert (registry : Registry) (tag tag' : String) (loader : Loader) :
    (registry.insert tag loader).get? tag' =
      if tag' = tag then some loader else registry.get? tag' := by
  split
  · subst tag'
    exact Bindings.lookup?_insert_self tag loader registry.loaders
  · exact Bindings.lookup?_insert_of_ne ‹_› loader registry.loaders

theorem Registry.get?_insert_all (tags : List String) (loader : Loader) (registry : Registry)
    (tag : String) :
    (tags.foldl (fun r tag => r.insert (typePrefix ++ tag) loader) registry).get? tag =
      if tag ∈ tags.map (typePrefix ++ ·) then some loader else registry.get? tag := by
  induction tags generalizing registry with
  | nil => simp
  | cons t tags ih =>
    rw [List.foldl_cons, ih, Registry.get?_insert]
    by_cases ht : tag = typePrefix ++ t <;> simp [ht]

/-- What the built-in registry knows: nodes, templates, locations. -/
theorem Registry.get?_builtin (tag : String) : Registry.builtin.get? tag =
    if tag ∈ nodeTags.map (typePrefix ++ ·) then some loadNodeObject
    else if tag = typePrefix ++ "template" then some loadTemplateObject
    else if tag = typePrefix ++ "location" then some loadLocationObject
    else none := by
  rw [Registry.builtin, Registry.get?_insert_all, Registry.get?_insert, Registry.get?_insert]
  rfl

theorem typePrefix_append_inj {tag tag' : String} :
    typePrefix ++ tag = typePrefix ++ tag' ↔ tag = tag' := by
  rw [← String.toList_inj, String.toList_append, String.toList_append, List.append_cancel_left_eq,
    String.toList_inj]

theorem Registry.get?_builtin_node {tag : String} (h : tag ∈ nodeTags) :
    Registry.builtin.get? (typePrefix ++ tag) = some loadNodeObject := by
  rw [Registry.get?_builtin, if_pos (List.mem_map_of_mem h)]

theorem mem_map_typePrefix {tag : String} :
    typePrefix ++ tag ∈ nodeTags.map (typePrefix ++ ·) ↔ tag ∈ nodeTags := by
  simp

theorem Registry.get?_builtin_template :
    Registry.builtin.get? (typePrefix ++ "template") = some loadTemplateObject := by
  rw [Registry.get?_builtin, if_neg (by rw [mem_map_typePrefix]; decide), if_pos rfl]

theorem Registry.get?_builtin_location :
    Registry.builtin.get? (typePrefix ++ "location") = some loadLocationObject := by
  rw [Registry.get?_builtin, if_neg (by rw [mem_map_typePrefix]; decide),
    if_neg (by rw [typePrefix_append_inj]; decide), if_pos rfl]

theorem writeNode_eq {id : Nat} {location : Location} {kind : NodeKind}
    (h : kind.template? = none) : writeNode ⟨id, location, kind⟩ = beginObject kind.tag >>= fun _ =>
      (writeLocation location >>= fun _ => writeKind kind) >>= fun _ => endObject := by
  cases kind with
  | template t => cases h
  | _ => simp only [writeNode, bind_assoc]

end Templating.Wire
