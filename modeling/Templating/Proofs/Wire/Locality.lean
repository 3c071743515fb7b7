import Templating.Proofs.Wire.Pieces

/-!
# What an action reads, and nothing else

An action that succeeds consumes a stretch of the text. It does the same before any other
continuation of that stretch, and it does not need more nesting than the stretch has characters.

* `Reach`: how much of the text behind its stretch an action looks at.
* `Reads n m x y`: on a rest of at most `n` characters, `x` and `y` do the same, and `y` does so
  before any continuation that looks alike as far as `m` reaches.
* `Reads.loadAny`: **reading an item is local**.
* `load_apply`: the items inside an item are read as the item is, without a bound.
-/

namespace Templating.Wire

open Text

/-- How much of the text behind its stretch an action looks at. -/
inductive Reach where
  /-- The next character, or the end. -/
  | peeks
  /-- Nothing. -/
  | firm
  /-- Nothing, and the stretch is not empty. -/
  | eats
deriving DecidableEq

/-- The reach of two actions one after the other. -/
def Reach.seq : Reach → Reach → Reach
  | .peeks, .firm => .peeks
  | .eats, .firm => .eats
  | _, m => m

/-- On a rest of at most `n` characters `x` and `y` do the same, and if they succeed, `y` does the
same before other texts. How far the action looks may depend on its result. -/
def ReadsBy {α : Type} (n : Nat) (m : α → Reach) (x y : Read α) : Prop :=
  ∀ r, r.rest.length ≤ n → x r = y r ∧ ∀ a r', x r = .ok a r' →
    ∃ p, r.rest = p ++ r'.rest ∧ r'.offset = r.offset + byteLength p ∧
      (m a = .eats → p ≠ []) ∧
      ∀ other, (m a = .peeks → other.head? = r'.rest.head?) →
        y (r.facing (p ++ other)) = .ok a (r'.facing other)

/-- The same for an action that looks equally far whatever its result is. -/
abbrev Reads {α : Type} (n : Nat) (m : Reach) (x y : Read α) : Prop := ReadsBy n (fun _ => m) x y

variable {α β : Type} {n : Nat} {l m : Reach}

theorem Reads.eq {x y : Read α} (h : Reads n m x y) {r : Reader} (hr : r.rest.length ≤ n) :
    x r = y r := (h r hr).1

theorem Reads.mono {k : Nat} {x y : Read α} (h : Reads n m x y) (hk : k ≤ n) : Reads k m x y :=
  fun r hr => h r (Nat.le_trans hr hk)

theorem Reads.congr_left {x y z : Read α} (h : Reads n m y z)
    (heq : ∀ r : Reader, r.rest.length ≤ n → x r = y r) : Reads n m x z := by
  intro r hr
  rw [heq r hr]
  exact h r hr

theorem Reads.firm {x y : Read α} (h : Reads n .eats x y) : Reads n .firm x y := by
  refine fun r hr => ⟨h.eq hr, fun a r' hx => ?_⟩
  obtain ⟨p, hp, hoffset, -, hlocal⟩ := (h r hr).2 a r' hx
  exact ⟨p, hp, hoffset, by simp, fun other _ => hlocal other (by simp)⟩

/-- An action that always fails reads nothing. -/
theorem Reads.fails {x : Read α} (h : ∀ r a r', x r ≠ .ok a r') : Reads n m x x :=
  fun r _ => ⟨rfl, fun a r' hx => absurd hx (h r a r')⟩

/-- An action that does not look at the text. -/
theorem Reads.still {x : Read α}
    (h : ∀ r a r', x r = .ok a r' → r'.rest = r.rest ∧ r'.offset = r.offset ∧
      ∀ other, x (r.facing other) = .ok a (r'.facing other)) : Reads n .firm x x := by
  refine fun r _ => ⟨rfl, fun a r' hx => ?_⟩
  obtain ⟨hrest, hoffset, hother⟩ := h r a r' hx
  exact ⟨[], by simp [hrest], by simp [hoffset], by simp, fun other _ => hother other⟩

theorem Reads.pure (a : α) : Reads n .firm (Pure.pure a : Read α) (Pure.pure a) :=
  .still fun r b r' h => by
    cases h
    exact ⟨rfl, rfl, fun _ => rfl⟩

theorem Reads.failAt {offset : Nat} {message : String} :
    Reads n m (failAt offset message : Read α) (Wire.failAt offset message) :=
  .fails fun r a r' h => by cases h

theorem Reads.failHere {message : String} :
    Reads n m (failHere message : Read α) (Wire.failHere message) :=
  .fails fun r a r' h => by cases h

theorem Reads.here : Reads n .firm here here :=
  .still fun r a r' h => by
    cases h
    exact ⟨rfl, rfl, fun _ => rfl⟩

theorem Reads.freshId : Reads n .firm freshId freshId :=
  .still fun r a r' h => by
    cases h
    exact ⟨rfl, rfl, fun _ => rfl⟩

theorem Reads.record (item : Option Loaded) :
    Reads n .firm (modify (·.record item) : Read PUnit) (modify (·.record item)) :=
  .still fun r a r' h => by
    cases h
    exact ⟨rfl, rfl, fun _ => rfl⟩

theorem Reads.complete (index : Nat) (item : Loaded) :
    Reads n .firm (modify (·.complete index item) : Read PUnit) (modify (·.complete index item)) :=
  .still fun r a r' h => by
    cases h
    exact ⟨rfl, rfl, fun _ => rfl⟩

/-- One action after another. If the first consumes something, less is left for the second. -/
theorem ReadsBy.bind_of {l : α → Reach} {x y : Read α} {f g : α → Read β}
    {m : α → Reach} {j : Reach} {k : α → Nat} (hx : ReadsBy n l x y)
    (hf : ∀ a, Reads (k a) (m a) (f a) (g a)) (hm : ∀ a, (l a).seq (m a) = j)
    (hk : ∀ a, n ≤ k a ∨ l a = .eats ∧ n ≤ k a + 1) : Reads n j (x >>= f) (y >>= g) := by
  intro r hr
  obtain ⟨heq, hx⟩ := hx r hr
  cases h : x r with
  | error e r' =>
    have h' : y r = .error e r' := heq ▸ h
    refine ⟨by rw [bind_apply, bind_apply, h, h'], fun b r'' hb => ?_⟩
    rw [bind_apply, h] at hb
    cases hb
  | ok a r' =>
    have h' : y r = .ok a r' := heq ▸ h
    obtain ⟨p, hp, hoffset, heats, hlocal⟩ := hx a r' h
    have hm := hm a
    have hleft : r'.rest.length ≤ k a := by
      have hlen := congrArg List.length hp
      rw [List.length_append] at hlen
      rcases hk a with hk | ⟨ha, hk⟩
      · omega
      · have := List.length_pos_iff.2 (heats ha)
        omega
    obtain ⟨heq', hf⟩ := hf a r' hleft
    refine ⟨by rw [bind_ok h, bind_ok h', heq'], fun b r'' hb => ?_⟩
    rw [bind_ok h] at hb
    obtain ⟨q, hq, hoffset', heats', hlocal'⟩ := hf b r'' hb
    refine ⟨p ++ q, by rw [hp, hq, List.append_assoc],
      by rw [hoffset', hoffset, byteLength_append, Nat.add_assoc], ?_, fun other ho => ?_⟩
    · intro hm' hnil
      obtain ⟨rfl, rfl⟩ := List.append_eq_nil_iff.1 hnil
      cases h₁ : l a <;> cases h₂ : m a <;> simp_all [Reach.seq]
    · -- the first action sees the second stretch, and behind it at most what the whole may see
      have ho₁ : l a = .peeks → (q ++ other).head? = r'.rest.head? := by
        intro h₁
        rw [hq]
        cases q with
        | cons c q => rfl
        | nil => cases h₂ : m a <;> simp_all [Reach.seq]
      have ho₂ : m a = .peeks → other.head? = r''.rest.head? := by
        intro h₂
        cases h₁ : l a <;> simp_all [Reach.seq]
      rw [List.append_assoc, bind_ok (hlocal (q ++ other) ho₁)]
      exact hlocal' other ho₂

theorem Reads.bind {x y : Read α} {f g : α → Read β} (hx : Reads n l x y)
    (hf : ∀ a, Reads n m (f a) (g a)) : Reads n (l.seq m) (x >>= f) (y >>= g) :=
  hx.bind_of (k := fun _ => n) hf (fun _ => rfl) fun _ => .inl (Nat.le_refl n)

theorem Reads.ite {c : Prop} [Decidable c] {x y x' y' : Read α} (hx : Reads n m x x')
    (hy : Reads n m y y') : Reads n m (if c then x else y) (if c then x' else y') := by
  split
  · exact hx
  · exact hy

/-! ## The pieces of items -/

/-- An action that only moves the reader. -/
theorem Reads.moves {x : Read α}
    (h : ∀ r a r', x r = .ok a r' → ∃ p rest, r.rest = p ++ rest ∧ r' = r.behind p rest ∧
      (m = .eats → p ≠ []) ∧ ∀ other, (m = .peeks → other.head? = rest.head?) →
        x (r.facing (p ++ other)) = .ok a (r.behind p other)) : Reads n m x x := by
  refine fun r _ => ⟨rfl, fun a r' hx => ?_⟩
  obtain ⟨p, rest, hp, rfl, heats, hother⟩ := h r a r' hx
  exact ⟨p, hp, rfl, heats, hother⟩

theorem Reads.skipBlanks : Reads n .peeks skipBlanks skipBlanks := by
  refine .moves fun r a r' h => ?_
  have hsplit := (List.takeWhile_append_dropWhile (p := isBlank) (l := r.rest)).symm
  rw [skipBlanks_apply hsplit (fun _ => of_mem_takeWhile) (fun _ => of_head?_dropWhile)] at h
  cases h
  refine ⟨_, _, hsplit, rfl, by simp, fun other ho => ?_⟩
  rw [skipBlanks_apply rfl (fun _ => of_mem_takeWhile) fun c hc => ?_]
  · rfl
  · exact of_head?_dropWhile (by rw [← ho rfl, hc])

theorem ReadsBy.next? :
    ReadsBy n (fun c => if c.isSome then .eats else .peeks) next? next? := by
  refine fun r _ => ⟨rfl, fun a r' h => ?_⟩
  match hrest : r.rest with
  | [] =>
    rw [next?_nil hrest] at h
    cases h
    refine ⟨[], by simp [hrest], by simp, by simp, fun other ho => ?_⟩
    have hother : other = [] := by simpa [hrest] using ho rfl
    rw [List.nil_append, hother]
    exact next?_nil rfl
  | c :: rest =>
    rw [next?_cons hrest] at h
    cases h
    exact ⟨[c], by simp, by simp [Reader.behind], by simp, fun other _ => next?_cons rfl⟩

theorem ReadsBy.closes (c : Char) :
    ReadsBy n (fun b => if b then .eats else .peeks) (closes c) (closes c) := by
  refine fun r _ => ⟨rfl, fun a r' h => ?_⟩
  obtain ⟨p, rest, hsplit, hp, hrest⟩ := blanks_split r.rest
  by_cases hc : rest.head? = some c
  · obtain ⟨rest, rfl⟩ : ∃ rest', rest = c :: rest' := by
      cases rest with
      | nil => simp at hc
      | cons d rest => exact ⟨rest, by simpa using hc⟩
    rw [closes_true hsplit hp (hrest c rfl)] at h
    cases h
    exact ⟨p ++ [c], by simp [hsplit], rfl, by simp, fun other _ =>
      closes_true (by simp [Reader.facing]) hp (hrest c rfl)⟩
  · rw [closes_false hsplit hp hrest hc] at h
    cases h
    refine ⟨p, hsplit, rfl, by simp, fun other ho => ?_⟩
    have ho : other.head? = rest.head? := ho rfl
    exact closes_false rfl hp (by simpa [ho] using hrest) (by simpa [ho] using hc)

/-- Consumes a character, if there is one, and goes on with it. -/
theorem Reads.next_bind {f g : Option Char → Read β}
    (hnone : Reads (n + 1) .eats (f none) (g none))
    (hsome : ∀ c, Reads n .firm (f (some c)) (g (some c))) :
    Reads (n + 1) .eats (next? >>= f) (next? >>= g) := by
  refine ReadsBy.next?.bind_of (k := fun c => if c.isSome then n else n + 1)
    (m := fun c => if c.isSome then .firm else .eats) ?_ ?_ ?_
  · rintro (_ | c)
    · exact hnone
    · exact hsome c
  · rintro (_ | c) <;> rfl
  · rintro (_ | c) <;> simp

/-- Looks for a character, and goes on in one of two ways. -/
theorem Reads.closes_bind {c : Char} {f g : Bool → Read β}
    (htrue : Reads (n - 1) .firm (f true) (g true)) (hfalse : Reads n .eats (f false) (g false)) :
    Reads n .eats (Wire.closes c >>= f) (Wire.closes c >>= g) := by
  refine (ReadsBy.closes c).bind_of (k := fun b => if b then n - 1 else n)
    (m := fun b => if b then .firm else .eats) ?_ ?_ ?_
  · rintro (_ | _)
    · exact hfalse
    · exact htrue
  · rintro (_ | _) <;> rfl
  · rintro (_ | _)
    · exact .inl (Nat.le_refl n)
    · exact .inr ⟨rfl, by simp; omega⟩

theorem Reads.expect (c : Char) : Reads n .eats (expect c) (expect c) :=
  Reads.skipBlanks.bind fun _ => Reads.here.bind fun _ =>
    (Reads.next_bind .failHere fun _ => .ite (.pure _) .failAt).mono (Nat.le_succ n)

theorem Reads.readField : Reads n .eats readField readField := by
  refine .moves fun r a r' h => ?_
  rcases field_split r.rest with ⟨field, rest, hsplit, hfield⟩ | hnone
  · rw [readField_apply hsplit hfield] at h
    cases h
    exact ⟨a ++ ['|'], rest, by simp [hsplit], rfl, by simp, fun other _ =>
      readField_apply (by simp [Reader.facing]) hfield⟩
  · exfalso
    have hrun : r.rest.takeWhile (· ≠ '|') = r.rest := by
      rw [← List.append_nil r.rest, takeWhile_append (fun c hc => ?_) (by simp), List.append_nil]
      have : c ≠ '|' := fun hc' => hnone (hc' ▸ hc)
      simpa using this
    rw [Wire.readField, bind_ok (x := get) rfl] at h
    simp only [bind_ok (x := get) (s := r) rfl, hrun, List.drop_length, List.isEmpty_nil, if_true,
      failHere_apply] at h
    cases h

theorem Reads.readNumber {what : String} {parse? : List Char → Option α} :
    Reads n .eats (readNumber what parse?) (readNumber what parse?) := by
  refine Reads.here.bind fun _ => Reads.readField.bind (m := .firm) fun field => ?_
  cases parse? field with
  | none => exact .failAt
  | some a => exact .pure a

theorem Reads.readText (length : Nat) : Reads n .firm (readText length) (readText length) := by
  refine .moves fun r a r' h => ?_
  by_cases hlen : length ≤ r.rest.length
  · have hp : (r.rest.take length).length = length := List.length_take_of_le hlen
    have hsplit := (List.take_append_drop length r.rest).symm
    have hread := readText_apply hsplit
    rw [hp, h] at hread
    cases hread
    refine ⟨_, _, hsplit, rfl, by simp, fun other _ => ?_⟩
    have hread := readText_apply (r := r.facing (r.rest.take length ++ other)) rfl
    rwa [hp] at hread
  · have hp : (r.rest.take length).length < length := by
      have := List.length_take_le length r.rest
      have := List.length_take_le' length r.rest
      omega
    rw [Wire.readText, bind_ok (x := get) rfl, if_pos hp] at h
    cases h

theorem Reads.readString : Reads n .eats readString readString :=
  Reads.readNumber.bind fun length => Reads.readText length

theorem Reads.loadDate (start : Nat) : Reads n .firm (loadDate start) (loadDate start) := by
  refine .moves fun r a r' h => ?_
  rw [Wire.loadDate, bind_ok (x := get) rfl] at h
  cases htake : takeBytes? 20 r.rest with
  | none =>
    rw [htake] at h
    cases h
  | some text =>
    rw [htake] at h
    obtain ⟨⟨rest, hsplit⟩, hother⟩ := takeBytes?_append htake
    cases hdate : Date.ofCompact (String.ofList text) with
    | error e =>
      simp only [hdate] at h
      cases h
    | ok d =>
      simp only [hdate] at h
      rw [bind_ok (x := modify _) rfl, Reader.skip_length hsplit.symm] at h
      cases h
      refine ⟨text, rest, hsplit.symm, rfl, by simp, fun other _ => ?_⟩
      rw [Wire.loadDate, bind_ok (x := get) rfl]
      simp only [Reader.facing, hother other, hdate]
      rw [bind_ok (x := modify _) rfl, Reader.skip_length rfl]
      rfl

/-! ## Items up to a closing character -/

/-- An action that has to consume something fails on the empty text. -/
theorem Reads.fails_nil {x y : Read α} (h : Reads 0 .eats x y) {r : Reader} (hr : r.rest = []) :
    ∃ e r', x r = .error e r' ∧ y r = .error e r' := by
  obtain ⟨heq, hx⟩ := h r (by simp [hr])
  cases hr' : x r with
  | ok a r' =>
    obtain ⟨p, hp, -, heats, -⟩ := hx a r' hr'
    rw [hr] at hp
    exact absurd (List.append_eq_nil_iff.1 hp.symm).1 (heats rfl)
  | error e r' => exact ⟨e, r', rfl, by rw [← heq, hr']⟩

theorem Reads.of_fails_nil {x y : Read α}
    (h : ∀ r, r.rest = [] → ∃ e r', x r = .error e r' ∧ y r = .error e r') : Reads 0 m x y := by
  intro r hr
  obtain ⟨e, r', hx, hy⟩ := h r (List.length_eq_zero_iff.1 (Nat.le_zero.1 hr))
  refine ⟨by rw [hx, hy], fun a r'' ha => ?_⟩
  rw [hx] at ha
  cases ha

theorem Reads.bind_zero {x y : Read α} {f g : α → Read β} (h : Reads 0 .eats x y) :
    Reads 0 m (x >>= f) (y >>= g) := by
  refine .of_fails_nil fun r hr => ?_
  obtain ⟨e, r', hx, hy⟩ := h.fails_nil hr
  exact ⟨e, r', by rw [bind_apply, hx], by rw [bind_apply, hy]⟩

/-- Where items consume something, a bound on their number that is not below the number of
characters makes no difference. -/
theorem Reads.itemsUntil {close : Char} {x y : Read α} : ∀ {n : Nat}, Reads n .eats x y →
    ∀ {bound bound' : List Char}, n ≤ bound.length → n ≤ bound'.length →
      Reads n .eats (itemsUntil close x bound) (itemsUntil close y bound')
  | 0, h, bound, bound', _, _ => by
    cases bound <;> cases bound' <;> exact .closes_bind (.pure _) h.bind_zero
  | n + 1, h, _ :: bound, _ :: bound', hb, hb' => by
    have ih : Reads n .eats (Wire.itemsUntil close x bound) (Wire.itemsUntil close y bound') :=
      .itemsUntil (h.mono (Nat.le_succ n)) (Nat.le_of_succ_le_succ hb) (Nat.le_of_succ_le_succ hb')
    refine .closes_bind (.pure _) ?_
    exact ReadsBy.bind_of (k := fun _ => n) h (fun a => ih.bind fun as => .pure (a :: as))
      (fun _ => rfl) fun _ => .inr ⟨rfl, Nat.le_refl _⟩

/-- A bound that is taken from the text is as good as any other that is large enough. -/
theorem Reads.bounded {x y : List Char → Read α}
    (h : ∀ k ≤ n, ∀ b b', k ≤ b.length → k ≤ b'.length → Reads k .eats (x b) (y b')) :
    Reads n .eats (do x (← get).rest) (do y (← get).rest) := by
  intro r hr
  rw [bind_ok (x := get) (t := r) rfl, bind_ok (x := get) (t := r) rfl]
  have hall := h _ hr r.rest r.rest (Nat.le_refl _) (Nat.le_refl _)
  refine ⟨hall.eq (Nat.le_refl _), fun a r' ha => ?_⟩
  obtain ⟨p, hp, hoffset, heats, hlocal⟩ := (hall r (Nat.le_refl _)).2 a r' ha
  refine ⟨p, hp, hoffset, heats, fun other _ => ?_⟩
  -- first without what comes after the stretch, then with the other text
  have hlen : p.length ≤ r.rest.length := by simp [hp]
  have halone : x r.rest (r.facing p) = .ok a (r'.facing []) := by
    rw [hall.eq hlen]
    simpa using hlocal [] (by simp)
  have hpart := h p.length (Nat.le_trans hlen hr) r.rest (p ++ other) hlen (by simp)
  obtain ⟨q, hq, -, -, hlocal'⟩ := (hpart (r.facing p) (Nat.le_refl _)).2 a _ halone
  obtain rfl : p = q := by simpa [Reader.facing] using hq
  rw [bind_ok (x := get) (t := r.facing (p ++ other)) rfl]
  exact hlocal' other (by simp)

theorem Reads.readUntil {close : Char} {x y : Read α} (h : Reads n .eats x y) :
    Reads n .eats (readUntil close x) (readUntil close y) :=
  .bounded fun _ hk _ _ hb hb' => (h.mono hk).itemsUntil hb hb'

theorem Reads.itemsUntil_readUntil {close : Char} {x : Read α} (h : ∀ n, Reads n .eats x x)
    {bound : List Char} (hb : n ≤ bound.length) :
    Reads n .eats (Wire.itemsUntil close x bound) (Wire.readUntil close x) := by
  refine (Reads.readUntil (h n)).congr_left fun r hr => ?_
  have hbound : Reads r.rest.length .eats (Wire.itemsUntil close x bound)
      (Wire.itemsUntil close x r.rest) :=
    (h _).itemsUntil (Nat.le_trans hr hb) (Nat.le_refl _)
  exact hbound.eq (Nat.le_refl _)

/-- Items that consume something are read one after another, without a bound. -/
theorem readUntil_apply {close : Char} {x : Read α} (h : ∀ n, Reads n .eats x x) (r : Reader) :
    readUntil close x r = (do
      if ← closes close then return []
      else
        let a ← x
        let as ← readUntil close x
        return a :: as) r := by
  have hread : readUntil close x r = itemsUntil close x r.rest r := rfl
  rw [hread]
  cases hrest : r.rest with
  | nil =>
    -- at the end of the text the item fails, on both sides alike
    obtain ⟨e, r', hx, -⟩ := (h 0).fails_nil hrest
    rw [itemsUntil, bind_ok (closes_nil hrest), bind_ok (closes_nil hrest)]
    simp only [Bool.false_eq_true, if_false]
    rw [bind_error hx, bind_error hx]
  | cons c bound =>
    have hbody : Reads (bound.length + 1) .eats (itemsUntil close x (c :: bound)) (do
        if ← closes close then return []
        else
          let a ← x
          let as ← readUntil close x
          return a :: as) := by
      refine .closes_bind (.pure _) (ReadsBy.bind_of (k := fun _ => bound.length)
        (m := fun _ => .eats) (h _) (fun a => ?_) (fun _ => rfl) fun _ => .inr ⟨rfl, Nat.le_refl _⟩)
      exact (Reads.itemsUntil_readUntil h (Nat.le_refl _)).bind fun as => .pure (a :: as)
    exact hbody.eq (by simp [hrest])

/-! ## Items of a certain type -/

variable {load load' : Read Loaded}

theorem Reads.loadAs (h : Reads n .eats load load') {expected : String}
    {take? : Loaded → Option α} :
    Reads n .eats (loadAs load expected take?) (loadAs load' expected take?) :=
  Reads.here.bind fun _ => h.bind (m := .firm) fun item => by
    cases take? item with
    | some a => exact .pure a
    | none => exact .failAt

theorem Reads.loadPosition (h : Reads n .eats load load') :
    Reads n .eats (loadPosition load) (loadPosition load') :=
  Reads.here.bind fun _ => h.loadAs.bind (m := .firm) fun _ => .ite (.pure _) .failAt

theorem Reads.loadChannel (h : Reads n .eats load load') :
    Reads n .eats (loadChannel load) (loadChannel load') :=
  Reads.here.bind fun _ => h.loadAs.bind (m := .firm) fun _ => .ite (.pure _) .failAt

theorem Reads.loadLocationFields (h : Reads n .eats load load') :
    Reads n .eats (loadLocationFields load) (loadLocationFields load') :=
  h.loadAs.bind fun _ => h.loadAs.bind fun _ => h.loadPosition.bind fun _ =>
    h.loadPosition.bind fun _ => h.loadPosition.bind fun _ => h.loadPosition.bind fun _ => .pure _

theorem Reads.nodeOf (start : Nat) (item : Loaded) :
    Reads n .firm (nodeOf start item) (nodeOf start item) := by
  cases item with
  | node node => exact .pure node
  | location location => exact .failAt
  | value value =>
    cases value with
    | template t => exact Reads.freshId.bind fun _ => .pure _
    | _ => exact .failAt

theorem Reads.loadNode (h : Reads n .eats load load') :
    Reads n .eats (loadNode load) (loadNode load') :=
  Reads.skipBlanks.bind fun _ => Reads.here.bind fun start => h.bind fun item =>
    .nodeOf start item

theorem Reads.loadOptNode (h : Reads n .eats load load') :
    Reads n .eats (loadOptNode load) (loadOptNode load') :=
  .closes_bind (.pure _) (h.loadNode.bind fun _ => .pure _)

theorem Reads.loadNodes (h : Reads n .eats load load') :
    Reads n .eats (loadNodes load) (loadNodes load') :=
  (Reads.expect 'l').bind fun _ => h.loadNode.readUntil

theorem targetWithin_nil (bound : List Char) {r : Reader} (hr : r.rest = []) :
    targetWithin load bound r = (do return Target.name (← loadStr load)) r := by
  cases bound with
  | nil => rfl
  | cons c bound => rw [targetWithin, bind_ok (closes_nil hr), if_neg Bool.false_ne_true]

theorem Reads.targetWithin : ∀ {n : Nat}, Reads n .eats load load' →
    ∀ {bound bound' : List Char}, n ≤ bound.length → n ≤ bound'.length →
      Reads n .eats (targetWithin load bound) (targetWithin load' bound')
  | 0, h, bound, bound', _, _ => by
    refine .of_fails_nil fun r hr => ?_
    rw [targetWithin_nil bound hr, targetWithin_nil bound' hr]
    exact (Reads.bind_zero (m := .eats) h.loadAs).fails_nil hr
  | n + 1, h, _ :: bound, _ :: bound', hb, hb' => by
    have ih : Reads n .eats (Wire.targetWithin load bound) (Wire.targetWithin load' bound') :=
      .targetWithin (h.mono (Nat.le_succ n)) (Nat.le_of_succ_le_succ hb)
        (Nat.le_of_succ_le_succ hb')
    refine .closes_bind ?_ (h.loadAs.bind fun _ => .pure _)
    exact (ih.readUntil.bind fun _ => .pure _).firm

theorem Reads.loadTarget (h : Reads n .eats load load') :
    Reads n .eats (loadTarget load) (loadTarget load') :=
  .bounded fun _ hk _ _ hb hb' => (h.mono hk).targetWithin hb hb'

theorem Reads.targetWithin_loadTarget (h : ∀ n, Reads n .eats load load)
    {bound : List Char} (hb : n ≤ bound.length) :
    Reads n .eats (Wire.targetWithin load bound) (Wire.loadTarget load) := by
  refine (Reads.loadTarget (h n)).congr_left fun r hr => ?_
  have hbound : Reads r.rest.length .eats (Wire.targetWithin load bound)
      (Wire.targetWithin load r.rest) :=
    .targetWithin (h _) (Nat.le_trans hr hb) (Nat.le_refl _)
  exact hbound.eq (Nat.le_refl _)

/-- The targets inside a target are read as the target is, without a bound. -/
theorem loadTarget_apply (h : ∀ n, Reads n .eats load load) (r : Reader) :
    loadTarget load r = (do
      if ← closes 'l' then return Target.tuple (← readUntil ']' (loadTarget load))
      else return Target.name (← loadStr load)) r := by
  have hread : loadTarget load r = targetWithin load r.rest r := rfl
  rw [hread]
  cases hrest : r.rest with
  | nil => rw [targetWithin_nil [] hrest, bind_ok (closes_nil hrest), if_neg Bool.false_ne_true]
  | cons c bound =>
    have hbody : Reads (bound.length + 1) .eats (targetWithin load (c :: bound)) (do
        if ← closes 'l' then return Target.tuple (← readUntil ']' (loadTarget load))
        else return Target.name (← loadStr load)) := by
      refine .closes_bind ?_ ((h _).loadAs.bind fun _ => .pure _)
      have hitems : Reads bound.length .eats (readUntil ']' (Wire.targetWithin load bound))
          (readUntil ']' (Wire.loadTarget load)) :=
        .readUntil (.targetWithin_loadTarget h (Nat.le_refl _))
      exact (hitems.bind fun _ => .pure _).firm
    exact hbody.eq (by simp [hrest])

theorem Reads.loadComprehension (h : Reads n .eats load load') :
    Reads n .eats (loadComprehension load) (loadComprehension load') :=
  h.loadTarget.bind fun _ => h.loadNode.bind fun _ => h.loadOptNode.bind fun _ => .pure _

theorem Reads.loadBlock (h : Reads n .eats load load') :
    Reads n .eats (loadBlock load) (loadBlock load') :=
  h.loadAs.bind fun _ => h.loadNodes.bind fun _ => .pure _

theorem Reads.loadEntry (h : Reads n .eats load load') :
    Reads n .eats (loadEntry load) (loadEntry load') := by
  refine (Reads.expect 'l').bind fun _ => Reads.skipBlanks.bind fun _ => Reads.here.bind fun _ =>
    h.bind fun first => Reads.closes_bind ?_ ?_
  · exact .pure _
  · exact h.loadNode.bind fun _ => (Reads.expect ']').bind fun _ => .pure _

theorem Reads.loadEntries (h : Reads n .eats load load') :
    Reads n .eats (loadEntries load) (loadEntries load') :=
  (Reads.expect 'l').bind fun _ => h.loadEntry.readUntil

/-! ## Objects -/

theorem Reads.mapM {f : α → Read β} (hf : ∀ a, Reads n .firm (f a) (f a)) (as : List α) :
    Reads n .firm (as.mapM f) (as.mapM f) := by
  induction as with
  | nil => exact .pure []
  | cons a as ih =>
    rw [List.mapM_cons]
    exact (hf a).bind fun _ => ih.bind fun _ => .pure _

theorem Reads.dictEntryOf (e : Entry) : Reads n .firm (dictEntryOf e) (dictEntryOf e) := by
  refine (Reads.nodeOf _ _).bind fun first => ?_
  cases e.second with
  | none => exact .pure _
  | some value => exact .pure _

theorem Reads.keywordArgOf (e : Entry) : Reads n .firm (keywordArgOf e) (keywordArgOf e) := by
  unfold Wire.keywordArgOf
  split
  · exact .pure _
  · exact (Reads.nodeOf _ _).bind fun _ => .pure _
  · exact .failHere

theorem Reads.loadConstant (h : Reads n .eats load load') :
    Reads n .eats (loadConstant load) (loadConstant load') :=
  h.loadAs.bind (m := .firm) fun value => by
    cases value.literal? with
    | none => exact .failHere
    | some literal => exact .pure _

theorem Reads.loadOperator (h : Reads n .eats load load') (tag : String) :
    Reads n .eats (loadOperator load tag) (loadOperator load' tag) := by
  unfold Wire.loadOperator
  split
  · exact h.loadNode.bind fun _ => .pure _
  split
  · exact h.loadNode.bind fun _ => h.loadNode.bind fun _ => .pure _
  split
  · exact h.loadAs.bind fun _ => h.loadNode.bind fun _ => .pure _
  · exact .fails fun r a r' hr => by cases hr

theorem Reads.loadKind (h : Reads n .eats load load') (tag : String) :
    Reads n .firm (loadKind load tag) (loadKind load' tag) := by
  have node := h.loadNode
  have str : Reads n .eats (loadStr load) (loadStr load') := h.loadAs
  unfold Wire.loadKind
  split
  · exact .pure _
  · exact h.loadConstant.firm
  · exact (h.loadNodes.bind fun _ => .pure _).firm
  · exact (node.bind fun _ => h.loadComprehension.bind fun _ => .pure _).firm
  · exact (node.bind fun _ => h.loadComprehension.bind fun _ => .pure _).firm
  · exact (h.loadEntries.bind fun _ => (Reads.mapM .dictEntryOf _).bind fun _ => .pure _).firm
  · exact (node.bind fun _ => node.bind fun _ => h.loadComprehension.bind fun _ => .pure _).firm
  · exact (str.bind fun _ => .pure _).firm
  · exact (node.bind fun _ => .pure _).firm
  · exact (node.bind fun _ => .pure _).firm
  · exact (node.bind fun _ => .pure _).firm
  · exact (node.bind fun _ => str.bind fun _ => .pure _).firm
  · exact (node.bind fun _ => h.loadOptNode.bind fun _ => h.loadOptNode.bind fun _ => .pure _).firm
  · exact (str.bind fun _ => h.loadNodes.bind fun _ => .pure _).firm
  · exact (str.bind fun _ => node.bind fun _ => h.loadNodes.bind fun _ => .pure _).firm
  · exact (str.bind fun _ => node.bind fun _ => h.loadEntries.bind fun _ =>
      (Reads.mapM .keywordArgOf _).bind fun _ => .pure _).firm
  · exact (h.loadTarget.bind fun _ => node.bind fun _ => .pure _).firm
  · exact (str.bind fun _ => .pure _).firm
  · exact (h.loadBlock.bind fun _ => h.loadTarget.bind fun _ => node.bind fun _ => .pure _).firm
  · exact .pure _
  · exact .pure _
  · exact (h.loadBlock.bind fun _ => .pure _).firm
  · exact (h.loadBlock.bind fun _ => .pure _).firm
  · exact (h.loadBlock.bind fun _ => node.bind fun _ => .pure _).firm
  · exact (h.loadBlock.bind fun _ => node.bind fun _ => .pure _).firm
  · exact (h.loadOperator _).firm

/-- A loader that reads its fields and nothing else. -/
def Loader.Local (loader : Loader) : Prop :=
  ∀ n load load' tag, Reads n .eats load load' → Reads n .firm (loader load tag) (loader load' tag)

theorem loadLocationObject_local : Loader.Local loadLocationObject :=
  fun _ _ _ _ h => (h.loadLocationFields.bind fun _ => .pure _).firm

theorem loadTemplateObject_local : Loader.Local loadTemplateObject := by
  intro n load load' tag h
  refine (h.loadAs.bind (m := .firm) fun version => ?_).firm
  split
  · exact .fails fun r a r' hr => by cases hr
  · exact (h.loadAs.bind fun _ => h.loadAs.bind fun _ => h.loadAs.bind fun _ => h.loadAs.bind
      fun _ => h.loadAs.bind fun _ => h.loadBlock.bind fun _ => Reads.freshId.bind fun _ =>
      .pure _).firm

theorem loadNodeObject_local : Loader.Local loadNodeObject :=
  fun _ _ _ tag h => (h.loadAs.bind fun _ => (h.loadKind tag).bind fun _ =>
    Reads.freshId.bind fun _ => .pure _).firm

/-- The loaders of a registry read their fields and nothing else. -/
def Registry.Local (registry : Registry) : Prop :=
  ∀ tag loader, registry.get? tag = some loader → loader.Local

theorem Registry.local_builtin : Registry.builtin.Local := by
  intro tag loader h
  rw [Registry.get?_builtin] at h
  split at h
  · cases h
    exact loadNodeObject_local
  split at h
  · cases h
    exact loadTemplateObject_local
  split at h
  · cases h
    exact loadLocationObject_local
  · cases h

/-! ## Items -/

theorem Reads.records_bind {f g : Array (Option Loaded) → Read β}
    (h : ∀ records, Reads n m (f records) (g records)) :
    Reads n m (get >>= fun r => f r.records) (get >>= fun r => g r.records) := by
  intro r hr
  rw [bind_ok (x := get) (t := r) rfl, bind_ok (x := get) (t := r) rfl]
  refine ⟨(h r.records).eq hr, fun a r' ha => ?_⟩
  obtain ⟨p, hp, hoffset, heats, hlocal⟩ := (h r.records r hr).2 a r' ha
  refine ⟨p, hp, hoffset, heats, fun other ho => ?_⟩
  rw [bind_ok (x := get) (t := r.facing (p ++ other)) rfl]
  exact hlocal other ho

theorem Reads.loadBool (start : Nat) : Reads n .eats (loadBool start) (loadBool start) := by
  refine (Reads.next_bind .failAt fun c => ?_).mono (Nat.le_succ n)
  split
  · exact .pure _
  · exact .pure _
  · exact .failAt

/-- What a backreference stands for, given the records. -/
def referenced (start index : Nat) (records : Array (Option Loaded)) : Read Loaded :=
  match records[index]? with
  | some (some item) => return item
  | some none => Wire.failAt start "backreference to unfinished object"
  | none => Wire.failAt start s!"unknown backreference {index}"

theorem Reads.loadReference (start : Nat) :
    Reads n .eats (loadReference start) (loadReference start) := by
  refine Reads.readNumber.bind (m := .firm) fun index =>
    Reads.records_bind (f := referenced start index) (g := referenced start index) fun records => ?_
  unfold referenced
  split
  · exact .pure _
  · exact .failAt
  · exact .failAt

theorem Reads.loadString : Reads n .eats loadString loadString :=
  Reads.readString.bind fun _ => (Reads.record _).bind fun _ => .pure _

theorem Reads.loadDuration (h : Reads n .eats load load') (start : Nat) :
    Reads n .eats (loadDuration load start) (loadDuration load' start) := by
  refine h.loadAs.bind fun days => h.loadAs.bind fun seconds => h.loadAs.bind (m := .firm)
    fun micros => ?_
  split
  · exact .pure _
  · exact .failAt

theorem Reads.loadColor (h : Reads n .eats load load') :
    Reads n .eats (loadColor load) (loadColor load') :=
  h.loadChannel.bind fun _ => h.loadChannel.bind fun _ => h.loadChannel.bind fun _ =>
    h.loadChannel.bind fun _ => .pure _

theorem Reads.loadPair (h : Reads n .eats load load') :
    Reads n .eats (loadPair load) (loadPair load') :=
  h.loadAs.bind fun _ => h.loadAs.bind fun _ => .pure _

variable {registry : Registry}

/-- Reads an object whose record comes after those that are there. -/
def loadObjectAfter (registry : Registry) (load : Read Loaded) (records : Array (Option Loaded)) :
    Read Loaded := do
  modify (·.record none)
  let tag ← loadStr load
  match registry.get? tag with
  | none => throw (.unknownType tag)
  | some loader =>
    let item ← loader load (shortTag tag)
    Wire.expect ')'
    modify (·.complete records.size item)
    return item

theorem Reads.loadObject (hregistry : registry.Local) (h : Reads n .eats load load') :
    Reads n .eats (loadObject registry load) (loadObject registry load') := by
  refine Reads.records_bind (f := loadObjectAfter registry load)
    (g := loadObjectAfter registry load') fun records => ?_
  refine (Reads.record _).bind fun _ => h.loadAs.bind (m := .firm) fun tag => ?_
  cases hloader : registry.get? tag with
  | none => exact .fails fun r a r' hr => by cases hr
  | some loader =>
    exact ((hregistry tag loader hloader n load load' _ h).bind fun item =>
      (Reads.expect ')').bind fun _ => (Reads.complete _ item).bind fun _ => .pure _).firm

theorem Reads.loadCoded (hregistry : registry.Local) (h : Reads n .eats load load')
    (start : Nat) (code : Char) :
    Reads n .firm (loadCoded registry load start code) (loadCoded registry load' start code) := by
  unfold Wire.loadCoded
  split
  · exact .pure _
  · exact ((Reads.loadBool start).bind fun _ => .pure _).firm
  · exact (Reads.readNumber.bind fun _ => .pure _).firm
  · exact (Reads.readNumber.bind fun _ => .pure _).firm
  · exact (Reads.loadString.bind fun _ => .pure _).firm
  · exact (Reads.loadReference start).firm
  · exact (Reads.loadDate start).bind fun _ => .pure _
  · exact ((h.loadDuration start).bind fun _ => .pure _).firm
  · exact (h.loadAs.bind fun _ => .pure _).firm
  · exact (h.loadColor.bind fun _ => .pure _).firm
  · exact (Reads.readUntil h.loadAs).bind (m := .firm) (fun _ => .pure _) |>.firm
  · exact (h.loadPair.readUntil.bind fun _ => .pure _).firm
  · exact (h.loadObject hregistry).firm
  · exact .failAt

/-- An item needs the items inside it to be read only on a shorter text. -/
theorem Reads.loadItem (hregistry : registry.Local) (h : Reads n .eats load load') :
    Reads (n + 1) .eats (loadItem registry load) (loadItem registry load') := by
  refine Reads.skipBlanks.bind fun _ => Reads.here.bind fun start => Reads.next_bind .failHere
    fun code => ?_
  exact h.loadCoded hregistry start code

theorem loadItem_nil {r : Reader} (hr : r.rest = []) : loadItem registry load r =
    .error (.malformed r.offset "unexpected end of input") r := by
  have hskip : skipBlanks r = .ok () r := by
    rw [skipBlanks_apply (p := []) (q := []) hr (by simp) (by simp)]
    obtain ⟨rest, offset, records, fresh⟩ := r
    cases hr
    rfl
  rw [loadItem, bind_ok hskip, bind_ok (x := here) rfl, bind_ok (next?_nil hr)]
  rfl

theorem Reads.loadWithin (hregistry : registry.Local) : ∀ {n : Nat} {bound bound' : List Char},
    n ≤ bound.length → n ≤ bound'.length →
      Reads n .eats (loadWithin registry bound) (loadWithin registry bound')
  | 0, bound, bound', _, _ => by
    refine .of_fails_nil fun r hr => ?_
    cases bound <;> cases bound' <;> exact ⟨_, _, loadItem_nil hr, loadItem_nil hr⟩
  | n + 1, _ :: bound, _ :: bound', hb, hb' =>
    .loadItem hregistry
      (.loadWithin hregistry (Nat.le_of_succ_le_succ hb) (Nat.le_of_succ_le_succ hb'))

/-- **Reading is local**, and the bound on the nesting never matters. -/
theorem Reads.loadAny (hregistry : registry.Local) :
    Reads n .eats (Wire.load registry) (Wire.load registry) :=
  .bounded fun _ _ _ _ hb hb' => .loadWithin hregistry hb hb'

theorem Reads.loadWithin_loadAny (hregistry : registry.Local) {bound : List Char}
    (hb : n ≤ bound.length) :
    Reads n .eats (Wire.loadWithin registry bound) (Wire.load registry) := by
  refine (Reads.loadAny hregistry).congr_left fun r hr => ?_
  have h : Reads r.rest.length .eats (Wire.loadWithin registry bound)
      (Wire.loadWithin registry r.rest) := .loadWithin hregistry (by omega) (Nat.le_refl _)
  exact h.eq (Nat.le_refl _)

/-- Reading an item begins with its code, and the items inside it are read in the same way. -/
theorem load_apply (hregistry : registry.Local) (r : Reader) :
    Wire.load registry r = loadItem registry (Wire.load registry) r := by
  have hload : Wire.load registry r = loadWithin registry r.rest r := rfl
  rw [hload]
  cases hrest : r.rest with
  | nil => rw [loadWithin, loadItem_nil hrest, loadItem_nil hrest]
  | cons c bound =>
    have h := Reads.loadItem hregistry (.loadWithin_loadAny hregistry (Nat.le_refl bound.length))
    exact h.eq (by simp [hrest])

theorem load_unfold (hregistry : registry.Local) :
    Wire.load registry = loadItem registry (Wire.load registry) :=
  funext (load_apply hregistry)

end Templating.Wire
