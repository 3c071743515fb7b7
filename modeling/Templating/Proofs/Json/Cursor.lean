import Templating.Json.Reader
import Templating.Proofs.Action
import Templating.Proofs.Text.Apart

/-!
# Reading a text before any rest

* `Reads`: an action takes a text off whatever rest of some form and gives a result.
* `Fails`: an action fails behind a text.
* `Reads.bind`, `Reads.get`, `Reads.skip`, `Reads.peek`, `Reads.next`, `Reads.takeWhile`,
  `Reads.word`: the rules of actions.
* `Reads.token`: gaps before a token do not count.
* `Separates`, `Reads.many`, `Fails.many`: **things with commas between them**, up to a bracket.
-/

namespace Templating.Json

open Parse Text

variable {α β : Type} {x : Parse α} {f : α → Parse β} {a : α} {b : β} {c : Char}
  {cs ds : List Char} {S T : List Char → Prop} {p : Char → Bool} {i : Nat}

/-- Before every rest of a form `S`, an action takes a text and gives a result. The rest is left as
it is. -/
def Reads (x : Parse α) (text : List Char) (S : List Char → Prop) (a : α) : Prop :=
  ∀ ⦃r⦄, S r → ∀ i, ∃ j, x ⟨text ++ r, i⟩ = .ok a ⟨r, j⟩

/-- Before every rest of a form `S`, an action fails behind a text. -/
def Fails (x : Parse α) (text : List Char) (S : List Char → Prop) : Prop :=
  ∀ ⦃r⦄, S r → ∀ i, ∃ failure cursor, x ⟨text ++ r, i⟩ = .error failure cursor

/-- Whatever the rest is. -/
def Anything (_ : List Char) : Prop := True

namespace Reads

theorem anywhere (h : Reads x cs Anything a) : Reads x cs S a := fun _ _ => h trivial

theorem pure (a : α) : Reads (Pure.pure a) [] S a := fun _ _ i => ⟨i, rfl⟩

/-- One action after another: the rest of the first one begins with the text of the second one. -/
theorem bind (h : Reads x cs S a) (hf : Reads (f a) ds T b) (hrest : ∀ r, T r → S (ds ++ r)) :
    Reads (x >>= f) (cs ++ ds) T b := by
  intro r hr i
  obtain ⟨j, hj⟩ := h (hrest r hr) i
  obtain ⟨k, hk⟩ := hf hr j
  refine ⟨k, ?_⟩
  rw [List.append_assoc, bind_ok hj, hk]

/-- An action that looks at no rest comes first. -/
theorem before (h : Reads x cs Anything a) (hf : Reads (f a) ds T b) :
    Reads (x >>= f) (cs ++ ds) T b :=
  h.bind hf fun _ _ => trivial

/-- An action whose result is changed. -/
theorem map (h : Reads x cs S a) {b : β} (hf : f a = Pure.pure b) : Reads (x >>= f) cs S b := by
  intro r hr i
  obtain ⟨j, hj⟩ := h hr i
  refine ⟨j, ?_⟩
  rw [bind_ok hj, hf]
  rfl

/-- The cursor does not matter, or only for messages. -/
theorem get {f : Cursor → Parse β} (h : ∀ cursor, Reads (f cursor) cs S b) :
    Reads (MonadState.get >>= f) cs S b :=
  fun _ hr i => h _ hr i

theorem bind_fails (h : Reads x cs S a) (hf : Fails (f a) ds T) (hrest : ∀ r, T r → S (ds ++ r)) :
    Fails (x >>= f) (cs ++ ds) T := by
  intro r hr i
  obtain ⟨j, hj⟩ := h (hrest r hr) i
  obtain ⟨failure, cursor, hfailure⟩ := hf hr j
  exact ⟨failure, cursor, by rw [List.append_assoc, bind_ok hj, hfailure]⟩

theorem before_fails (h : Reads x cs Anything a) (hf : Fails (f a) ds T) :
    Fails (x >>= f) (cs ++ ds) T :=
  h.bind_fails hf fun _ _ => trivial

theorem skip (c : Char) : Reads (skip 1) [c] S () := fun _ _ _ => ⟨_, rfl⟩

theorem peek {f : Option Char → Parse β} (h : Reads (f (some c)) (c :: cs) S b) :
    Reads (peek? >>= f) (c :: cs) S b := h

/-- A look at the rest. -/
theorem look {f : Option Char → Parse β} (h : ∀ r, S r → Reads (f r.head?) [] (fun s => s = r) b) :
    Reads (peek? >>= f) [] S b :=
  fun r hr i => h r hr rfl i

theorem next (c : Char) : Reads next? [c] S (some c) := fun _ _ _ => ⟨_, rfl⟩

theorem takeWhile (hw : ∀ c ∈ cs, p c) : Reads (Parse.takeWhile p) cs (Leaves p) cs := by
  intro r hr i
  have hrun : (cs ++ r).takeWhile p = cs := takeWhile_append_of_leaves hw hr
  refine ⟨i + byteLength cs, ?_⟩
  change EStateM.Result.ok ((cs ++ r).takeWhile p)
    (⟨(cs ++ r).drop ((cs ++ r).takeWhile p).length,
      i + byteLength ((cs ++ r).take ((cs ++ r).takeWhile p).length)⟩ : Cursor) = _
  rw [hrun, List.drop_left, List.take_left]

theorem word (cs : List Char) : Reads (Parse.word cs) cs S () := by
  induction cs with
  | nil => exact pure ()
  | cons c cs ih =>
    intro r hr i
    obtain ⟨j, hj⟩ := ih hr (i + byteLength [c])
    refine ⟨j, ?_⟩
    change (if c = c then Parse.word cs else _) ⟨cs ++ r, i + byteLength [c]⟩ = _
    rw [if_pos rfl, hj]

end Reads

theorem Fails.bind (h : Fails x cs S) : Fails (x >>= f) cs S := by
  intro r hr i
  obtain ⟨failure, cursor, hfailure⟩ := h hr i
  exact ⟨failure, cursor, bind_error hfailure⟩

theorem Fails.append (h : Fails x cs S) (hrest : ∀ r, T r → S (ds ++ r)) :
    Fails x (cs ++ ds) T := by
  intro r hr i
  rw [List.append_assoc]
  exact h (hrest r hr) i

theorem Fails.anywhere (h : Fails x cs Anything) : Fails x cs S := fun _ _ => h trivial

theorem fails_failNext {fault : Fault} : Fails (failNext fault : Parse α) cs S :=
  fun _ _ _ => ⟨_, _, rfl⟩

/-! ## Tokens -/

theorem peekToken?_of_leaves (h : Leaves isGap cs) :
    peekToken? ⟨cs, i⟩ = .ok cs.head? ⟨cs, i⟩ := by
  have hrun : cs.takeWhile isGap = [] := takeWhile_append_of_leaves (w := []) (by simp) h
  change EStateM.Result.ok (cs.drop (cs.takeWhile isGap).length).head?
    (⟨cs.drop (cs.takeWhile isGap).length,
      i + byteLength (cs.take (cs.takeWhile isGap).length)⟩ : Cursor) = _
  rw [hrun]
  rfl

/-- A blank before a token is consumed with it. -/
theorem peekToken?_blank : peekToken? ⟨' ' :: cs, i⟩ = peekToken? ⟨cs, i + 1⟩ := by
  have hrun : (' ' :: cs).takeWhile isGap = ' ' :: cs.takeWhile isGap :=
    List.takeWhile_cons_of_pos (by decide)
  have hbytes (n : Nat) : byteLength ((' ' :: cs).take (n + 1)) = 1 + byteLength (cs.take n) := rfl
  change EStateM.Result.ok ((' ' :: cs).drop ((' ' :: cs).takeWhile isGap).length).head?
    (⟨(' ' :: cs).drop ((' ' :: cs).takeWhile isGap).length,
      i + byteLength ((' ' :: cs).take ((' ' :: cs).takeWhile isGap).length)⟩ : Cursor) = _
  rw [hrun, List.length_cons, hbytes, ← Nat.add_assoc]
  rfl

namespace Reads

/-- What begins with no gap is told by its first character. -/
theorem token {f : Option Char → Parse β} (hc : isGap c = false)
    (h : Reads (f (some c)) (c :: cs) S b) : Reads (peekToken? >>= f) (c :: cs) S b := by
  intro r hr i
  obtain ⟨j, hj⟩ := h hr i
  refine ⟨j, ?_⟩
  rw [List.cons_append, bind_ok (peekToken?_of_leaves (Leaves.cons hc _))]
  exact hj

theorem token_fails {f : Option Char → Parse β} (hc : isGap c = false)
    (h : Fails (f (some c)) (c :: cs) S) : Fails (peekToken? >>= f) (c :: cs) S := by
  intro r hr i
  obtain ⟨failure, cursor, hfailure⟩ := h hr i
  refine ⟨failure, cursor, ?_⟩
  rw [List.cons_append, bind_ok (peekToken?_of_leaves (Leaves.cons hc _))]
  exact hfailure

theorem blank {f : Option Char → Parse β} (h : Reads (peekToken? >>= f) cs S b) :
    Reads (peekToken? >>= f) (' ' :: cs) S b := by
  intro r hr i
  obtain ⟨j, hj⟩ := h hr (i + 1)
  refine ⟨j, ?_⟩
  rw [bind_apply] at hj ⊢
  rw [List.cons_append, peekToken?_blank, hj]

/-- The character that the rest begins with can be looked at. -/
theorem ahead {f : Option Char → Parse β} (hc : isGap c = false)
    (h : Reads (f (some c)) [] (fun r => r.head? = some c) b) :
    Reads (peekToken? >>= f) [] (fun r => r.head? = some c) b := by
  intro r hr i
  obtain ⟨r, rfl⟩ := List.head?_eq_some_iff.1 hr
  obtain ⟨j, hj⟩ := h hr i
  refine ⟨j, ?_⟩
  rw [List.nil_append, bind_ok (peekToken?_of_leaves (Leaves.cons hc r))]
  exact hj

end Reads

/-! ## Sequences -/

/-- What stands before a thing: all but the first come after a comma and a blank. -/
def lead : Bool → List Char
  | true => []
  | false => [',', ' ']

/-- Things one after another, each with what stands before it. -/
def led (text : α → List Char) : Bool → List α → List Char
  | _, [] => []
  | first, a :: as => lead first ++ (text a ++ led text false as)

theorem led_eq_commaText (text : α → List Char) (as : List α) :
    led text true as = commaText text as := by
  have hmore (as : List α) : led text false as = as.flatMap fun a => ',' :: ' ' :: text a := by
    induction as with
    | nil => rfl
    | cons a as ih => simp [led, lead, ih]
  cases as with
  | nil => rfl
  | cons a as => rw [led, hmore, commaText, lead, List.nil_append]

theorem length_le_led {text : α → List Char} {as : List α} (h : ∀ a ∈ as, text a ≠ [])
    (first : Bool) : as.length ≤ (led text first as).length := by
  induction as generalizing first with
  | nil => exact Nat.zero_le _
  | cons a as ih =>
    obtain ⟨ha, has⟩ := List.forall_mem_cons.1 h
    have hlength := List.length_pos_iff.2 ha
    have hrest := ih has false
    simp only [led, List.length_append, List.length_cons]
    omega

/-- Before the closing bracket nothing more comes. Anything else begins with a character of some
kind, after what stands before it. -/
structure Separates (more : Bool → Parse Bool) (opens : Char → Prop) (close : Char) : Prop where
  stop : ∀ first, Reads (more first) [] (fun r => r.head? = some close) false
  go : ∀ first c, opens c → Reads (more first) (lead first) (fun r => r.head? = some c) true

theorem separates_hasItem : Separates hasItem (fun c => isGap c = false ∧ c ≠ ']') ']' where
  stop _ := .ahead rfl (.pure false)
  go first c hc := by
    cases first with
    | true =>
      refine .ahead hc.1 ?_
      simp only [if_neg hc.2]
      exact .pure true
    | false =>
      refine .token rfl ((Reads.skip ',').before (.blank (.ahead hc.1 ?_)))
      split
      · contradiction
      · exact absurd (Option.some.inj ‹_›) hc.2
      · exact .pure true

theorem separates_hasKey : Separates hasKey (fun c => c = '"') '\x7d' where
  stop _ := .ahead rfl (.pure false)
  go first c hc := by
    subst hc
    cases first with
    | true => exact .ahead rfl (.pure true)
    | false => exact .token rfl ((Reads.skip ',').before (.blank (.ahead rfl (.pure true))))

section

variable {more : Bool → Parse Bool} {item : Parse α} {opens : Char → Prop} {close : Char}
  {text : α → List Char} {as : List α} {P : α → Prop}

/-- What follows a thing begins with a comma, or it is the bracket. -/
theorem follows_led (hrest : ∀ c, c = ',' ∨ c = close → ∀ r, S (c :: r)) (text : α → List Char)
    (as : List α) (r : List Char) : S (led text false as ++ [close] ++ r) := by
  cases as with
  | nil => exact hrest _ (.inr rfl) _
  | cons a as => exact hrest _ (.inl rfl) _

theorem reads_manyWithin (hmore : Separates more opens close)
    (has : ∀ a ∈ as, (∃ c cs, text a = c :: cs ∧ opens c) ∧ Reads item (text a) S a)
    (hrest : ∀ c, c = ',' ∨ c = close → ∀ r, S (c :: r)) {bound : List Char}
    (hbound : as.length < bound.length) (first : Bool) :
    Reads (manyWithin more item bound first) (led text first as ++ [close]) Anything as := by
  induction as generalizing bound first with
  | nil =>
    obtain ⟨_, bound, rfl⟩ := List.exists_cons_of_length_pos hbound
    exact (hmore.stop first).bind ((Reads.skip close).before (.pure [])) fun _ _ => rfl
  | cons a as ih =>
    obtain ⟨⟨⟨c, cs, htext, hc⟩, ha⟩, has⟩ := List.forall_mem_cons.1 has
    obtain ⟨_, bound, rfl⟩ := List.exists_cons_of_length_pos (Nat.zero_lt_of_lt hbound)
    have hthings := ih has (Nat.lt_of_succ_lt_succ hbound) false
    rw [manyWithin, led, List.append_assoc, List.append_assoc]
    refine (hmore.go first c hc).bind ?_ fun r _ => by rw [htext]; rfl
    exact ha.bind (hthings.map rfl) fun r _ => follows_led hrest text as r

/-- With a thing among them that cannot be read, the things cannot. -/
theorem fails_manyWithin (hmore : Separates more opens close)
    (has : ∀ a ∈ as, ∃ c cs, text a = c :: cs ∧ opens c)
    (hreads : ∀ a ∈ as, P a → Reads item (text a) S a)
    (hfails : ∀ a ∈ as, ¬ P a → Fails item (text a) S)
    (hrest : ∀ c, c = ',' ∨ c = close → ∀ r, S (c :: r)) (hbad : ∃ a ∈ as, ¬ P a)
    {bound : List Char} (hbound : as.length < bound.length) (first : Bool) :
    Fails (manyWithin more item bound first) (led text first as ++ [close]) Anything := by
  induction as generalizing bound first with
  | nil => simp at hbad
  | cons a as ih =>
    rw [List.forall_mem_cons] at has hreads hfails
    obtain ⟨⟨c, cs, htext, hc⟩, has⟩ := has
    obtain ⟨_, bound, rfl⟩ := List.exists_cons_of_length_pos (Nat.zero_lt_of_lt hbound)
    rw [manyWithin, led, List.append_assoc, List.append_assoc]
    refine (hmore.go first c hc).bind_fails ?_ fun r _ => by rw [htext]; rfl
    by_cases ha : P a
    · -- the first thing is read, so the one that cannot be is among the others
      have hlater : ∃ b ∈ as, ¬ P b := by
        obtain ⟨b, hb, hnot⟩ := hbad
        rcases List.mem_cons.1 hb with rfl | hb
        · exact absurd ha hnot
        · exact ⟨b, hb, hnot⟩
      have hthings := ih has hreads.2 hfails.2 hlater (Nat.lt_of_succ_lt_succ hbound) false
      exact (hreads.1 ha).bind_fails hthings.bind fun r _ => follows_led hrest text as r
    · exact ((hfails.1 ha).append fun r _ => follows_led hrest text as r).bind

/-- The bound has more characters than there are things. -/
theorem length_lt_bound (has : ∀ a ∈ as, ∃ c cs, text a = c :: cs) (bracket : Char)
    (r : List Char) : as.length < (bracket :: (led text true as ++ [close]) ++ r).length := by
  have hlength : as.length ≤ (led text true as).length := by
    refine length_le_led (fun a ha => ?_) true
    obtain ⟨c, cs, htext⟩ := has a ha
    simp [htext]
  simp only [List.length_append, List.length_cons]
  omega

/-- **Things with commas between them**, in brackets. -/
theorem Reads.many (hmore : Separates more opens close)
    (has : ∀ a ∈ as, (∃ c cs, text a = c :: cs ∧ opens c) ∧ Reads item (text a) S a)
    (hrest : ∀ c, c = ',' ∨ c = close → ∀ r, S (c :: r)) (bracket : Char) :
    Reads (many more item) (bracket :: (commaText text as ++ [close])) Anything as := by
  intro r _ i
  rw [← led_eq_commaText]
  have hbound : as.length < (bracket :: (led text true as ++ [close]) ++ r).length :=
    length_lt_bound (fun a ha => (has a ha).1.imp fun _ => Exists.imp fun _ h => h.1) bracket r
  exact reads_manyWithin hmore has hrest hbound true trivial (i + byteLength [bracket])

theorem Fails.many (hmore : Separates more opens close)
    (has : ∀ a ∈ as, ∃ c cs, text a = c :: cs ∧ opens c)
    (hreads : ∀ a ∈ as, P a → Reads item (text a) S a)
    (hfails : ∀ a ∈ as, ¬ P a → Fails item (text a) S)
    (hrest : ∀ c, c = ',' ∨ c = close → ∀ r, S (c :: r)) (hbad : ∃ a ∈ as, ¬ P a)
    (bracket : Char) :
    Fails (many more item) (bracket :: (commaText text as ++ [close])) Anything := by
  intro r _ i
  rw [← led_eq_commaText]
  have hbound : as.length < (bracket :: (led text true as ++ [close]) ++ r).length :=
    length_lt_bound (fun a ha => (has a ha).imp fun _ => Exists.imp fun _ h => h.1) bracket r
  exact fails_manyWithin hmore has hreads hfails hrest hbad hbound true trivial
    (i + byteLength [bracket])

end

end Templating.Json
