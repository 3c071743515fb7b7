import Templating.Proofs.Calendar.Compact
import Templating.Proofs.Value.Relabel
import Templating.Proofs.Wire.Pieces

/-!
# Writing and reading in step

The writer numbers strings and templates, the reader records strings and objects. Both stay in step:
what the writer has under a number, the reader has at that index.

* `Scene`: the templates that are known, and the objects that have begun and not ended.
* `Synced`: the writer and the reader are in step.
* `Mirrors`: an action reads exactly what another one writes, and keeps them in step.
* `Mirrors.bind`: one action after another.
-/

namespace Templating.Wire

open Text

variable {α β : Type}

/-! ## In step -/

/-- What surrounds an item: the templates that occur in the whole, the identities and the numbers of
those that are being written, and the numbers of all objects that are being written. -/
structure Scene where
  known : Template → Prop
  /-- An identity stands for one template. -/
  coherent : ∀ t u, known t → known u → t.id = u.id → t = u
  opened : List (Nat × Nat)
  pending : List Nat
  /-- The reader gives identities from here on. -/
  base : Nat

/-- A function gives templates the identities they were read back with. -/
def Follows (σ : Nat → Nat) (names : List (Nat × Nat)) : Prop := ∀ p ∈ names, σ p.1 = p.2

/-- The writer and the reader are in step. The list holds the identities of the templates that
ended, before and after. -/
structure Synced (scene : Scene) (s : Writer) (r : Reader) (names : List (Nat × Nat)) : Prop where
  size : r.records.size = s.records
  records_le : s.records ≤ s.out.length
  string_at : ∀ x i, s.strings.lookup x = some i → r.records[i]? = some (some (.value (.str x)))
  string_numbered : ∀ x i, r.records[i]? = some (some (.value (.str x))) →
    s.strings.lookup x = some i
  opened_at : ∀ p ∈ scene.opened, s.templates.lookup p.1 = some p.2
  template_at : ∀ id i, s.templates.lookup id = some i → id ∈ scene.opened.map Prod.fst ∨
    ∃ t t', scene.known t ∧ t.id = id ∧ r.records[i]? = some (some (.value (.template t'))) ∧
      ∀ σ, Follows σ names → t'.relabel .anonymous = t.relabel (.readBack σ)
  template_numbered : ∀ t' i, r.records[i]? = some (some (.value (.template t'))) →
    ∃ id, s.templates.lookup id = some i ∧ (id, t'.id) ∈ names
  pending_at : ∀ i ∈ scene.pending, r.records[i]? = some none
  named : ∀ p ∈ names, (s.templates.lookup p.1).isSome ∧ p.1 ∉ scene.opened.map Prod.fst
  olds_nodup : (names.map Prod.fst).Nodup
  news_nodup : (names.map Prod.snd).Nodup
  news_range : ∀ p ∈ names, scene.base ≤ p.2 ∧ p.2 < r.fresh
  base_le : scene.base ≤ r.fresh

/-- The beginning of a text. -/
def Begins (K : List Char) (text : List Char) : Prop :=
  ∃ c ∈ K, ∃ rest, text = c :: rest

/-- Any text. -/
def Any (_ : List Char) : Prop := True

/-- An action reads exactly what another one writes. Numbers have 64 bits, so the text has to be
shorter than that. What is read depends on the identities that templates are read back with. -/
def Mirrors (scene : Scene) (S : List Char → Prop) (w : Write) (x : Read α)
    (Q : (Nat → Nat) → α → Prop) : Prop :=
  ∀ s r names, Synced scene s r names →
    ∃ s' text a r' names', w s = .ok () s' ∧ s'.out.toList = s.out.toList ++ text ∧ S text ∧
      (s'.out.length < 0x10000000000000000 →
        ∀ rest, x (r.facing (text ++ rest)) = .ok a (r'.facing rest)) ∧
      Synced scene s' r' names' ∧ ∀ σ, Follows σ names' → Follows σ names ∧ Q σ a

/-- A list of names with distinct first components is a function. -/
theorem exists_follows {names : List (Nat × Nat)} (h : (names.map Prod.fst).Nodup) :
    ∃ σ, Follows σ names := by
  induction names with
  | nil => exact ⟨id, by simp [Follows]⟩
  | cons p names ih =>
    simp only [List.map_cons, List.nodup_cons] at h
    obtain ⟨σ, hσ⟩ := ih h.2
    refine ⟨fun i => if i = p.1 then p.2 else σ i, ?_⟩
    simp only [Follows, List.forall_mem_cons, if_true, true_and]
    intro q hq
    have hne : q.1 ≠ p.1 := fun heq => h.1 (heq ▸ List.mem_map_of_mem hq)
    rw [if_neg hne, hσ q hq]

variable {scene : Scene} {S S₁ S₂ : List Char → Prop} {w w₁ w₂ : Write}

theorem Begins.append {K text₁ : List Char} (h : Begins K text₁) (text₂ : List Char) :
    Begins K (text₁ ++ text₂) := by
  obtain ⟨c, hc, rest, rfl⟩ := h
  exact ⟨c, hc, rest ++ text₂, rfl⟩

theorem Begins.mono {K codes' text : List Char} (h : Begins K text)
    (hsub : K ⊆ codes') : Begins codes' text := by
  obtain ⟨c, hc, rest, rfl⟩ := h
  exact ⟨c, hsub hc, rest, rfl⟩

/-! ## One action after another -/

theorem Mirrors.conseq {x : Read α} {Q Q' : (Nat → Nat) → α → Prop}
    (h : Mirrors scene S₁ w x Q) (hS : ∀ text, S₁ text → S text)
    (hQ : ∀ σ a, Q σ a → Q' σ a) : Mirrors scene S w x Q' := by
  intro s r names hsync
  obtain ⟨s', text, a, r', names', hw, hout, htext, hread, hsync', hσ⟩ := h s r names hsync
  exact ⟨s', text, a, r', names', hw, hout, hS text htext, hread, hsync',
    fun σ h => ⟨(hσ σ h).1, hQ σ a (hσ σ h).2⟩⟩

theorem Mirrors.any {x : Read α} {Q : (Nat → Nat) → α → Prop} (h : Mirrors scene S w x Q) :
    Mirrors scene Any w x Q :=
  h.conseq (fun _ _ => trivial) fun _ _ => id

/-- The result of an action that writes nothing is given. -/
theorem Mirrors.pure (a : α) :
    Mirrors scene Any (Pure.pure ()) (Pure.pure a : Read α) fun _ b => b = a :=
  fun s r names hsync => ⟨s, [], a, r, names, rfl, by simp, trivial, fun _ _ => rfl, hsync,
    fun _ h => ⟨h, rfl⟩⟩

/-- An identity is taken without a trace in the text. -/
theorem Mirrors.freshId :
    Mirrors scene Any (Pure.pure ()) freshId fun _ _ => True := by
  intro s r names hsync
  refine ⟨s, [], r.fresh, { r with fresh := r.fresh + 1 }, names, rfl, by simp, trivial,
    fun _ _ => rfl, ?_, fun _ h => ⟨h, trivial⟩⟩
  exact { hsync with
    news_range := fun p hp =>
      ⟨(hsync.news_range p hp).1, Nat.lt_succ_of_lt (hsync.news_range p hp).2⟩
    base_le := Nat.le_succ_of_le hsync.base_le }

/-- Nothing more is written while the reader goes on. -/
theorem Mirrors.of_bind_pure {x : Read α} {Q : (Nat → Nat) → α → Prop}
    (h : Mirrors scene S (w >>= fun _ => Pure.pure ()) x Q) : Mirrors scene S w x Q := by
  rwa [show (w >>= fun _ => Pure.pure ()) = w from bind_pure w] at h

/-- One action after another. -/
theorem Mirrors.bind_of {x : Read α} {f : α → Read β} {P : (Nat → Nat) → α → Prop}
    {R : α → (Nat → Nat) → β → Prop} (hx : Mirrors scene S₁ w₁ x P)
    (hf : ∀ a, (∃ σ, P σ a) → Mirrors scene S₂ w₂ (f a) (R a))
    (hS : ∀ text₁ text₂, S₁ text₁ → S₂ text₂ → S (text₁ ++ text₂)) :
    Mirrors scene S (w₁ >>= fun _ => w₂) (x >>= f)
      fun σ b => ∃ a, P σ a ∧ R a σ b := by
  intro s r names hsync
  obtain ⟨s₁, text₁, a, r₁, names₁, hw₁, hout₁, htext₁, hread₁, hsync₁, hσ₁⟩ := hx s r names hsync
  obtain ⟨σ, hσ⟩ := exists_follows hsync₁.olds_nodup
  obtain ⟨s₂, text₂, b, r₂, names₂, hw₂, hout₂, htext₂, hread₂, hsync₂, hσ₂⟩ :=
    hf a ⟨σ, (hσ₁ σ hσ).2⟩ s₁ r₁ names₁ hsync₁
  refine ⟨s₂, text₁ ++ text₂, b, r₂, names₂, ?_, ?_, hS _ _ htext₁ htext₂, ?_, hsync₂, ?_⟩
  · rw [bind_ok hw₁, hw₂]
  · rw [hout₂, hout₁, List.append_assoc]
  · intro hlen rest
    have hle : s₁.out.length ≤ s₂.out.length := by
      have := congrArg List.length hout₂
      simp only [String.length_toList, List.length_append] at this
      omega
    rw [List.append_assoc, bind_ok (hread₁ (by omega) (text₂ ++ rest)), hread₂ hlen rest]
  · intro σ h
    obtain ⟨h₁, hb⟩ := hσ₂ σ h
    obtain ⟨h₀, ha⟩ := hσ₁ σ h₁
    exact ⟨h₀, a, ha, hb⟩

theorem Mirrors.bind {x : Read α} {f : α → Read β} {P : (Nat → Nat) → α → Prop}
    {R : α → (Nat → Nat) → β → Prop} (hx : Mirrors scene S₁ w₁ x P)
    (hf : ∀ a, (∃ σ, P σ a) → Mirrors scene Any w₂ (f a) (R a)) :
    Mirrors scene Any (w₁ >>= fun _ => w₂) (x >>= f) fun σ b => ∃ a, P σ a ∧ R a σ b :=
  hx.bind_of hf fun _ _ _ _ => trivial

/-- An action whose result is known. -/
theorem Mirrors.bind_eq {x : Read α} {a : α} {f : α → Read β} {Q : (Nat → Nat) → β → Prop}
    (hx : Mirrors scene S₁ w₁ x fun _ b => b = a) (hf : Mirrors scene Any w₂ (f a) Q) :
    Mirrors scene Any (w₁ >>= fun _ => w₂) (x >>= f) Q := by
  refine (hx.bind (R := fun _ => Q) fun b ⟨_, hb⟩ => hb ▸ hf).conseq (fun _ => id) ?_
  rintro σ b ⟨_, _, hQ⟩
  exact hQ

/-- The first of two actions decides how the text begins. -/
theorem Mirrors.begins_bind {K : List Char} {x : Read α} {f : α → Read β}
    {P : (Nat → Nat) → α → Prop} {R : α → (Nat → Nat) → β → Prop}
    (hx : Mirrors scene (Begins K) w₁ x P)
    (hf : ∀ a, (∃ σ, P σ a) → Mirrors scene Any w₂ (f a) (R a)) :
    Mirrors scene (Begins K) (w₁ >>= fun _ => w₂) (x >>= f)
      fun σ b => ∃ a, P σ a ∧ R a σ b :=
  hx.bind_of hf fun _ text₂ h _ => h.append text₂

/-- A result that is taken further without reading. -/
theorem Mirrors.bind_pure {x : Read α} {f : α → Read β} {Q : (Nat → Nat) → α → Prop}
    {Q' : (Nat → Nat) → β → Prop} (hx : Mirrors scene S w x Q)
    (hf : ∀ a, (∃ σ, Q σ a) → ∃ b, f a = Pure.pure b ∧ ∀ σ, Q σ a → Q' σ b) :
    Mirrors scene S w (x >>= f) Q' := by
  intro s r names hsync
  obtain ⟨s', text, a, r', names', hw, hout, htext, hread, hsync', hσ⟩ := hx s r names hsync
  obtain ⟨σ, hfollows⟩ := exists_follows hsync'.olds_nodup
  obtain ⟨b, hb, hQ⟩ := hf a ⟨σ, (hσ σ hfollows).2⟩
  refine ⟨s', text, b, r', names', hw, hout, htext, fun hlen rest => ?_, hsync',
    fun σ h => ⟨(hσ σ h).1, hQ σ (hσ σ h).2⟩⟩
  rw [bind_ok (hread hlen rest), hb, pure_apply]

theorem Mirrors.map {x : Read α} {Q : (Nat → Nat) → α → Prop} (hx : Mirrors scene S w x Q)
    (f : α → β) : Mirrors scene S w (x >>= fun a => Pure.pure (f a))
      fun σ b => ∃ a, Q σ a ∧ b = f a :=
  hx.bind_pure fun a _ => ⟨f a, rfl, fun _ ha => ⟨a, ha, rfl⟩⟩

/-! ## Actions that only move the reader -/

theorem Synced.of_emit {s : Writer} {r r' : Reader} {names : List (Nat × Nat)}
    (h : Synced scene s r names) (text : String) (hrecords : r'.records = r.records)
    (hfresh : r'.fresh = r.fresh) :
    Synced scene { s with out := s.out ++ text } r' names := by
  obtain ⟨rest, offset, records, fresh⟩ := r'
  subst hrecords hfresh
  have hle : s.records ≤ (s.out ++ text).length := by
    rw [String.length_append]
    exact Nat.le_add_right_of_le h.records_le
  exact { h with records_le := hle }

/-- A text is read without any record. -/
theorem Mirrors.written {text : String} {x : Read α} {a : α} (hS : S text.toList)
    (hx : ∀ (r : Reader) rest,
      x (r.facing (text.toList ++ rest)) = .ok a (r.behind text.toList rest)) :
    Mirrors scene S (emit text) x fun _ b => b = a :=
  fun s r names hsync => ⟨{ s with out := s.out ++ text }, text.toList, a,
    r.behind text.toList r.rest, names, rfl, by simp, hS, fun _ rest => hx r rest,
    hsync.of_emit text rfl rfl, fun _ h => ⟨h, rfl⟩⟩

/-- A character that has to come next. -/
theorem Mirrors.comes {text : String} {c : Char} (htext : text.toList = [c])
    (hc : isBlank c = false) :
    Mirrors scene (Begins [c]) (emit text) (expect c) fun _ _ => True := by
  refine (Mirrors.written (a := ()) (S := Begins [c]) ?_ fun r rest => ?_).conseq
    (fun _ => id) fun _ _ _ => trivial
  · exact ⟨c, by simp, [], htext⟩
  · rw [htext]
    exact expect_apply rfl hc

theorem Mirrors.here_bind {f : Nat → Read α} {Q : (Nat → Nat) → α → Prop}
    (h : ∀ offset, Mirrors scene S w (f offset) Q) :
    Mirrors scene S w (here >>= f) Q :=
  fun s r names hsync => h r.offset s r names hsync

/-- No blanks come before a text that begins with none. -/
theorem Mirrors.skipBlanks_bind {K : List Char} {f : Unit → Read α}
    {Q : (Nat → Nat) → α → Prop} (h : Mirrors scene (Begins K) w (f ()) Q)
    (hcodes : K.all (!isBlank ·)) :
    Mirrors scene (Begins K) w (skipBlanks >>= f) Q := by
  intro s r names hsync
  obtain ⟨s', text, a, r', names', hw, hout, htext, hread, hsync', hσ⟩ := h s r names hsync
  refine ⟨s', text, a, r', names', hw, hout, htext, fun hlen rest => ?_, hsync', hσ⟩
  obtain ⟨c, hc, tail, rfl⟩ := htext
  have hskip : skipBlanks (r.facing (c :: tail ++ rest)) = .ok () (r.facing (c :: tail ++ rest)) :=
    skipBlanks_apply (p := []) rfl (by simp) fun d hd => by
      obtain rfl : c = d := by simpa using hd
      simpa using List.all_eq_true.1 hcodes c hc
  rw [bind_ok hskip, hread hlen rest]

/-- A character that does not come next. -/
theorem Mirrors.closes_false_bind {K : List Char} {c : Char} {f : Bool → Read α}
    {Q : (Nat → Nat) → α → Prop} (h : Mirrors scene (Begins K) w (f false) Q)
    (hcodes : K.all fun d => !isBlank d && d != c) :
    Mirrors scene (Begins K) w (closes c >>= f) Q := by
  intro s r names hsync
  obtain ⟨s', text, a, r', names', hw, hout, htext, hread, hsync', hσ⟩ := h s r names hsync
  refine ⟨s', text, a, r', names', hw, hout, htext, fun hlen rest => ?_, hsync', hσ⟩
  obtain ⟨d, hd, tail, rfl⟩ := htext
  have hd' : isBlank d = false ∧ d ≠ c := by simpa using List.all_eq_true.1 hcodes d hd
  have hcloses : closes c (r.facing (d :: tail ++ rest)) =
      .ok false (r.facing (d :: tail ++ rest)) := by
    refine closes_false (p := []) rfl (by simp) (fun e he => ?_) ?_
    · obtain rfl : d = e := by simpa using he
      exact hd'.1
    · simpa using hd'.2
  rw [bind_ok hcloses, hread hlen rest]

/-- A character that comes next. -/
theorem Mirrors.ends {text : String} {c : Char} (htext : text.toList = [c])
    (hc : isBlank c = false) :
    Mirrors scene (Begins [c]) (emit text) (closes c) fun _ b => b = true := by
  refine Mirrors.written ⟨c, by simp, [], htext⟩ fun r rest => ?_
  rw [htext]
  exact closes_true (p := []) rfl (by simp) hc

end Templating.Wire
