import Mathlib.Data.List.Forall2
import Templating.Number.IntLiteral
import Templating.Proofs.Number.LiteralGrammar

/-!
# Reading integer literals

The reader works on texts in lower case, and takes a literal apart from the outside to the inside.
Digits are counted as they are read, so a text may be given up as too large before its end is seen.

* `readDigits_eq_ok_iff`: digits are read as the number in positional notation, if it is small
  enough; `readDigits_eq_tooLarge_iff`: or else the first digits are too many.
* `isDigits_iff`, `isGrouped_iff`, `ReadsDigits`: where underscores may stand, and when a prefix is
  taken.
* `Overruns`: texts that begin with a literal which is too large.
* `readLiteral_eq_ok_iff`: **the texts that are read are the literals** of numbers in range.
* `readLiteral_eq_tooLarge_iff`, `readLiteral_eq_malformed_iff`: **all other literals are too large,
  and so are the texts that overrun**; the rest is malformed.
-/

namespace Templating.Number

open Text

variable {base radix d n size : ℕ} {c : Char} {cs : List Char} {ds : List ℕ} {v : ℤ}

/-! ## Digits -/

theorem digitValue_eq_some_iff : digitValue c = some d ↔
    d < 10 ∧ c.toNat = 48 + d ∨ 10 ≤ d ∧ d < 36 ∧ c.toNat + 10 = 97 + d := by
  have hdecimal : c.isDigit = true ↔ 48 ≤ c.toNat ∧ c.toNat ≤ 57 := Char.isDigit_iff_toNat
  have hletter : 'a' ≤ c ∧ c ≤ 'z' ↔ 97 ≤ c.toNat ∧ c.toNat ≤ 122 := Iff.rfl
  simp only [digitValue, hdecimal, hletter, Char.reduceToNat]
  split
  · rw [Option.some_inj]
    omega
  · split
    · rw [Option.some_inj]
      omega
    · refine iff_of_false (Option.some_ne_none d).symm ?_
      omega

theorem digit?_eq_some_iff (hc : c.toLower = c) :
    digit? radix c = some d ↔ IsDigit radix c d := by
  have hupper : ¬ (65 ≤ c.toNat ∧ c.toNat ≤ 90) := by
    intro h
    have hcode := toNat_toLower c
    rw [hc, if_pos h] at hcode
    omega
  rw [digit?, Option.filter_eq_some_iff, digitValue_eq_some_iff, decide_eq_true_eq, IsDigit]
  simp only [Char.reduceToNat]
  omega

/-- Only the zero has the value 0. -/
theorem eq_zero_iff_of_digit? (h : digit? radix c = some d) : c = '0' ↔ d = 0 := by
  have hvalue := digitValue_eq_some_iff.1 (Option.filter_eq_some_iff.1 h).1
  rw [← Char.toNat_inj]
  simp only [Char.reduceToNat]
  omega

/-- The number in positional notation, one digit after another. -/
theorem positional_eq_foldl (radix : ℕ) (ds : List ℕ) :
    positional radix ds = ds.foldl (fun n d => radix * n + d) 0 := by
  rw [positional, Nat.ofDigits_eq_foldr, List.foldr_reverse]
  simp only [Nat.cast_id, add_comm]

/-- What digits in front of more digits stand for is not larger. -/
theorem le_foldl (hradix : radix ≠ 0) (ds : List ℕ) (n : ℕ) :
    n ≤ ds.foldl (fun n d => radix * n + d) n := by
  induction ds generalizing n with
  | nil => exact le_rfl
  | cons d ds ih =>
    have hle : n ≤ radix * n := Nat.le_mul_of_pos_left n (Nat.pos_of_ne_zero hradix)
    exact (hle.trans (Nat.le_add_right _ d)).trans (ih _)

/-- **Digits are read as the number in positional notation**, if that stays below the limit. -/
theorem readDigits_eq_ok_iff (hradix : radix ≠ 0) (hn : n < magnitudeLimit) :
    readDigits radix n cs = .ok size ↔
      ∃ ds, List.Forall₂ (fun c d => digit? radix c = some d) cs ds ∧
        ds.foldl (fun n d => radix * n + d) n = size ∧ size < magnitudeLimit := by
  induction cs generalizing n with
  | nil =>
    rw [readDigits, Except.ok.injEq]
    constructor
    · rintro rfl
      exact ⟨[], .nil, rfl, hn⟩
    · rintro ⟨ds, hds, hsize, -⟩
      cases hds
      exact hsize
  | cons c cs ih =>
    rw [readDigits]
    cases hc : digit? radix c with
    | none =>
      refine iff_of_false (fun h => nomatch h) ?_
      rintro ⟨ds, hds, -⟩
      obtain ⟨d, ds, hd, -, rfl⟩ := List.forall₂_cons_left_iff.1 hds
      rw [hc] at hd
      cases hd
    | some d =>
      dsimp only
      split
      · rename_i hnext
        rw [ih hnext]
        constructor
        · rintro ⟨ds, hds, hsize⟩
          exact ⟨d :: ds, .cons hc hds, hsize⟩
        · rintro ⟨ds, hds, hsize⟩
          obtain ⟨d', ds, hd, hrest, rfl⟩ := List.forall₂_cons_left_iff.1 hds
          rw [hc] at hd
          cases hd
          exact ⟨ds, hrest, hsize⟩
      · rename_i hnext
        refine iff_of_false (fun h => nomatch h) ?_
        rintro ⟨ds, hds, hsize, hlt⟩
        obtain ⟨d', ds, hd, -, rfl⟩ := List.forall₂_cons_left_iff.1 hds
        rw [hc] at hd
        cases hd
        -- the number only grows with the digits that follow
        exact hnext ((le_foldl hradix ds _).trans_lt (hsize ▸ hlt))

/-- **Digits are too large as soon as the first of them are**, whatever follows. -/
theorem readDigits_eq_tooLarge_iff (hn : n < magnitudeLimit) :
    readDigits radix n cs = .error .tooLarge ↔
      ∃ front rest ds, cs = front ++ rest ∧
        List.Forall₂ (fun c d => digit? radix c = some d) front ds ∧
        magnitudeLimit ≤ ds.foldl (fun n d => radix * n + d) n := by
  induction cs generalizing n with
  | nil =>
    refine iff_of_false (fun h => nomatch h) ?_
    rintro ⟨front, rest, ds, hcs, hds, hlarge⟩
    obtain ⟨rfl, -⟩ := List.nil_eq_append_iff.1 hcs
    cases hds
    exact absurd hn (Nat.not_lt.2 hlarge)
  | cons c cs ih =>
    rw [readDigits]
    constructor
    · intro h
      cases hc : digit? radix c with
      | none =>
        rw [hc] at h
        cases h
      | some d =>
        rw [hc] at h
        dsimp only at h
        split at h
        · rename_i hnext
          obtain ⟨front, rest, ds, rfl, hds, hlarge⟩ := (ih hnext).1 h
          exact ⟨c :: front, rest, d :: ds, rfl, .cons hc hds, hlarge⟩
        · rename_i hnext
          -- the limit is passed with this digit, so nothing behind it is looked at
          exact ⟨[c], cs, [d], rfl, .cons hc .nil, Nat.not_lt.1 hnext⟩
    · rintro ⟨front, rest, ds, hcs, hds, hlarge⟩
      cases hds with
      | nil => exact absurd hn (Nat.not_lt.2 hlarge)
      | cons hc hds =>
        obtain ⟨rfl, rfl⟩ := List.cons.inj hcs
        rw [hc]
        dsimp only
        split
        · rename_i hnext
          exact (ih hnext).2 ⟨_, rest, _, rfl, hds, hlarge⟩
        · rfl

/-! ## Underscores -/

theorem isGrouped_apart (hc : c ≠ '_') (cs : List Char) :
    isGrouped (c :: '_' :: cs) = isGrouped cs := by
  rw [isGrouped]
  exact hc

theorem isGrouped_next {c' : Char} (hc : c ≠ '_') (hc' : c' ≠ '_') (cs : List Char) :
    isGrouped (c :: c' :: cs) = isGrouped (c' :: cs) := by
  rw [isGrouped]
  · exact fun h => absurd h hc
  · exact fun h => nomatch h
  · exact hc
  · rintro _ ⟨⟩
    exact hc' rfl

/-- Single underscores stand between digits exactly if the text is grouped and what is left without
them are the digits. -/
theorem isDigits_iff (hlower : ∀ c ∈ cs, c.toLower = c) :
    IsDigits radix cs ds ↔ isGrouped cs = true ∧
      List.Forall₂ (fun c d => digit? radix c = some d) (cs.filter (· ≠ '_')) ds := by
  constructor
  · intro h
    induction h with
    | @single c d hc =>
      have hne : c ≠ '_' := hc.ne (by decide)
      rw [List.forall_mem_singleton] at hlower
      refine ⟨by rw [isGrouped]; exact hne, ?_⟩
      rw [List.filter_cons_of_pos (by simpa using hne)]
      exact .cons ((digit?_eq_some_iff hlower).2 hc) .nil
    | @next c d cs ds hc hrest ih =>
      have hne : c ≠ '_' := hc.ne (by decide)
      obtain ⟨hlowerc, hlower⟩ := List.forall_mem_cons.1 hlower
      obtain ⟨hgrouped, hdigits⟩ := ih hlower
      obtain ⟨first, -, hfirst, -, ⟨k, hk⟩, -⟩ := hrest.ends
      obtain ⟨rest, rfl⟩ := List.head?_eq_some_iff.1 hfirst
      refine ⟨by rwa [isGrouped_next hne (hk.ne (by decide))], ?_⟩
      rw [List.filter_cons_of_pos (by simpa using hne)]
      exact .cons ((digit?_eq_some_iff hlowerc).2 hc) hdigits
    | @apart c d cs ds hc _ ih =>
      have hne : c ≠ '_' := hc.ne (by decide)
      obtain ⟨hlowerc, hlower⟩ := List.forall_mem_cons.1 hlower
      obtain ⟨hgrouped, hdigits⟩ := ih (List.forall_mem_cons.1 hlower).2
      refine ⟨by rwa [isGrouped_apart hne], ?_⟩
      rw [List.filter_cons_of_pos (by simpa using hne), List.filter_cons_of_neg (by simp)]
      exact .cons ((digit?_eq_some_iff hlowerc).2 hc) hdigits
  · rintro ⟨hgrouped, hdigits⟩
    -- by the cases of the check, which skips an underscore together with the digit before it
    induction cs using isGrouped.induct generalizing ds with
    | case1 => cases hgrouped
    | case2 => cases hgrouped
    | case3 c hne =>
      rw [List.filter_cons_of_pos (by simpa using hne)] at hdigits
      obtain ⟨d, ds, hd, hrest, rfl⟩ := List.forall₂_cons_left_iff.1 hdigits
      cases hrest
      exact .single ((digit?_eq_some_iff (hlower c List.mem_cons_self)).1 hd)
    | case4 cs hne =>
      rw [isGrouped] at hgrouped
      · cases hgrouped
      · exact hne
    | case5 c cs hne ih =>
      obtain ⟨hlowerc, hlower⟩ := List.forall_mem_cons.1 hlower
      rw [isGrouped_apart hne] at hgrouped
      rw [List.filter_cons_of_pos (by simpa using hne), List.filter_cons_of_neg (by simp)]
        at hdigits
      obtain ⟨d, ds, hd, hrest, rfl⟩ := List.forall₂_cons_left_iff.1 hdigits
      exact .apart ((digit?_eq_some_iff hlowerc).1 hd)
        (ih (List.forall_mem_cons.1 hlower).2 hgrouped hrest)
    | case6 c cs _ hcs hne hbar ih =>
      obtain ⟨c', cs, rfl⟩ := List.exists_cons_of_ne_nil hcs
      obtain ⟨hlowerc, hlower⟩ := List.forall_mem_cons.1 hlower
      rw [isGrouped_next hne fun h => hbar cs (h ▸ rfl)] at hgrouped
      rw [List.filter_cons_of_pos (by simpa using hne)] at hdigits
      obtain ⟨d, ds, hd, hrest, rfl⟩ := List.forall₂_cons_left_iff.1 hdigits
      exact .next ((digit?_eq_some_iff hlowerc).1 hd) (ih hlower hgrouped hrest)

/-- What may stand behind a digit: any characters, with single underscores between them. -/
inductive Trails : List Char → Prop where
  | nil : Trails []
  | next {c : Char} {cs : List Char} : c ≠ '_' → Trails cs → Trails (c :: cs)
  | apart {c : Char} {cs : List Char} : c ≠ '_' → Trails cs → Trails ('_' :: c :: cs)

theorem Trails.append {rest : List Char} (hcs : Trails cs) (hrest : Trails rest) :
    Trails (cs ++ rest) := by
  induction hcs with
  | nil => exact hrest
  | next hc _ ih => exact .next hc ih
  | apart hc _ ih => exact .apart hc ih

/-- A cut through what is left without underscores is a cut through the text. -/
theorem Trails.split (h : Trails cs) {front rest : List Char}
    (hsplit : cs.filter (· ≠ '_') = front ++ rest) :
    ∃ front' rest', cs = front' ++ rest' ∧ front'.filter (· ≠ '_') = front ∧
      rest'.filter (· ≠ '_') = rest ∧ Trails front' ∧ Trails rest' := by
  induction h generalizing front with
  | nil =>
    obtain ⟨rfl, rfl⟩ := List.nil_eq_append_iff.1 hsplit
    exact ⟨[], [], rfl, rfl, rfl, .nil, .nil⟩
  | @next c cs hc h ih =>
    cases front with
    | nil => exact ⟨[], c :: cs, rfl, rfl, hsplit, .nil, .next hc h⟩
    | cons c' front =>
      rw [List.filter_cons_of_pos (by simpa using hc)] at hsplit
      obtain ⟨rfl, hcut⟩ := List.cons.inj hsplit
      obtain ⟨front', rest', rfl, hfront, hrest, htrails, htrails'⟩ := ih hcut
      refine ⟨c :: front', rest', rfl, ?_, hrest, .next hc htrails, htrails'⟩
      rw [List.filter_cons_of_pos (by simpa using hc), hfront]
  | @apart c cs hc h ih =>
    cases front with
    | nil => exact ⟨[], '_' :: c :: cs, rfl, rfl, hsplit, .nil, .apart hc h⟩
    | cons c' front =>
      rw [List.filter_cons_of_neg (by simp), List.filter_cons_of_pos (by simpa using hc)] at hsplit
      obtain ⟨rfl, hcut⟩ := List.cons.inj hsplit
      obtain ⟨front', rest', rfl, hfront, hrest, htrails, htrails'⟩ := ih hcut
      refine ⟨'_' :: c :: front', rest', rfl, ?_, hrest, .apart hc htrails, htrails'⟩
      rw [List.filter_cons_of_neg (by simp), List.filter_cons_of_pos (by simpa using hc), hfront]

theorem isGrouped_iff :
    isGrouped cs = true ↔ ∃ c rest, cs = c :: rest ∧ c ≠ '_' ∧ Trails rest := by
  constructor
  · intro h
    -- by the cases of the check, which skips an underscore together with the character before it
    induction cs using isGrouped.induct with
    | case1 => cases h
    | case2 => cases h
    | case3 c hne => exact ⟨c, [], rfl, hne, .nil⟩
    | case4 cs hne =>
      rw [isGrouped] at h
      · cases h
      · exact hne
    | case5 c cs hne ih =>
      rw [isGrouped_apart hne] at h
      obtain ⟨c', rest, rfl, hc', hrest⟩ := ih h
      exact ⟨c, _, rfl, hne, .apart hc' hrest⟩
    | case6 c cs _ hcs hne hbar ih =>
      obtain ⟨c', cs, rfl⟩ := List.exists_cons_of_ne_nil hcs
      rw [isGrouped_next hne fun h => hbar cs (h ▸ rfl)] at h
      obtain ⟨_, rest, ⟨⟩, hc', hrest⟩ := ih h
      exact ⟨c, _, rfl, hne, .next hc' hrest⟩
  · rintro ⟨c, rest, rfl, hc, hrest⟩
    induction hrest generalizing c with
    | nil =>
      rw [isGrouped]
      exact hc
    | next hc' _ ih =>
      rw [isGrouped_next hc hc']
      exact ih _ hc'
    | apart hc' _ ih =>
      rw [isGrouped_apart hc]
      exact ih _ hc'

/-! ## Sizes -/

/-- A zero is idle if it stands in front of other digits. -/
theorem hasIdleZero_eq_false_iff (h : List.Forall₂ (fun c d => digit? radix c = some d) cs ds) :
    hasIdleZero cs = false ↔ (ds.head? = some 0 → ∀ d ∈ ds, d = 0) := by
  have hany : (∀ c ∈ cs, c = '0') ↔ ∀ d ∈ ds, d = 0 := by
    induction h with
    | nil => simp
    | cons hc _ ih =>
      rw [List.forall_mem_cons, List.forall_mem_cons, ih, eq_zero_iff_of_digit? hc]
  have hhead : cs.head? = some '0' ↔ ds.head? = some 0 := by
    cases h with
    | nil => simp
    | cons hc _ => simpa using eq_zero_iff_of_digit? hc
  rw [hasIdleZero, ← hhead, ← hany]
  simp

theorem hasIdleZero_append (h : hasIdleZero cs = true) (rest : List Char) :
    hasIdleZero (cs ++ rest) = true := by
  rw [hasIdleZero, Bool.and_eq_true, decide_eq_true_eq] at h ⊢
  rw [List.head?_append, h.1, List.any_append, h.2]
  exact ⟨rfl, rfl⟩

theorem radixOfLetter?_eq_some_iff (hc : c.toLower = c) :
    radixOfLetter? c = some radix ↔ NamesRadix c radix := by
  constructor
  · intro h
    unfold radixOfLetter? at h
    split at h <;> cases h
    · exact .hex (.inl rfl)
    · exact .octal (.inl rfl)
    · exact .binary (.inl rfl)
  · rintro ((rfl | rfl) | (rfl | rfl) | (rfl | rfl)) <;> first | rfl | exact absurd hc (by decide)

theorem NamesRadix.unique {radix' : ℕ} (h : NamesRadix c radix) (h' : NamesRadix c radix') :
    radix = radix' := by
  have hcode {c : Char} {radix : ℕ} (h : NamesRadix c radix) :
      radixOfLetter? c.toLower = some radix :=
    (radixOfLetter?_eq_some_iff (toLower_toLower c)).2 (NamesRadix.toLower_iff.2 h)
  exact Option.some_inj.1 ((hcode h).symm.trans (hcode h'))

/-- A text with a prefix that the base takes, or one without. -/
theorem takeRadix_cases (base : ℕ) (hlower : ∀ c ∈ cs, c.toLower = c) :
    (∃ letter rest radix, cs = '0' :: letter :: rest ∧ NamesRadix letter radix ∧
        (base = 0 ∨ base = radix) ∧ takeRadix base cs = (radix, rest, true)) ∨
      (∀ letter rest radix, cs = '0' :: letter :: rest → NamesRadix letter radix →
        ¬ (base = 0 ∨ base = radix)) ∧
        takeRadix base cs = (if base = 0 then 10 else base, cs, false) := by
  unfold takeRadix
  generalize (if base = 0 then 10 else base) = plain
  dsimp only
  split
  · rename_i letter rest
    have hletter : letter.toLower = letter :=
      hlower letter (List.mem_cons_of_mem _ List.mem_cons_self)
    split
    · rename_i radix hradix
      have hnames := (radixOfLetter?_eq_some_iff hletter).1 hradix
      split
      · exact .inl ⟨letter, rest, radix, rfl, hnames, ‹_›, rfl⟩
      · refine .inr ⟨?_, rfl⟩
        rintro _ _ radix' ⟨⟩ hnames'
        -- the letter names one radix only, and it is not the base
        rwa [hnames'.unique hnames]
    · rename_i hnone
      refine .inr ⟨?_, rfl⟩
      rintro _ _ radix ⟨⟩ hnames
      rw [(radixOfLetter?_eq_some_iff hletter).2 hnames] at hnone
      cases hnone
  · rename_i hne
    exact .inr ⟨fun letter rest _ h => (hne letter rest h).elim, rfl⟩

/-- An underscore behind a prefix is dropped. -/
theorem exists_joint (rest : List Char) :
    ∃ joint, (joint = [] ∨ joint = ['_']) ∧ joint ++ dropJoint true rest = rest := by
  unfold dropJoint
  split
  · exact ⟨['_'], .inr rfl, rfl⟩
  · exact ⟨[], .inl rfl, rfl⟩

theorem dropJoint_joint {joint : List Char} (hjoint : joint = [] ∨ joint = ['_'])
    (h : IsDigits radix cs ds) (rest : List Char) :
    dropJoint true (joint ++ (cs ++ rest)) = cs ++ rest := by
  obtain rfl | rfl := hjoint
  · obtain ⟨c, -, hfirst, -, ⟨k, hk⟩, -⟩ := h.ends
    obtain ⟨tail, rfl⟩ := List.head?_eq_some_iff.1 hfirst
    unfold dropJoint
    split
    · rename_i heq
      cases heq
      exact (hk.ne (by decide) rfl).elim
    · rfl
  · rfl

/-- Zeros stand for 0. -/
theorem positional_eq_zero (h : ∀ d ∈ ds, d = 0) : positional radix ds = 0 := by
  rw [positional_eq_foldl]
  induction ds with
  | nil => rfl
  | cons d ds ih =>
    obtain ⟨rfl, hzero⟩ := List.forall_mem_cons.1 h
    exact ih hzero

/-- Digits with underscores and the number that they stand for, where an idle zero may be
refused. -/
inductive IsGroup (radix : ℕ) (strict : Bool) (cs : List Char) : ℕ → Prop where
  | mk {ds : List ℕ} : IsDigits radix cs ds →
      (strict = true → ds.head? = some 0 → ∀ d ∈ ds, d = 0) →
      IsGroup radix strict cs (positional radix ds)

variable {strict : Bool}

/-- Digits with underscores are read without them, unless they are malformed. -/
theorem readGrouped_eq_iff {r : Except LiteralFault ℕ} (hr : r ≠ .error .malformed) :
    readGrouped radix strict cs = r ↔ isGrouped cs = true ∧
      ¬ (strict && hasIdleZero (cs.filter (· ≠ '_'))) = true ∧
        readDigits radix 0 (cs.filter (· ≠ '_')) = r := by
  rw [readGrouped]
  cases hgrouped : isGrouped cs with
  | false => exact iff_of_false hr.symm fun h => nomatch h.1
  | true =>
    rw [Bool.not_true, if_neg Bool.false_ne_true]
    split
    · rename_i hidle
      exact iff_of_false hr.symm fun h => h.2.1 hidle
    · rename_i hidle
      exact ⟨fun h => ⟨rfl, hidle, h⟩, fun h => h.2.2⟩

/-- Digits with underscores are read, if the number is small enough. -/
theorem readGrouped_eq_ok_iff (hlower : ∀ c ∈ cs, c.toLower = c) (hradix : radix ≠ 0) :
    readGrouped radix strict cs = .ok size ↔
      IsGroup radix strict cs size ∧ size < magnitudeLimit := by
  have hread : (.ok size : Except LiteralFault ℕ) ≠ .error .malformed := fun h => nomatch h
  rw [readGrouped_eq_iff hread]
  constructor
  · rintro ⟨hgrouped, hidle, hread⟩
    obtain ⟨ds, hdigits, rfl, hsize⟩ := (readDigits_eq_ok_iff hradix (by decide)).1 hread
    rw [← positional_eq_foldl] at hsize ⊢
    refine ⟨.mk ((isDigits_iff hlower).2 ⟨hgrouped, hdigits⟩) fun hstrict => ?_, hsize⟩
    rw [hstrict, Bool.true_and, Bool.not_eq_true] at hidle
    exact (hasIdleZero_eq_false_iff hdigits).1 hidle
  · rintro ⟨⟨hds, hzero⟩, hsize⟩
    obtain ⟨hgrouped, hdigits⟩ := (isDigits_iff hlower).1 hds
    have hidle : ¬ (strict && hasIdleZero (cs.filter (· ≠ '_'))) = true := by
      rw [Bool.and_eq_true]
      rintro ⟨hstrict, hidle⟩
      rw [(hasIdleZero_eq_false_iff hdigits).2 (hzero hstrict)] at hidle
      cases hidle
    rw [positional_eq_foldl] at hsize ⊢
    exact ⟨hgrouped, hidle, (readDigits_eq_ok_iff hradix (by decide)).2 ⟨_, hdigits, rfl, hsize⟩⟩

/-- Digits with underscores are too large if the first of them are, and if no underscore is in the
wrong place behind them. -/
theorem readGrouped_eq_tooLarge_iff (hlower : ∀ c ∈ cs, c.toLower = c) :
    readGrouped radix strict cs = .error .tooLarge ↔ ∃ front rest size, cs = front ++ rest ∧
      IsGroup radix strict front size ∧ magnitudeLimit ≤ size ∧ Trails rest := by
  rw [readGrouped_eq_iff (by decide)]
  constructor
  · rintro ⟨hgrouped, hidle, hread⟩
    obtain ⟨digits, others, ds, hcut, hdigits, hlarge⟩ :=
      (readDigits_eq_tooLarge_iff (by decide)).1 hread
    obtain ⟨c, tail, rfl, hc, htail⟩ := isGrouped_iff.1 hgrouped
    obtain ⟨front, rest, hcs, rfl, -, hfront, hrest⟩ := (Trails.next hc htail).split hcut
    refine ⟨front, rest, positional radix ds, hcs, .mk ?_ fun hstrict => ?_, ?_, hrest⟩
    · -- the first digits begin where the text does, with no underscore
      have hgrouped' : isGrouped front = true := by
        cases hfront with
        | nil =>
          cases hdigits
          exact absurd hlarge (Nat.not_le.2 (show 0 < magnitudeLimit by decide))
        | next hc' hrest' => exact isGrouped_iff.2 ⟨_, _, rfl, hc', hrest'⟩
        | apart => exact absurd (List.cons.inj hcs).1 hc
      have hlower' : ∀ c ∈ front, c.toLower = c := fun c hmem =>
        hlower c (hcs ▸ List.mem_append_left rest hmem)
      exact (isDigits_iff hlower').2 ⟨hgrouped', hdigits⟩
    · refine (hasIdleZero_eq_false_iff hdigits).1 (Bool.eq_false_iff.2 fun hzero => hidle ?_)
      rw [hstrict, Bool.true_and, hcut]
      exact hasIdleZero_append hzero _
    · rwa [positional_eq_foldl]
  · rintro ⟨front, rest, size, rfl, @⟨ds, hds, hzero⟩, hlarge, hrest⟩
    have hlower' : ∀ c ∈ front, c.toLower = c := fun c hmem =>
      hlower c (List.mem_append_left rest hmem)
    obtain ⟨hgrouped, hdigits⟩ := (isDigits_iff hlower').1 hds
    have hwhole : isGrouped (front ++ rest) = true := by
      obtain ⟨c, tail, rfl, hc, htail⟩ := isGrouped_iff.1 hgrouped
      exact isGrouped_iff.2 ⟨c, tail ++ rest, rfl, hc, htail.append hrest⟩
    have hidle : ¬ (strict && hasIdleZero ((front ++ rest).filter (· ≠ '_'))) = true := by
      rw [Bool.and_eq_true, hasIdleZero, Bool.and_eq_true, decide_eq_true_eq, List.filter_append]
      rintro ⟨hstrict, hhead, -⟩
      have hfirst : ds.head? = some 0 := by
        generalize front.filter (· ≠ '_') = digits at hdigits hhead
        cases hdigits with
        | nil =>
          rw [positional_eq_zero (List.forall_mem_nil _)] at hlarge
          exact absurd hlarge (by decide)
        | cons hc _ =>
          rw [List.cons_append, List.head?_cons, Option.some_inj] at hhead
          rw [List.head?_cons, (eq_zero_iff_of_digit? hc).1 hhead]
      -- with a zero in front, the number would be 0
      rw [positional_eq_zero (hzero hstrict hfirst)] at hlarge
      exact absurd hlarge (by decide)
    rw [positional_eq_foldl] at hlarge
    refine ⟨hwhole, hidle, (readDigits_eq_tooLarge_iff (by decide)).2 ?_⟩
    exact ⟨_, _, _, List.filter_append _ _, hdigits, hlarge⟩

/-- A single zero stands for 0. -/
theorem IsSize.eq_zero (h : IsSize base ['0'] size) : size = 0 := by
  have hzero {radix : ℕ} {ds : List ℕ} (hds : IsDigits radix ['0'] ds) : ∀ d ∈ ds, d = 0 := by
    cases hds with
    | single hd =>
      simp only [IsDigit, Char.reduceToNat] at hd
      simp only [List.mem_singleton, forall_eq]
      omega
    | next _ hrest =>
      obtain ⟨_, _, hfirst, _⟩ := hrest.ends
      cases hfirst
  cases h with
  | plain _ hds => exact positional_eq_zero (hzero hds)
  | decimal hds _ => exact positional_eq_zero (hzero hds)

/-- What is read in some base is read as digits of a radix. The text of the digits is what follows
the prefix, if there is one. In front of a rest, the sizes of the base are the digits, since nothing
that has a prefix can be read without it. -/
structure ReadsDigits (base : ℕ) (cs : List Char) (radix : ℕ) (strict : Bool)
    (body : List Char) : Prop where
  read : readMagnitude base cs = readGrouped radix strict body
  radix_ne_zero : radix ≠ 0
  lower : ∀ c ∈ body, c.toLower = c
  isSize_iff : ∀ rest size, rest = [] ∨ size ≠ 0 →
    ((∃ front, cs = front ++ rest ∧ IsSize base front size) ↔
      ∃ front, body = front ++ rest ∧ IsGroup radix strict front size)

/-- A prefix that the base takes. -/
theorem readsDigits_marked {letter : Char} {rest : List Char}
    (hlower : ∀ c ∈ '0' :: letter :: rest, c.toLower = c) (hletter : NamesRadix letter radix)
    (hbase : base = 0 ∨ base = radix)
    (htake : takeRadix base ('0' :: letter :: rest) = (radix, rest, true)) :
    ReadsDigits base ('0' :: letter :: rest) radix false (dropJoint true rest) := by
  obtain ⟨joint, hjoint, hrest⟩ := exists_joint rest
  refine ⟨?read, by cases hletter <;> decide, fun c hc => ?lower, fun behind size hbehind =>
    ⟨?digits, ?size⟩⟩
  case read =>
    rw [readMagnitude, htake]
    dsimp only
    rw [Bool.not_true, Bool.and_false]
  case lower =>
    have hmem : c ∈ rest := hrest ▸ List.mem_append_right joint hc
    exact hlower c (List.mem_cons_of_mem _ (List.mem_cons_of_mem _ hmem))
  case digits =>
    rintro ⟨front, hfront, hsize⟩
    rcases front with _ | ⟨c, _ | ⟨c', front⟩⟩
    · obtain ⟨_, _, hfirst, _⟩ := hsize.ends
      cases hfirst
    · -- the zero of the prefix alone is no size in front of a rest
      obtain ⟨rfl, rfl⟩ := List.cons.inj hfront
      exact absurd hsize.eq_zero (hbehind.resolve_left (List.cons_ne_nil _ _))
    · simp only [List.cons_append, List.cons.injEq] at hfront
      obtain ⟨rfl, rfl, rfl⟩ := hfront
      generalize hwhole : '0' :: letter :: front = whole at hsize
      cases hsize with
      | plain hne hdigits =>
        exact (hletter.not_isDigits (.inl (hbase.resolve_left hne)) (hwhole ▸ hdigits)).elim
      | decimal hdigits _ => exact (hletter.not_isDigits (.inr rfl) (hwhole ▸ hdigits)).elim
      | marked hletter' _ hjoint' hdigits =>
        obtain ⟨-, rfl, rfl⟩ := hwhole
        obtain rfl := hletter.unique hletter'
        rw [List.append_assoc, dropJoint_joint hjoint' hdigits]
        exact ⟨_, rfl, .mk hdigits fun h => absurd h Bool.false_ne_true⟩
  case size =>
    rintro ⟨front, hfront, ⟨hdigits, -⟩⟩
    refine ⟨'0' :: letter :: (joint ++ front), ?_, .marked hletter hbase hjoint hdigits⟩
    rw [← hrest, hfront]
    simp

/-- No prefix, or none that the base takes. -/
theorem readsDigits_plain (hlower : ∀ c ∈ cs, c.toLower = c)
    (hnone : ∀ letter rest radix, cs = '0' :: letter :: rest → NamesRadix letter radix →
      ¬ (base = 0 ∨ base = radix))
    (htake : takeRadix base cs = (if base = 0 then 10 else base, cs, false)) :
    ReadsDigits base cs (if base = 0 then 10 else base) (base = 0) cs := by
  refine ⟨?read, by split <;> simp_all, hlower, fun behind size _ => ⟨?digits, ?size⟩⟩
  case read =>
    have hjoint : dropJoint false cs = cs := by
      unfold dropJoint
      split <;> simp
    rw [readMagnitude, htake]
    dsimp only
    rw [hjoint, Bool.not_false, Bool.and_true]
  case digits =>
    rintro ⟨front, hfront, hsize⟩
    refine ⟨front, hfront, ?_⟩
    cases hsize with
    | plain hne hdigits =>
      rw [if_neg hne]
      exact .mk hdigits fun h => (hne (of_decide_eq_true h)).elim
    | decimal hdigits hzero => exact .mk hdigits fun _ => hzero
    | marked hletter hbase _ _ => exact (hnone _ _ _ hfront hletter hbase).elim
  case size =>
    rintro ⟨front, hfront, ⟨hdigits, hzero⟩⟩
    refine ⟨front, hfront, ?_⟩
    by_cases hbase : base = 0
    · subst hbase
      exact .decimal hdigits (hzero rfl)
    · rw [if_neg hbase] at hdigits ⊢
      exact .plain hbase hdigits

theorem exists_readsDigits (base : ℕ) (hlower : ∀ c ∈ cs, c.toLower = c) :
    ∃ radix strict body, ReadsDigits base cs radix strict body := by
  obtain ⟨letter, rest, radix, rfl, hletter, hbase, htake⟩ | ⟨hnone, htake⟩ :=
    takeRadix_cases base hlower
  · exact ⟨_, _, _, readsDigits_marked hlower hletter hbase htake⟩
  · exact ⟨_, _, _, readsDigits_plain hlower hnone htake⟩

/-- **What follows the sign of a literal** is read, if it is small enough. -/
theorem readMagnitude_eq_ok_iff (hlower : ∀ c ∈ cs, c.toLower = c) :
    readMagnitude base cs = .ok size ↔ IsSize base cs size ∧ size < magnitudeLimit := by
  obtain ⟨radix, strict, body, hreads⟩ := exists_readsDigits base hlower
  have hwhole := hreads.isSize_iff [] size (.inl rfl)
  simp only [List.append_nil, exists_eq_left'] at hwhole
  rw [hreads.read, readGrouped_eq_ok_iff hreads.lower hreads.radix_ne_zero, hwhole]

/-- **What follows the sign of a literal** is too large, if it begins like that. -/
theorem readMagnitude_eq_tooLarge_iff (hlower : ∀ c ∈ cs, c.toLower = c) :
    readMagnitude base cs = .error .tooLarge ↔ ∃ front rest size, cs = front ++ rest ∧
      IsSize base front size ∧ magnitudeLimit ≤ size ∧ Trails rest := by
  obtain ⟨radix, strict, body, hreads⟩ := exists_readsDigits base hlower
  rw [hreads.read, readGrouped_eq_tooLarge_iff hreads.lower]
  constructor
  · rintro ⟨front, rest, size, hbody, hgroup, hlarge, hrest⟩
    have hpos : size ≠ 0 := fun hzero => absurd hlarge (hzero ▸ by decide)
    obtain ⟨front, hcs, hfront⟩ :=
      (hreads.isSize_iff rest size (.inr hpos)).2 ⟨front, hbody, hgroup⟩
    exact ⟨front, rest, size, hcs, hfront, hlarge, hrest⟩
  · rintro ⟨front, rest, size, hcs, hfront, hlarge, hrest⟩
    have hpos : size ≠ 0 := fun hzero => absurd hlarge (hzero ▸ by decide)
    obtain ⟨front, hbody, hgroup⟩ :=
      (hreads.isSize_iff rest size (.inr hpos)).1 ⟨front, hcs, hfront⟩
    exact ⟨front, rest, size, hbody, hgroup, hlarge, hrest⟩

/-! ## Whole literals -/

theorem signedWord_eq_ok_iff {negative : Bool} {w : Int64} :
    signedWord negative size = .ok w ↔ (if negative then -1 else 1) * (size : ℤ) = w.toInt := by
  have hsigned : (if negative then -1 else 1) * (size : ℤ) =
      if negative then -(size : ℤ) else size := by
    cases negative <;> simp
  rw [signedWord, hsigned]
  constructor
  · intro h
    split at h
    · rename_i w' hw
      cases h
      exact (toInt_of_ofInt? hw).symm
    · cases h
  · intro h
    rw [h, ofInt?_toInt]

/-- A sign and a size that is read. -/
theorem signed_eq_ok_iff (hlower : ∀ c ∈ cs, c.toLower = c) (negative : Bool) (w : Int64) :
    (readMagnitude base cs >>= signedWord negative) = .ok w ↔
      ∃ size, IsSize base cs size ∧ (if negative then -1 else 1) * (size : ℤ) = w.toInt := by
  constructor
  · intro h
    cases hread : readMagnitude base cs with
    | error fault =>
      rw [hread] at h
      cases h
    | ok size =>
      rw [hread] at h
      exact ⟨size, ((readMagnitude_eq_ok_iff hlower).1 hread).1, signedWord_eq_ok_iff.1 h⟩
  · rintro ⟨size, hsize, hw⟩
    -- a number in range is smaller than what the digits may stand for
    have hlt : size < magnitudeLimit := by
      have hfits := fits_toInt w
      unfold Fits at hfits
      unfold magnitudeLimit
      split at hw <;> omega
    rw [(readMagnitude_eq_ok_iff hlower).2 ⟨hsize, hlt⟩]
    exact signedWord_eq_ok_iff.2 hw

/-- The text begins with a literal of the base that is larger than what is counted, and no
underscore is in the wrong place behind it. Such a text need not be a literal. -/
inductive Overruns (base : ℕ) : List Char → Prop where
  | mk {front rest : List Char} {v : ℤ} : IsNumeral base front v → magnitudeLimit ≤ v.natAbs →
      Trails rest → Overruns base (front ++ rest)

/-- A sign character in front of a rest is the sign of the numerals. -/
theorem isNumeral_front_sign_iff {sign : Char} {unit : ℤ} (hunit : IsSign [sign] unit)
    (body rest : List Char) (v : ℤ) :
    (∃ front, sign :: body = front ++ rest ∧ IsNumeral base front v) ↔
      ∃ size, (∃ front, body = front ++ rest ∧ IsSize base front size) ∧ unit * (size : ℤ) = v := by
  constructor
  · rintro ⟨front, hfront, hnumeral⟩
    cases front with
    | nil =>
      obtain ⟨_, _, hfirst, _⟩ := hnumeral.ends
      cases hfirst
    | cons c front =>
      obtain ⟨rfl, hbody⟩ := List.cons.inj hfront
      obtain ⟨size, hsize, hv⟩ := (isNumeral_sign_iff hunit).1 hnumeral
      exact ⟨size, ⟨front, hbody, hsize⟩, hv⟩
  · rintro ⟨size, ⟨front, rfl, hsize⟩, hv⟩
    exact ⟨sign :: front, rfl, (isNumeral_sign_iff hunit).2 ⟨size, hsize, hv⟩⟩

theorem readNumeral_cases (base : ℕ) (cs : List Char) :
    (∃ body, cs = '-' :: body ∧
      readNumeral base cs = (readMagnitude base body >>= signedWord true)) ∨
    (∃ body, cs = '+' :: body ∧
      readNumeral base cs = (readMagnitude base body >>= signedWord false)) ∨
    (∀ body, cs ≠ '-' :: body) ∧ (∀ body, cs ≠ '+' :: body) ∧
      readNumeral base cs = (readMagnitude base cs >>= signedWord false) := by
  generalize hread : readNumeral base cs = r
  unfold readNumeral at hread
  split at hread
  rename_i negative body hsplit
  change (readMagnitude base body >>= signedWord negative) = r at hread
  split at hsplit
  · cases hsplit
    exact .inl ⟨_, rfl, hread.symm⟩
  · cases hsplit
    exact .inr (.inl ⟨_, rfl, hread.symm⟩)
  · rename_i hminus hplus
    cases hsplit
    exact .inr (.inr ⟨hminus, hplus, hread.symm⟩)

/-- The sign of a text and what follows it. In front of a rest, the numerals of the base are that
sign and a size. -/
theorem exists_sign (base : ℕ) (cs : List Char) : ∃ sign negative body, cs = sign ++ body ∧
    readNumeral base cs = (readMagnitude base body >>= signedWord negative) ∧
    ∀ rest v, (∃ front, cs = front ++ rest ∧ IsNumeral base front v) ↔
      ∃ size, (∃ front, body = front ++ rest ∧ IsSize base front size) ∧
        (if negative then -1 else 1) * (size : ℤ) = v := by
  obtain ⟨body, rfl, hread⟩ | ⟨body, rfl, hread⟩ | ⟨hminus, hplus, hread⟩ :=
    readNumeral_cases base cs
  · refine ⟨['-'], true, body, rfl, hread, ?_⟩
    rw [if_pos rfl]
    exact isNumeral_front_sign_iff .minus body
  · refine ⟨['+'], false, body, rfl, hread, ?_⟩
    rw [if_neg Bool.false_ne_true]
    exact isNumeral_front_sign_iff .plus body
  · refine ⟨[], false, cs, rfl, hread, fun rest v => ?_⟩
    rw [if_neg Bool.false_ne_true]
    have hfront (front : List Char) (hcs : cs = front ++ rest) :
        IsNumeral base front v ↔ ∃ size, IsSize base front size ∧ 1 * (size : ℤ) = v :=
      isNumeral_unsigned_iff (fun tail h => hminus (tail ++ rest) (by rw [hcs, h]; rfl))
        fun tail h => hplus (tail ++ rest) (by rw [hcs, h]; rfl)
    constructor
    · rintro ⟨front, hcs, hnumeral⟩
      obtain ⟨size, hsize, hv⟩ := (hfront front hcs).1 hnumeral
      exact ⟨size, ⟨front, hcs, hsize⟩, hv⟩
    · rintro ⟨size, ⟨front, hcs, hsize⟩, hv⟩
      exact ⟨front, hcs, (hfront front hcs).2 ⟨size, hsize, hv⟩⟩

/-- **A sign and what follows it** are read, if the number is in range. -/
theorem readNumeral_eq_ok_iff (hlower : ∀ c ∈ cs, c.toLower = c) (w : Int64) :
    readNumeral base cs = .ok w ↔ IsNumeral base cs w.toInt := by
  obtain ⟨sign, negative, body, rfl, hread, hsigned⟩ := exists_sign base cs
  have hwhole := hsigned [] w.toInt
  simp only [List.append_nil, exists_eq_left'] at hwhole
  have hlower' : ∀ c ∈ body, c.toLower = c := fun c hc => hlower c (List.mem_append_right sign hc)
  rw [hread, signed_eq_ok_iff hlower', hwhole]

theorem signedWord_eq_tooLarge_iff {negative : Bool} :
    signedWord negative size = .error .tooLarge ↔
      ¬ Fits ((if negative then -1 else 1) * (size : ℤ)) := by
  constructor
  · intro h hfits
    obtain ⟨w, -, hw⟩ := ofInt?_of_fits hfits
    rw [signedWord_eq_ok_iff.2 hw.symm] at h
    cases h
  · intro h
    cases hword : signedWord negative size with
    | ok w => exact (h (signedWord_eq_ok_iff.1 hword ▸ fits_toInt w)).elim
    | error fault =>
      unfold signedWord at hword
      split at hword <;> cases hword
      rfl

/-- **A sign and what follows it** are too large, if the number is out of range, or if the text
begins with one that is too large to be counted. -/
theorem readNumeral_eq_tooLarge_iff (hlower : ∀ c ∈ cs, c.toLower = c) :
    readNumeral base cs = .error .tooLarge ↔
      (∃ v, IsNumeral base cs v ∧ ¬ Fits v) ∨ Overruns base cs := by
  obtain ⟨sign, negative, body, hcs, hread, hsigned⟩ := exists_sign base cs
  have hlower' : ∀ c ∈ body, c.toLower = c := fun c hc =>
    hlower c (hcs ▸ List.mem_append_right sign hc)
  have hwhole := hsigned []
  simp only [List.append_nil, exists_eq_left'] at hwhole
  rw [hread]
  constructor
  · intro h
    cases hmagnitude : readMagnitude base body with
    | ok size =>
      rw [hmagnitude] at h
      have hsize := ((readMagnitude_eq_ok_iff hlower').1 hmagnitude).1
      exact .inl ⟨_, (hwhole _).2 ⟨size, hsize, rfl⟩, signedWord_eq_tooLarge_iff.1 h⟩
    | error fault =>
      rw [hmagnitude] at h
      cases h
      obtain ⟨front, rest, size, hbody, hsize, hlarge, hrest⟩ :=
        (readMagnitude_eq_tooLarge_iff hlower').1 hmagnitude
      obtain ⟨front, rfl, hnumeral⟩ :=
        (hsigned rest _).2 ⟨size, ⟨front, hbody, hsize⟩, rfl⟩
      refine .inr (.mk hnumeral ?_ hrest)
      split <;> omega
  · intro h
    -- a number that is not counted to its end is no word in any case
    have hmagnitude : readMagnitude base body = .error .tooLarge ∨
        ∃ size, readMagnitude base body = .ok size ∧
          signedWord negative size = .error .tooLarge := by
      obtain ⟨v, hnumeral, hfits⟩ | ⟨hnumeral, hlarge, hrest⟩ := h
      · obtain ⟨size, hsize, rfl⟩ := (hwhole v).1 hnumeral
        by_cases hlt : size < magnitudeLimit
        · exact .inr ⟨size, (readMagnitude_eq_ok_iff hlower').2 ⟨hsize, hlt⟩,
            signedWord_eq_tooLarge_iff.2 hfits⟩
        · exact .inl ((readMagnitude_eq_tooLarge_iff hlower').2
            ⟨body, [], size, (List.append_nil _).symm, hsize, Nat.not_lt.1 hlt, .nil⟩)
      · obtain ⟨size, ⟨front, hbody, hsize⟩, hv⟩ := (hsigned _ _).1 ⟨_, rfl, hnumeral⟩
        refine .inl ((readMagnitude_eq_tooLarge_iff hlower').2
          ⟨front, _, size, hbody, hsize, ?_, hrest⟩)
        split at hv <;> omega
    obtain hmagnitude | ⟨size, hmagnitude, hword⟩ := hmagnitude
    · rw [hmagnitude]
      rfl
    · rw [hmagnitude]
      exact hword

theorem Trails.toLower_iff : Trails (cs.map Char.toLower) ↔ Trails cs := by
  have hne {c : Char} : c.toLower ≠ '_' ↔ c ≠ '_' := not_congr (toLower_eq_iff (by decide))
  constructor
  · intro h
    generalize hlower : cs.map Char.toLower = lower at h
    induction h generalizing cs with
    | nil => exact List.map_eq_nil_iff.1 hlower ▸ .nil
    | next hc _ ih =>
      obtain ⟨c, cs, rfl, rfl, hrest⟩ := List.map_eq_cons_iff.1 hlower
      exact .next (hne.1 hc) (ih hrest)
    | apart hc _ ih =>
      obtain ⟨bar, tail, rfl, hbar, htail⟩ := List.map_eq_cons_iff.1 hlower
      obtain ⟨c, cs, rfl, rfl, hrest⟩ := List.map_eq_cons_iff.1 htail
      obtain rfl := (toLower_eq_iff (by decide)).1 hbar
      exact .apart (hne.1 hc) (ih hrest)
  · intro h
    induction h with
    | nil => exact .nil
    | next hc _ ih => exact .next (hne.2 hc) ih
    | apart hc _ ih => exact .apart (hne.2 hc) ih

theorem Overruns.toLower_iff : Overruns base (cs.map Char.toLower) ↔ Overruns base cs := by
  constructor
  · intro h
    generalize hlower : cs.map Char.toLower = lower at h
    obtain ⟨hnumeral, hlarge, hrest⟩ := h
    obtain ⟨front, rest, rfl, rfl, rfl⟩ := List.map_eq_append_iff.1 hlower
    exact .mk (IsNumeral.toLower_iff.1 hnumeral) hlarge (Trails.toLower_iff.1 hrest)
  · rintro ⟨hnumeral, hlarge, hrest⟩
    rw [List.map_append]
    exact .mk (IsNumeral.toLower_iff.2 hnumeral) hlarge (Trails.toLower_iff.2 hrest)

theorem toLower_of_mem_map : ∀ c ∈ cs.map Char.toLower, c.toLower = c := by
  intro c hc
  obtain ⟨c, -, rfl⟩ := List.mem_map.1 hc
  exact toLower_toLower c

/-- **The texts that are read are the literals** of numbers in range. -/
theorem readLiteral_eq_ok_iff (base : ℕ) (text : String) (w : Int64) :
    readLiteral base text = .ok w ↔ IsLiteral base text.toList w.toInt := by
  rw [readLiteral, readNumeral_eq_ok_iff toLower_of_mem_map, IsNumeral.toLower_iff, isLiteral_iff]

/-- **The texts that are too large are the literals** of numbers out of range, and the texts that
overrun. -/
theorem readLiteral_eq_tooLarge_iff (base : ℕ) (text : String) :
    readLiteral base text = .error .tooLarge ↔
      (∃ n, IsLiteral base text.toList n ∧ ¬ Fits n) ∨ Overruns base (trim text.toList) := by
  simp only [readLiteral, readNumeral_eq_tooLarge_iff toLower_of_mem_map, IsNumeral.toLower_iff,
    Overruns.toLower_iff, isLiteral_iff]

/-- **All other texts are malformed**, and none of them is a literal. -/
theorem readLiteral_eq_malformed_iff (base : ℕ) (text : String) :
    readLiteral base text = .error .malformed ↔
      (¬ ∃ n, IsLiteral base text.toList n) ∧ ¬ Overruns base (trim text.toList) := by
  constructor
  · intro h
    have hlarge := mt (readLiteral_eq_tooLarge_iff base text).2 (by rw [h]; decide)
    refine ⟨?_, fun hoverruns => hlarge (.inr hoverruns)⟩
    rintro ⟨n, hn⟩
    by_cases hfits : Fits n
    · obtain ⟨w, -, rfl⟩ := ofInt?_of_fits hfits
      rw [(readLiteral_eq_ok_iff base text w).2 hn] at h
      cases h
    · exact hlarge (.inl ⟨n, hn, hfits⟩)
  · rintro ⟨hnone, hoverruns⟩
    cases hread : readLiteral base text with
    | ok w => exact (hnone ⟨_, (readLiteral_eq_ok_iff base text w).1 hread⟩).elim
    | error fault =>
      cases fault with
      | malformed => rfl
      | tooLarge =>
        obtain ⟨n, hn, -⟩ | h := (readLiteral_eq_tooLarge_iff base text).1 hread
        · exact (hnone ⟨n, hn⟩).elim
        · exact (hoverruns h).elim

end Templating.Number
