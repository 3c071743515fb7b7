import Templating.Text.Blank
import Templating.Proofs.Text.Split

/-!
# Words

A word is a longest run of characters that are not blank. Words are given by the positions at which
they start and stop.

* `IsRun`: a longest run of positions with a property.
* `Words`: the words of a text in order.
* `exists_words`: **splitting at blanks gives the words**, and once the limit is reached the rest
  from the next word on.
* `rsplitBlank_eq`: **splitting from the end is the mirror image**, though it is done by a loop of
  its own.
* `wellFounded_firstWord`, `wellFounded_lastWord`: no loop goes on forever.
-/

namespace Templating.Text

variable {cs gap word rest : List Char} {limit : Option ℕ} {lo hi n : ℕ} {W W' : ℕ → Prop}

/-! ## Runs -/

/-- A longest run of positions with a property, from `lo` up to `hi`. -/
structure IsRun (W : ℕ → Prop) (lo hi : ℕ) : Prop where
  nonempty : lo < hi
  inside : ∀ i, lo ≤ i → i < hi → W i
  before : ∀ i, i + 1 = lo → ¬ W i
  after : ¬ W hi

/-- Positions with the property only from `n` on. -/
theorem isRun_shift_iff (hW : ∀ i, W i ↔ n ≤ i ∧ W' (i - n)) :
    IsRun W lo hi ↔ ∃ lo' hi', IsRun W' lo' hi' ∧ n + lo' = lo ∧ n + hi' = hi := by
  constructor
  · rintro ⟨hlt, hinside, hbefore, hafter⟩
    have hn : n ≤ lo := ((hW lo).1 (hinside lo le_rfl hlt)).1
    refine ⟨lo - n, hi - n, ⟨by omega, fun i hlo hhi => ?_, fun i hi' hWi => ?_, fun hWi => ?_⟩,
      by omega, by omega⟩
    · simpa using ((hW (n + i)).1 (hinside (n + i) (by omega) (by omega))).2
    · exact hbefore (n + i) (by omega) ((hW _).2 ⟨by omega, by simpa using hWi⟩)
    · exact hafter ((hW hi).2 ⟨by omega, hWi⟩)
  · rintro ⟨lo, hi, ⟨hlt, hinside, hbefore, hafter⟩, rfl, rfl⟩
    refine ⟨by omega, fun i hlo hhi => (hW i).2 ⟨by omega, hinside _ (by omega) (by omega)⟩,
      fun i hi' hWi => ?_, fun hWi => hafter (by simpa using ((hW _).1 hWi).2)⟩
    obtain ⟨hni, hWi⟩ := (hW i).1 hWi
    exact hbefore (i - n) (by omega) hWi

/-- A run in front of all others. -/
theorem isRun_first_iff (hn : 0 < n) (hW : ∀ i, W i ↔ i < n ∨ n ≤ i ∧ W' (i - n))
    (hzero : ¬ W' 0) :
    IsRun W lo hi ↔
      lo = 0 ∧ hi = n ∨ ∃ lo' hi', IsRun W' lo' hi' ∧ n + lo' = lo ∧ n + hi' = hi := by
  have hnW : ¬ W n := by
    rw [hW n, Nat.sub_self]
    simp [hzero]
  have hlater (i : ℕ) (hi : n ≤ i) : W i ↔ W' (i - n) := by
    rw [hW i]
    exact ⟨fun h => h.elim (fun hlt => absurd hlt (by omega)) And.right, fun h => .inr ⟨hi, h⟩⟩
  constructor
  · rintro ⟨hlt, hinside, hbefore, hafter⟩
    by_cases hlo : lo < n
    · -- a run that starts in front is as long as the front on both sides
      have hlo' : lo = 0 := by
        by_contra hpos
        exact hbefore (lo - 1) (by omega) ((hW _).2 (.inl (by omega)))
      have hhi : n ≤ hi := by
        by_contra hhi
        exact hafter ((hW hi).2 (.inl (by omega)))
      have hhi' : hi ≤ n := by
        by_contra hhi'
        exact hnW (hinside n (by omega) (by omega))
      exact .inl ⟨hlo', by omega⟩
    · refine .inr ⟨lo - n, hi - n, ⟨by omega, fun i hlo' hhi => ?_, fun i hi' hWi => ?_,
        fun hWi => hafter ((hlater hi (by omega)).2 hWi)⟩, by omega, by omega⟩
      · simpa using (hlater (n + i) (by omega)).1 (hinside (n + i) (by omega) (by omega))
      · exact hbefore (n + i) (by omega) ((hlater _ (by omega)).2 (by simpa using hWi))
  · rintro (⟨rfl, rfl⟩ | ⟨lo, hi, ⟨hlt, hinside, hbefore, hafter⟩, rfl, rfl⟩)
    · exact ⟨hn, fun i _ hi => (hW i).2 (.inl hi), fun i hi => absurd hi (by omega), hnW⟩
    · refine ⟨by omega, fun i hlo hhi => (hlater i (by omega)).2 (hinside _ (by omega) (by omega)),
        fun i hi' hWi => ?_, fun hWi => hafter (by simpa using (hlater _ (by omega)).1 hWi)⟩
      -- no run starts right behind the front, so the position before this one is behind it as well
      rcases Nat.eq_zero_or_pos lo with rfl | hpos
      · exact hzero (hinside 0 le_rfl hlt)
      · exact hbefore (i - n) (by omega) ((hlater i (by omega)).1 hWi)

/-- A run seen from the end of `n` positions. -/
theorem IsRun.mirror (h : IsRun W lo hi) (hW : ∀ i, W i ↔ i < n ∧ W' (n - 1 - i))
    (hW' : ∀ i, W' i → i < n) : hi ≤ n ∧ IsRun W' (n - hi) (n - lo) := by
  obtain ⟨hlt, hinside, hbefore, hafter⟩ := h
  have hhi : hi ≤ n := by
    have h := ((hW (hi - 1)).1 (hinside (hi - 1) (by omega) (by omega))).1
    omega
  refine ⟨hhi, by omega, fun i hlo hhi => ?_, fun i hi' hWi => ?_, fun hWi => ?_⟩
  · have h := ((hW (n - 1 - i)).1 (hinside (n - 1 - i) (by omega) (by omega))).2
    rwa [show n - 1 - (n - 1 - i) = i by omega] at h
  · refine hafter ((hW hi).2 ⟨by omega, ?_⟩)
    rwa [show n - 1 - hi = i by omega]
  · have hlt' := hW' _ hWi
    refine hbefore (lo - 1) (by omega) ((hW _).2 ⟨by omega, ?_⟩)
    rwa [show n - 1 - (lo - 1) = n - lo by omega]

/-- Runs seen from the end of `n` positions. -/
theorem isRun_mirror_iff (hW : ∀ i, W i ↔ i < n ∧ W' (n - 1 - i)) (hW' : ∀ i, W' i → i < n) :
    IsRun W lo hi ↔ ∃ lo' hi', IsRun W' lo' hi' ∧ n - hi' = lo ∧ n - lo' = hi := by
  constructor
  · intro h
    obtain ⟨hhi, hmirror⟩ := h.mirror hW hW'
    have hlt := h.nonempty
    exact ⟨n - hi, n - lo, hmirror, by omega, by omega⟩
  · rintro ⟨lo, hi, h, rfl, rfl⟩
    -- looking from the end twice is looking from the front again
    have hback (i : ℕ) : W' i ↔ i < n ∧ W (n - 1 - i) := by
      refine ⟨fun hWi => ?_, fun ⟨hi, hWi⟩ => ?_⟩
      · have hi := hW' i hWi
        refine ⟨hi, (hW _).2 ⟨by omega, ?_⟩⟩
        rwa [show n - 1 - (n - 1 - i) = i by omega]
      · have h := ((hW _).1 hWi).2
        rwa [show n - 1 - (n - 1 - i) = i by omega] at h
    exact (h.mirror hback fun i hWi => ((hW i).1 hWi).1).2

/-! ## Words of a text -/

/-- A character that is not blank stands at a position. -/
def WordAt (cs : List Char) (i : ℕ) : Prop := ∃ c, cs[i]? = some c ∧ isBlank c = false

/-- The words of a text in order, by the positions at which they start and stop. -/
structure Words (cs : List Char) (spans : List (ℕ × ℕ)) : Prop where
  ordered : spans.Pairwise fun a b => a.2 < b.1
  mem_iff : ∀ lo hi, (lo, hi) ∈ spans ↔ IsRun (WordAt cs) lo hi

/-- The characters of a word. -/
def wordOf (cs : List Char) (span : ℕ × ℕ) : List Char := (cs.drop span.1).take (span.2 - span.1)

/-- The first words of a text up to a limit, and the rest from the next word on if there is one.
Without a limit, all words. -/
def wordsWithin (cs : List Char) (spans : List (ℕ × ℕ)) : Option ℕ → List (List Char)
  | none => spans.map (wordOf cs)
  | some k => (spans.take k).map (wordOf cs) ++ (spans[k]?.map fun span => cs.drop span.1).toList

theorem WordAt.lt_length {i : ℕ} (h : WordAt cs i) : i < cs.length :=
  let ⟨_, hc, _⟩ := h
  (List.getElem?_eq_some_iff.1 hc).1

theorem not_wordAt_nil (i : ℕ) : ¬ WordAt [] i := fun ⟨_, hc, _⟩ => by simp at hc

theorem wordAt_blank_append_iff (hgap : ∀ c ∈ gap, isBlank c) (i : ℕ) :
    WordAt (gap ++ rest) i ↔ gap.length ≤ i ∧ WordAt rest (i - gap.length) := by
  unfold WordAt
  by_cases hi : i < gap.length
  · rw [List.getElem?_append_left hi, List.getElem?_eq_getElem hi]
    refine iff_of_false ?_ fun h => by omega
    rintro ⟨c, hc, hword⟩
    cases hc
    rw [hgap _ (List.getElem_mem hi)] at hword
    cases hword
  · rw [List.getElem?_append_right (by omega), and_iff_right (by omega)]

theorem wordAt_word_append_iff (hword : ∀ c ∈ word, isBlank c = false) (i : ℕ) :
    WordAt (word ++ rest) i ↔
      i < word.length ∨ word.length ≤ i ∧ WordAt rest (i - word.length) := by
  unfold WordAt
  by_cases hi : i < word.length
  · rw [List.getElem?_append_left hi, List.getElem?_eq_getElem hi]
    exact iff_of_true ⟨_, rfl, hword _ (List.getElem_mem hi)⟩ (.inl hi)
  · rw [List.getElem?_append_right (by omega), or_iff_right hi, and_iff_right (by omega)]

/-! ### Words of a part -/

section

variable {spans : List (ℕ × ℕ)}

/-- The words behind something in front. -/
def shifted (n : ℕ) (spans : List (ℕ × ℕ)) : List (ℕ × ℕ) :=
  spans.map fun span => (n + span.1, n + span.2)

theorem mem_shifted_iff : (lo, hi) ∈ shifted n spans ↔
    ∃ lo' hi', (lo', hi') ∈ spans ∧ n + lo' = lo ∧ n + hi' = hi := by
  simp [shifted]

theorem pairwise_shifted (h : spans.Pairwise fun a b => a.2 < b.1) :
    (shifted n spans).Pairwise fun a b => a.2 < b.1 :=
  List.pairwise_map.2 (h.imp fun hlt => Nat.add_lt_add_left hlt n)

theorem wordOf_shifted (front cs : List Char) (span : ℕ × ℕ) :
    wordOf (front ++ cs) (front.length + span.1, front.length + span.2) = wordOf cs span := by
  unfold wordOf
  dsimp only
  rw [List.drop_length_add_append, Nat.add_sub_add_left]

theorem wordsWithin_shifted (front cs : List Char) (spans : List (ℕ × ℕ)) (limit : Option ℕ) :
    wordsWithin (front ++ cs) (shifted front.length spans) limit = wordsWithin cs spans limit := by
  have hwords (spans : List (ℕ × ℕ)) :
      (shifted front.length spans).map (wordOf (front ++ cs)) = spans.map (wordOf cs) := by
    rw [shifted, List.map_map]
    exact List.map_congr_left fun span _ => wordOf_shifted front cs span
  cases limit with
  | none => exact hwords spans
  | some k =>
    have htake : (shifted front.length spans).take k = shifted front.length (spans.take k) :=
      List.map_take.symm
    simp only [wordsWithin]
    rw [htake, hwords, shifted, List.getElem?_map]
    cases spans[k]? with
    | none => rfl
    | some span => simp [List.drop_length_add_append]

theorem wordsWithin_nil (cs : List Char) (limit : Option ℕ) : wordsWithin cs [] limit = [] := by
  cases limit <;> simp [wordsWithin]

/-- Once the limit is reached the rest follows as it stands. -/
theorem wordsWithin_cons_zero (cs : List Char) (span : ℕ × ℕ) (spans : List (ℕ × ℕ)) :
    wordsWithin cs (span :: spans) (some 0) = [cs.drop span.1] := rfl

theorem wordsWithin_cons (cs : List Char) (span : ℕ × ℕ) (spans : List (ℕ × ℕ))
    (h : limit ≠ some 0) :
    wordsWithin cs (span :: spans) limit =
      wordOf cs span :: wordsWithin cs spans (lessOne limit) := by
  match limit, h with
  | none, _ => rfl
  | some (k + 1), _ => rfl

/-- Blanks in front change no word. -/
theorem Words.blank_append (h : Words rest spans) (hgap : ∀ c ∈ gap, isBlank c) :
    Words (gap ++ rest) (shifted gap.length spans) where
  ordered := pairwise_shifted h.ordered
  mem_iff lo hi := by
    rw [mem_shifted_iff, isRun_shift_iff (wordAt_blank_append_iff hgap)]
    simp only [h.mem_iff]

/-- A word in front of a text that starts with a blank is one more word. -/
theorem Words.word_append (h : Words rest spans) (hne : word ≠ [])
    (hword : ∀ c ∈ word, isBlank c = false) (hrest : ¬ WordAt rest 0) :
    Words (word ++ rest) ((0, word.length) :: shifted word.length spans) where
  ordered := by
    refine List.pairwise_cons.2 ⟨fun span hspan => ?_, pairwise_shifted h.ordered⟩
    obtain ⟨lo, hi, hmem, hlo, -⟩ := mem_shifted_iff.1 hspan
    have hpos : lo ≠ 0 := by
      rintro rfl
      have hrun := (h.mem_iff 0 hi).1 hmem
      exact hrest (hrun.inside 0 le_rfl hrun.nonempty)
    dsimp only
    omega
  mem_iff lo hi := by
    rw [List.mem_cons, mem_shifted_iff, isRun_first_iff (List.length_pos_iff.2 hne)
      (wordAt_word_append_iff hword) hrest, Prod.mk.injEq]
    simp only [h.mem_iff]

theorem words_nil : Words [] [] where
  ordered := .nil
  mem_iff lo _ := iff_of_false List.not_mem_nil fun h =>
    not_wordAt_nil lo (h.inside lo le_rfl h.nonempty)

end

/-! ## Splitting -/

/-- What is left of a text behind its first word starts with a word, or is empty. -/
theorem wordAt_trimStart (h : trimStart cs ≠ []) : WordAt (trimStart cs) 0 := by
  have hhead := List.head_dropWhile_not isBlank h
  refine ⟨_, ?_, hhead⟩
  rw [← List.head?_eq_getElem?]
  exact List.head?_eq_some_head h

/-- A text is its first word, blanks, and the rest. -/
theorem exists_firstWord (h : WordAt cs 0) : ∃ word gap, word = (firstWord cs).1 ∧
    cs = word ++ (gap ++ (firstWord cs).2) ∧ word ≠ [] ∧ (∀ c ∈ word, isBlank c = false) ∧
    (∀ c ∈ gap, isBlank c = true) ∧ ¬ WordAt (gap ++ (firstWord cs).2) 0 := by
  obtain ⟨c, hc, hword⟩ := h
  obtain ⟨rest, rfl⟩ : ∃ rest, cs = c :: rest := by
    cases cs with
    | nil => cases hc
    | cons c' rest =>
      cases hc
      exact ⟨rest, rfl⟩
  refine ⟨_, ((c :: rest).dropWhile (!isBlank ·)).takeWhile isBlank, rfl, ?_, ?_, ?_,
    all_takeWhile, ?_⟩
  · simp only [firstWord, trimStart, List.takeWhile_append_dropWhile]
  · simp [firstWord, hword]
  · exact fun c hc => by simpa using all_takeWhile c hc
  · rintro ⟨c', hc', hword'⟩
    simp only [firstWord, trimStart, List.takeWhile_append_dropWhile] at hc'
    have hne : (c :: rest).dropWhile (!isBlank ·) ≠ [] := by
      intro hnil
      rw [hnil] at hc'
      cases hc'
    have hhead := List.head_dropWhile_not (!isBlank ·) hne
    rw [← List.head?_eq_getElem?, List.head?_eq_some_head hne, Option.some_inj] at hc'
    rw [hc', hword'] at hhead
    cases hhead

/-- **A text that starts with no blank is cut into its words.** -/
theorem exists_words_from (cs : List Char) (hstart : cs ≠ [] → WordAt cs 0) :
    ∃ spans, Words cs spans ∧ ∀ limit, splitBlankFrom limit cs = wordsWithin cs spans limit := by
  -- on the length, since what is left behind a word and its blanks is a shorter text
  induction hlength : cs.length using Nat.strong_induction_on generalizing cs with
  | _ n ih =>
    by_cases hne : cs = []
    · subst hne
      refine ⟨[], words_nil, fun limit => ?_⟩
      rw [splitBlankFrom, if_pos rfl, wordsWithin_nil]
    · obtain ⟨word, gap, hfirst, hcs, hword, hnonblank, hgap, hrest⟩ :=
        exists_firstWord (hstart hne)
      have hshorter := length_firstWord_lt hne
      obtain ⟨spans, hspans, hsplit⟩ := ih _ (hlength ▸ hshorter) (firstWord cs).2
        wordAt_trimStart rfl
      refine ⟨(0, word.length) :: shifted word.length (shifted gap.length spans), ?_,
        fun limit => ?_⟩
      · conv => enter [1]; rw [hcs]
        exact (hspans.blank_append hgap).word_append hword hnonblank hrest
      · rw [splitBlankFrom, if_neg hne]
        by_cases hlimit : limit = some 0
        · subst hlimit
          rw [wordsWithin_cons_zero]
          rfl
        · rw [if_pos (mayCut_eq_true_iff.2 hlimit), hsplit, wordsWithin_cons _ _ _ hlimit, ← hfirst]
          have hwordOf : wordOf cs (0, word.length) = word := by
            rw [hcs]
            exact List.take_left
          have hwithin : wordsWithin cs (shifted word.length (shifted gap.length spans))
              (lessOne limit) = wordsWithin (firstWord cs).2 spans (lessOne limit) := by
            conv => enter [1, 1]; rw [hcs]
            rw [wordsWithin_shifted, wordsWithin_shifted]
          rw [hwordOf, hwithin]

/-- **Splitting at blanks gives the words**, and the rest from the next word on once the limit is
reached. -/
theorem exists_words (cs : List Char) :
    ∃ spans, Words cs spans ∧ ∀ limit, splitBlank cs limit = wordsWithin cs spans limit := by
  have hcs : cs.takeWhile isBlank ++ trimStart cs = cs := List.takeWhile_append_dropWhile
  obtain ⟨spans, hspans, hsplit⟩ := exists_words_from (trimStart cs) wordAt_trimStart
  refine ⟨shifted (cs.takeWhile isBlank).length spans, ?_, fun limit => ?_⟩
  · have hwords : Words (cs.takeWhile isBlank ++ trimStart cs) _ :=
      hspans.blank_append all_takeWhile
    rwa [hcs] at hwords
  · have hwithin := wordsWithin_shifted (cs.takeWhile isBlank) (trimStart cs) spans limit
    rw [hcs] at hwithin
    rw [splitBlank, hsplit, hwithin]

/-! ## From the end -/

/-- The loop from the end does to a text what the loop from the front does to the reversed one. -/
theorem rsplitBlankFrom_eq (limit : Option ℕ) (cs : List Char) :
    rsplitBlankFrom limit cs = (splitBlankFrom limit cs.reverse).map List.reverse := by
  induction limit, cs using rsplitBlankFrom.induct with
  | case1 limit =>
    rw [rsplitBlankFrom, List.reverse_nil, splitBlankFrom, if_pos rfl, if_pos rfl, List.map_nil]
  | case2 limit cs hne hlimit ih =>
    have hne' : cs.reverse ≠ [] := mt List.reverse_eq_nil_iff.1 hne
    rw [rsplitBlankFrom, splitBlankFrom, if_neg hne, if_neg hne', if_pos hlimit, if_pos hlimit, ih,
      lastWord_eq, List.map_cons, List.reverse_reverse]
  | case3 limit cs hne hlimit =>
    have hne' : cs.reverse ≠ [] := mt List.reverse_eq_nil_iff.1 hne
    rw [rsplitBlankFrom, splitBlankFrom, if_neg hne, if_neg hne', if_neg hlimit, if_neg hlimit,
      List.map_singleton, List.reverse_reverse]

/-- **Splitting from the end is the mirror image of splitting from the front.** -/
theorem rsplitBlank_eq (cs : List Char) (limit : Option ℕ) :
    rsplitBlank cs limit = ((splitBlank cs.reverse limit).map List.reverse).reverse := by
  rw [rsplitBlank, rsplitBlankFrom_eq, trimEnd_eq, List.reverse_reverse]
  rfl

/-- The positions of a reversed text. -/
def mirrored (n : ℕ) (spans : List (ℕ × ℕ)) : List (ℕ × ℕ) :=
  (spans.map fun span => (n - span.2, n - span.1)).reverse

section

variable {spans spans' : List (ℕ × ℕ)}

theorem Words.lt (h : Words cs spans) (hmem : (lo, hi) ∈ spans) : lo < hi ∧ hi ≤ cs.length := by
  have hrun := (h.mem_iff lo hi).1 hmem
  have hlast := (hrun.inside (hi - 1) (by have := hrun.nonempty; omega)
    (by have := hrun.nonempty; omega)).lt_length
  have hlt := hrun.nonempty
  exact ⟨hlt, by omega⟩

/-- A text has one list of words. -/
theorem Words.unique (h : Words cs spans) (h' : Words cs spans') : spans = spans' := by
  have hbefore {spans : List (ℕ × ℕ)} (h : Words cs spans) :
      spans.Pairwise fun a b => a.1 < b.1 :=
    h.ordered.imp_of_mem fun ha _ hab => (h.lt ha).1.trans hab
  have hnodup {spans : List (ℕ × ℕ)} (h : Words cs spans) : spans.Nodup :=
    (hbefore h).imp fun hab heq => (heq ▸ hab).false
  have hperm : spans.Perm spans' := (List.perm_ext_iff_of_nodup (hnodup h) (hnodup h')).2
    fun span => (h.mem_iff _ _).trans (h'.mem_iff _ _).symm
  exact hperm.eq_of_pairwise (fun _ _ _ _ hab hba => (hab.trans hba).false.elim) (hbefore h)
    (hbefore h')

theorem wordAt_reverse_iff (i : ℕ) :
    WordAt cs.reverse i ↔ i < cs.length ∧ WordAt cs (cs.length - 1 - i) := by
  unfold WordAt
  by_cases hi : i < cs.length
  · rw [List.getElem?_reverse hi, and_iff_right hi]
  · rw [List.getElem?_eq_none (by rw [List.length_reverse]; omega)]
    exact iff_of_false (by simp) fun h => hi h.1

/-- The words of the reversed text. -/
theorem Words.reverse (h : Words cs spans) : Words cs.reverse (mirrored cs.length spans) where
  ordered := by
    rw [mirrored, List.pairwise_reverse, List.pairwise_map]
    refine h.ordered.imp_of_mem fun {a b} ha hb hab => ?_
    have hlt := h.lt ha
    have hlt' := h.lt hb
    dsimp only
    omega
  mem_iff lo hi := by
    rw [isRun_mirror_iff wordAt_reverse_iff fun i hi => hi.lt_length, mirrored, List.mem_reverse]
    simp [h.mem_iff]

theorem wordOf_mirrored (hlt : lo < hi) (hle : hi ≤ cs.length) :
    (wordOf cs.reverse (cs.length - hi, cs.length - lo)).reverse = wordOf cs (lo, hi) := by
  unfold wordOf
  dsimp only
  rw [List.drop_reverse, List.take_reverse, List.reverse_reverse, List.length_take,
    List.drop_take]
  congr 1 <;> [omega; (congr 1; omega)]

/-- Without a limit the words of a text are cut off its end as well. -/
theorem rsplitBlank_none (h : Words cs spans) :
    rsplitBlank cs none = spans.map (wordOf cs) := by
  obtain ⟨spans', hspans', hsplit⟩ := exists_words cs.reverse
  obtain rfl := hspans'.unique h.reverse
  rw [rsplitBlank_eq, hsplit, wordsWithin, mirrored, List.map_reverse, List.map_reverse,
    List.reverse_reverse, List.map_map, List.map_map]
  refine List.map_congr_left fun span hspan => ?_
  obtain ⟨hlt, hle⟩ := h.lt hspan
  exact wordOf_mirrored hlt hle

end

/-! ## Termination -/

/-- No loop cuts words off the front of a text forever. -/
theorem wellFounded_firstWord :
    WellFounded fun rest cs : List Char => cs ≠ [] ∧ rest = (firstWord cs).2 :=
  Subrelation.wf (fun ⟨hne, hrest⟩ => hrest ▸ length_firstWord_lt hne)
    (InvImage.wf List.length Nat.lt_wfRel.wf)

/-- No loop cuts words off the end of a text forever. -/
theorem wellFounded_lastWord :
    WellFounded fun rest cs : List Char => cs ≠ [] ∧ rest = (lastWord cs).2 :=
  Subrelation.wf (fun ⟨hne, hrest⟩ => hrest ▸ length_lastWord_lt hne)
    (InvImage.wf List.length Nat.lt_wfRel.wf)

end Templating.Text
