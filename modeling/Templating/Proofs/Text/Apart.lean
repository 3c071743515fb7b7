import Mathlib.Data.List.Forall2
import Templating.Json.Quoted
import Templating.Proofs.Number.Digits
import Templating.Syntax.Printer

/-!
# Things told apart by their texts

* `ToldApart`: whatever has the same text as a thing, before rests of some form, is related to the
  thing, and the rests are the same.
* `ToldApart.of_read`: so are things that can be read back.
* `toldApart_run`: words are told apart if they reach as far as characters of some kind do.
* `toldApart_sequence`, `toldApart_commas`: sequences up to a closing character.
* `toldApart_literal`: **string literals are told apart**.
-/

namespace Templating.Text

variable {α β : Type}

/-- Whatever of a form `P` has the same text as `a`, before rests of a form `S`, stands in the
relation `R` to `a`, and the rests are the same. -/
def ToldApart (text : α → List Char) (P : α → Prop) (S : List Char → Prop) (R : α → α → Prop)
    (a : α) : Prop :=
  ∀ ⦃a'⦄, P a' → ∀ ⦃r r'⦄, S r → S r' → text a ++ r = text a' ++ r' → R a a' ∧ r = r'

variable {text : α → List Char} {P : α → Prop} {S : List Char → Prop} {R : α → α → Prop} {a : α}

/-- Things that can be read back from the beginning of a text are told apart. -/
theorem ToldApart.of_read (read : List Char → Option (α × List Char))
    (h : ∀ a, P a → ∀ r, S r → read (text a ++ r) = some (a, r)) (ha : P a) :
    ToldApart text P S Eq a := by
  intro a' ha' r r' hr hr' heq
  have hread := h a ha r hr
  rw [heq, h a' ha' r' hr'] at hread
  cases hread
  exact ⟨rfl, rfl⟩

/-! ## Words -/

/-- The text does not begin with a character of some kind. -/
def Leaves (p : Char → Bool) (r : List Char) : Prop := ∀ c ∈ r.head?, p c = false

variable {p : Char → Bool}

theorem Leaves.cons {c : Char} (h : p c = false) (r : List Char) : Leaves p (c :: r) := by
  rintro c ⟨⟩
  exact h

theorem takeWhile_append_of_leaves {w r : List Char} (hw : ∀ c ∈ w, p c) (hr : Leaves p r) :
    (w ++ r).takeWhile p = w := by
  rw [List.takeWhile_append_of_pos hw]
  cases r with
  | nil => simp
  | cons c r => rw [List.takeWhile_cons_of_neg (by simp [hr c rfl]), List.append_nil]

theorem dropWhile_append_of_leaves {w r : List Char} (hw : ∀ c ∈ w, p c) (hr : Leaves p r) :
    (w ++ r).dropWhile p = r := by
  rw [List.dropWhile_append_of_pos hw]
  cases r with
  | nil => rfl
  | cons c r => rw [List.dropWhile_cons_of_neg (by simp [hr c rfl])]

/-- Words of characters of some kind reach as far as such characters do. -/
theorem toldApart_run {w : List Char} (hw : ∀ c ∈ w, p c) :
    ToldApart id (fun w => ∀ c ∈ w, p c) (Leaves p) Eq w := by
  intro w' hw' r r' hr hr' heq
  have hwords : w = w' := by
    rw [← takeWhile_append_of_leaves hw hr, ← takeWhile_append_of_leaves hw' hr']
    exact congrArg _ heq
  subst hwords
  exact ⟨rfl, List.append_cancel_left heq⟩

/-! ## Sequences -/

/-- Things one after another up to a closing character, which none of them begins with. -/
theorem toldApart_sequence {close : Char} {as : List α}
    (has : ∀ a ∈ as, P a ∧ ToldApart text P S R a)
    (hhead : ∀ a, P a → ∀ r, (text a ++ r).head? ≠ some close)
    (hrest : ∀ as : List α, (∀ a ∈ as, P a) → ∀ r, S (as.flatMap text ++ close :: r)) :
    ToldApart (fun as => as.flatMap text ++ [close]) (fun as => ∀ a ∈ as, P a) (fun _ => True)
      (List.Forall₂ R) as := by
  induction as with
  | nil =>
    intro as' has' r r' _ _ heq
    cases as' with
    | nil => exact ⟨.nil, List.tail_eq_of_cons_eq heq⟩
    | cons a' as' =>
      have hclose : (text a' ++ (as'.flatMap text ++ [close] ++ r')).head? = some close := by
        rw [← List.append_assoc, ← List.append_assoc, ← List.flatMap_cons, ← heq]
        rfl
      -- one text is at its end where the other goes on, and no thing begins with the closing
      -- character
      exact absurd hclose (hhead a' (has' a' List.mem_cons_self) _)
  | cons a as ih =>
    intro as' has' r r' _ _ heq
    obtain ⟨⟨ha, hapart⟩, has⟩ := List.forall_mem_cons.1 has
    cases as' with
    | nil =>
      have hclose : (text a ++ (as.flatMap text ++ [close] ++ r)).head? = some close := by
        rw [← List.append_assoc, ← List.append_assoc, ← List.flatMap_cons, heq]
        rfl
      exact absurd hclose (hhead a ha _)
    | cons a' as' =>
      obtain ⟨ha', has'⟩ := List.forall_mem_cons.1 has'
      simp only [List.flatMap_cons, List.append_assoc] at heq
      obtain ⟨hR, hrests⟩ := hapart ha' (hrest as (fun a h => (has a h).1) r)
        (hrest as' has' r') (by simpa using heq)
      have htails : as.flatMap text ++ [close] ++ r = as'.flatMap text ++ [close] ++ r' := by
        simpa using hrests
      obtain ⟨hRs, hr⟩ := ih has has' trivial trivial htails
      exact ⟨.cons hR hRs, hr⟩

/-- Things with commas between. -/
def commaText (text : α → List Char) : List α → List Char
  | [] => []
  | a :: as => text a ++ as.flatMap fun a => ',' :: ' ' :: text a

theorem toList_commas (texts : List String) :
    (commas texts).toList = commaText String.toList texts := by
  induction texts with
  | nil => rfl
  | cons t ts ih =>
    cases ts with
    | nil => simp [commas, commaText]
    | cons u us =>
      unfold commas at ih ⊢
      rw [String.intercalate_cons_cons, String.toList_append, ih]
      simp [commaText]

theorem commaText_map (f : β → α) (bs : List β) :
    commaText text (bs.map f) = commaText (text ∘ f) bs := by
  cases bs with
  | nil => rfl
  | cons b bs => simp [commaText, List.flatMap_map]

/-- Things with commas between up to a closing character, which none of them begins with. -/
theorem toldApart_commas {close : Char} (hcomma : close ≠ ',') {as : List α}
    (has : ∀ a ∈ as, P a ∧ ToldApart text P S R a)
    (hhead : ∀ a, P a → ∀ r, (text a ++ r).head? ≠ some close)
    (hrest : ∀ c, c = ',' ∨ c = close → ∀ r, S (c :: r)) :
    ToldApart (fun as => commaText text as ++ [close]) (fun as => ∀ a ∈ as, P a) (fun _ => True)
      (List.Forall₂ R) as := by
  -- after the first one, each thing comes with the comma before it
  have hmore (as : List α) (r : List Char) :
      S ((as.flatMap fun a => ',' :: ' ' :: text a) ++ close :: r) := by
    cases as with
    | nil => exact hrest _ (.inr rfl) _
    | cons a as => exact hrest _ (.inl rfl) _
  intro as' has' r r' _ _ heq
  cases as with
  | nil =>
    cases as' with
    | nil => exact ⟨.nil, List.tail_eq_of_cons_eq heq⟩
    | cons a' as' =>
      refine absurd ?_ (hhead a' (has' a' List.mem_cons_self)
        ((as'.flatMap fun a => ',' :: ' ' :: text a) ++ ([close] ++ r')))
      simp only [commaText, List.append_assoc] at heq
      rw [← heq]
      rfl
  | cons a as =>
    obtain ⟨⟨ha, hapart⟩, has⟩ := List.forall_mem_cons.1 has
    cases as' with
    | nil =>
      refine absurd ?_ (hhead a ha ((as.flatMap fun a => ',' :: ' ' :: text a) ++ ([close] ++ r)))
      simp only [commaText, List.append_assoc] at heq
      rw [heq]
      rfl
    | cons a' as' =>
      obtain ⟨ha', has'⟩ := List.forall_mem_cons.1 has'
      simp only [commaText, List.append_assoc] at heq
      obtain ⟨hR, hrests⟩ := hapart ha' (hmore as r) (hmore as' r') heq
      have htold : ToldApart (fun as => (as.flatMap fun a => ',' :: ' ' :: text a) ++ [close])
          (fun as => ∀ a ∈ as, P a) (fun _ => True) (List.Forall₂ R) as :=
        toldApart_sequence
          (fun a h => ⟨(has a h).1, fun b hb r r' hr hr' heq =>
            (has a h).2 hb hr hr' (by simpa using heq)⟩)
          (fun a _ r h => hcomma (Option.some.inj h).symm) (fun as _ r => hmore as r)
      have htails : (as.flatMap fun a => ',' :: ' ' :: text a) ++ [close] ++ r =
          (as'.flatMap fun a => ',' :: ' ' :: text a) ++ [close] ++ r' := by
        simpa using hrests
      obtain ⟨hRs, hr⟩ := htold has' trivial trivial htails
      exact ⟨.cons hR hRs, hr⟩

/-! ## String literals -/

theorem hexDigit?_digitChar {n : Nat} (h : n < 16) : Json.hexDigit? (Nat.digitChar n) = some n := by
  have hall : ∀ n < 16, Json.hexDigit? (Nat.digitChar n) = some n := by decide
  exact hall n h

theorem hexNumber?_append_digit {cs : List Char} {m d : Nat} (hcs : Json.hexNumber? cs = some m)
    (hd : d < 16) : Json.hexNumber? (cs ++ [Nat.digitChar d]) = some (16 * m + d) := by
  unfold Json.hexNumber? at hcs ⊢
  rw [List.foldlM_append, hcs]
  simp [hexDigit?_digitChar hd]

/-- The hexadecimal digits of a number stand for the number. -/
theorem hexNumber?_toDigits (n : Nat) : Json.hexNumber? (Nat.toDigits 16 n) = some n := by
  induction n using Nat.strongRecOn with
  | ind n ih =>
    rw [Nat.toDigits_eq_if (by decide)]
    split
    next h =>
      have hnone : Json.hexNumber? [] = some 0 := rfl
      simpa using hexNumber?_append_digit hnone h
    next h =>
      rw [hexNumber?_append_digit (ih (n / 16) (by omega)) (Nat.mod_lt _ (by decide))]
      congr 1
      omega

theorem hexNumber?_padLeft (width n : Nat) :
    Json.hexNumber? (padLeft '0' width (Nat.toDigits 16 n)) = some n := by
  unfold padLeft
  induction width - (Nat.toDigits 16 n).length with
  | zero => exact hexNumber?_toDigits n
  | succ k ih =>
    rw [List.replicate_succ, List.cons_append]
    exact ih

theorem length_padLeft_toDigits {width n : Nat} (hwidth : 0 < width) (h : n < 16 ^ width) :
    (padLeft '0' width (Nat.toDigits 16 n)).length = width := by
  have hlength := (Nat.length_toDigits_le_iff (by decide) hwidth).2 h
  simp only [padLeft, List.length_append, List.length_replicate]
  omega

/-- Reads a character from hexadecimal digits. -/
def readHex (width : Nat) (cs : List Char) : Option (Char × List Char) :=
  (Json.hexNumber? (cs.take width)).map fun n => (Char.ofNat n, cs.drop width)

theorem readHex_append {width : Nat} {c : Char} (hwidth : 0 < width) (h : c.toNat < 16 ^ width)
    (r : List Char) :
    readHex width (padLeft '0' width (Nat.toDigits 16 c.toNat) ++ r) = some (c, r) := by
  have hlength := length_padLeft_toDigits hwidth h
  unfold readHex
  rw [List.take_left' hlength, List.drop_left' hlength, hexNumber?_padLeft]
  exact congrArg (fun c => some (c, r)) (Char.ofNat_toNat c)

/-- Reads a character inside a string literal. -/
def readLiteralChar : List Char → Option (Char × List Char)
  | '\\' :: 'r' :: r => some ('\r', r)
  | '\\' :: 'n' :: r => some ('\n', r)
  | '\\' :: 't' :: r => some ('\t', r)
  | '\\' :: '"' :: r => some ('"', r)
  | '\\' :: '\\' :: r => some ('\\', r)
  | '\\' :: 'x' :: r => readHex 2 r
  | '\\' :: 'u' :: r => readHex 4 r
  | '\\' :: 'U' :: r => readHex 8 r
  | c :: r => some (c, r)
  | [] => none

theorem readLiteralChar_append (c : Char) (r : List Char) :
    readLiteralChar (literalChar c ++ r) = some (c, r) := by
  unfold literalChar
  split
  next h => rw [h]; rfl
  split
  next h => rw [h]; rfl
  split
  next h => rw [h]; rfl
  split
  next h => rw [h]; rfl
  split
  next h => rw [h]; rfl
  split
  next hbackslash _ =>
    unfold readLiteralChar
    simp [hbackslash]
  split
  next h => exact readHex_append (by decide) (by omega) r
  split
  next h => exact readHex_append (by decide) (by omega) r
  exact readHex_append (by decide) c.val.toNat_lt r

theorem head?_literalChar_append (c : Char) (r : List Char) :
    (literalChar c ++ r).head? ≠ some '"' := by
  by_cases h : c = '"'
  · subst h
    exact fun h => nomatch h
  · unfold literalChar
    split_ifs <;> simp [h]

/-- **String literals are told apart**, whatever follows them. -/
theorem toldApart_literal (s : String) :
    ToldApart (fun s => (literal s).toList) (fun _ => True) (fun _ => True) Eq s := by
  intro s' _ r r' _ _ heq
  have hchars : ToldApart (fun cs => cs.flatMap literalChar ++ ['"'])
      (fun cs => ∀ c ∈ cs, True) (fun _ => True) (List.Forall₂ Eq) s.toList :=
    toldApart_sequence (S := fun _ => True)
      (fun c _ => ⟨trivial, .of_read readLiteralChar (fun c _ r _ => readLiteralChar_append c r)
        trivial⟩)
      (fun c _ => head?_literalChar_append c) (fun _ _ _ => trivial)
  simp only [literal, literalChars, String.toList_ofList, List.cons_append] at heq
  obtain ⟨hcs, hr⟩ := hchars (fun _ _ => trivial) trivial trivial (List.tail_eq_of_cons_eq heq)
  exact ⟨String.toList_injective (List.forall₂_eq_eq_eq ▸ hcs), hr⟩

end Templating.Text
