import Templating.Eval.Run
import Templating.Proofs.Eval.Outcome
import Templating.Proofs.Number.IntLiteral

/-!
# Integers read by `int`

* `IsBase`: the bases of literals.
* `ReadsLiteral`: a call returns the number of a literal if that is in range, and fails otherwise.
* `int_reads_literals`: **`int` reads exactly the literals of a base.**
* `ClassifiesFailures`: which texts a call refuses as too large, and which as no literals.
* `int_classifies_failures`: **literals out of range are too large; other texts are no literals**,
  unless they overrun.
-/

namespace Templating

open Eval Number

variable {base : Int64}

/-- A base of literals; 0 leaves the choice to the literal. -/
def IsBase (b : ℤ) : Prop := b = 0 ∨ 2 ≤ b ∧ b ≤ 36

/-- The outcome of a call that returns the number which a literal stands for, if it is in range, and
that fails for any other text. -/
structure ReadsLiteral (base : ℕ) (text : String) (m : Machine) (r : Outcome Value) : Prop where
  returns_iff : ∀ n : ℤ, (∃ w : Int64, r = .ok (.int w) m ∧ w.toInt = n) ↔
    IsLiteral base text.toList n ∧ Fits n
  fails : (¬ ∃ n, IsLiteral base text.toList n ∧ Fits n) → ∃ e, r = .error (.failed e) m

theorem exists_readLiteral_iff (base : ℕ) (text : String) (n : ℤ) :
    (∃ w : Int64, readLiteral base text = .ok w ∧ w.toInt = n) ↔
      IsLiteral base text.toList n ∧ Fits n := by
  constructor
  · rintro ⟨w, hread, rfl⟩
    exact ⟨(readLiteral_eq_ok_iff base text w).1 hread, fits_toInt w⟩
  · rintro ⟨hliteral, hfits⟩
    obtain ⟨w, -, rfl⟩ := ofInt?_of_fits hfits
    exact ⟨w, (readLiteral_eq_ok_iff base text w).2 hliteral, rfl⟩

theorem parseInt_eq (hbase : IsBase base.toInt) (text : String) :
    Builtin.parseInt text base = match readLiteral base.toInt.toNat text with
      | .ok w => .ok (.int w)
      | .error .malformed => .error (.invalidInt base text)
      | .error .tooLarge => .error (.integerOverflow "int()") := by
  refine if_neg ?_
  unfold IsBase at hbase
  omega

/-- In a base of literals, the text is a literal, or it is refused. -/
theorem parseInt_cases (hbase : IsBase base.toInt) (text : String) :
    (∃ w, readLiteral base.toInt.toNat text = .ok w ∧
      Builtin.parseInt text base = .ok (.int w)) ∨
    ∃ fault cause, readLiteral base.toInt.toNat text = .error fault ∧
      Builtin.parseInt text base = .error cause := by
  rw [parseInt_eq hbase]
  cases hread : readLiteral base.toInt.toNat text with
  | ok w => exact .inl ⟨w, rfl, rfl⟩
  | error fault => cases fault <;> exact .inr ⟨_, _, rfl, rfl⟩

theorem parseInt_invalid (hbase : ¬ IsBase base.toInt) (text : String) :
    Builtin.parseInt text base = .error .invalidBase := by
  refine if_pos ?_
  unfold IsBase at hbase
  omega

theorem readsLiteral_parseInt (hbase : IsBase base.toInt) (text : String) (m : Machine) :
    ReadsLiteral base.toInt.toNat text m (lift (Builtin.parseInt text base) m) := by
  have hiff := exists_readLiteral_iff base.toInt.toNat text
  obtain ⟨w, hread, hparse⟩ | ⟨fault, cause, hread, hparse⟩ := parseInt_cases hbase text
  · rw [hparse]
    refine ⟨fun n => ?_, fun hnone => (hnone ⟨_, (hiff _).1 ⟨w, hread, rfl⟩⟩).elim⟩
    rw [← hiff, hread]
    constructor
    · rintro ⟨_, ⟨⟩, hn⟩
      exact ⟨w, rfl, hn⟩
    · rintro ⟨_, ⟨⟩, hn⟩
      exact ⟨w, rfl, hn⟩
  · rw [hparse]
    refine ⟨fun n => ?_, fun _ => ⟨_, rfl⟩⟩
    rw [← hiff, hread]
    exact iff_of_false (fun ⟨_, h, _⟩ => nomatch h) fun ⟨_, h, _⟩ => nomatch h

theorem callFunction_int (ev : Evaluator) (text : String) (m : Machine) :
    callFunction ev "int" [.str text] m = lift (Builtin.parseInt text 10) m := rfl

theorem callFunction_int_base (ev : Evaluator) (text : String) {v : Value}
    (hv : v.asInt? = some base) (m : Machine) :
    callFunction ev "int" [.str text, v] m = lift (Builtin.parseInt text base) m := by
  have hint : Builtin.toInt [.str text, v] = Builtin.parseInt text base := by
    have harg : intArg "int" v = .ok base := by rw [intArg, hv]
    change intArg "int" v >>= _ = _
    rw [harg]
    rfl
  change lift (Builtin.toInt [.str text, v]) m = _
  rw [hint]

/-- **`int` reads exactly the literals of a base.** In a base of literals, and in base 10 if none is
given, it returns the number of a literal that is in range, and fails for any other text. Other
bases are refused. -/
theorem int_reads_literals (ev : Evaluator) (text : String) (m : Machine) :
    (∀ v base, Value.asInt? v = some base → IsBase base.toInt →
      ReadsLiteral base.toInt.toNat text m (callFunction ev "int" [.str text, v] m)) ∧
    (∀ v base, Value.asInt? v = some base → ¬ IsBase base.toInt →
      ∃ e, callFunction ev "int" [.str text, v] m = .error (.failed e) m ∧
        e.category = .valueError) ∧
    ReadsLiteral 10 text m (callFunction ev "int" [.str text] m) := by
  refine ⟨fun v base hv hbase => ?_, fun v base hv hbase => ?_, ?_⟩
  · rw [callFunction_int_base ev text hv]
    exact readsLiteral_parseInt hbase text m
  · rw [callFunction_int_base ev text hv, parseInt_invalid hbase]
    exact ⟨_, rfl, rfl⟩
  · have hten : IsBase (10 : Int64).toInt := .inr (by decide)
    rw [callFunction_int]
    exact readsLiteral_parseInt hten text m

/-- The least integer behind a prefix and an underscore, and a base that is none. -/
theorem int_reads_literals_least :
    let ev := Evaluator.within 0
    let m := Machine.start 0 0 .first (.ofVars [] 0)
    IsBase (0 : Int64).toInt ∧
      callFunction ev "int" [.str "\u2003-0X_8000_0000_0000_0000 ", .int 0] m =
        .ok (.int Int64.minValue) m ∧
      IsLiteral 0 "\u2003-0X_8000_0000_0000_0000 ".toList (-0x8000000000000000) ∧
      ¬ IsBase (1 : Int64).toInt ∧
      ∃ e, callFunction ev "int" [.str "0", .int 1] m = .error (.failed e) m ∧
        e.category = .valueError := by
  intro ev m
  have hbase : IsBase (0 : Int64).toInt := .inl rfl
  have hinvalid : ¬ IsBase (1 : Int64).toInt := by
    unfold IsBase
    decide
  have hcall : callFunction ev "int" [.str "\u2003-0X_8000_0000_0000_0000 ", .int 0] m =
      .ok (.int Int64.minValue) m := rfl
  have hreads :=
    (int_reads_literals ev "\u2003-0X_8000_0000_0000_0000 " m).1 (.int 0) 0 rfl hbase
  have hliteral := ((hreads.returns_iff (-0x8000000000000000)).1 ⟨_, hcall, rfl⟩).1
  have hfails := (int_reads_literals ev "0" m).2.1 (.int 1) 1 rfl hinvalid
  exact ⟨hbase, hcall, hliteral, hinvalid, hfails⟩

/-! ## Failures -/

/-- A call fails with an overflow for the literals of a base that are out of range, and for texts
that begin with a literal which is too large to be counted. All other texts that are no literals are
reported as such. -/
structure ClassifiesFailures (base : Int64) (text : String) (m : Machine) (r : Outcome Value) :
    Prop where
  overflow_iff : (∃ e, r = .error (.failed e) m ∧ e.category = .overflowError) ↔
    (∃ n, IsLiteral base.toInt.toNat text.toList n ∧ ¬ Fits n) ∨
      Overruns base.toInt.toNat (Text.trim text.toList)
  invalid_iff : (∃ e, r = .error (.failed e) m ∧ e.category = .valueError) ↔
    (¬ ∃ n, IsLiteral base.toInt.toNat text.toList n) ∧
      ¬ Overruns base.toInt.toNat (Text.trim text.toList)
  message_eq : ∀ e, r = .error (.failed e) m → e.category = .valueError →
    e.message = s!"invalid literal for int() with base {base.toInt}: '{text}'"

theorem classifiesFailures_parseInt (hbase : IsBase base.toInt) (text : String) (m : Machine) :
    ClassifiesFailures base text m (lift (Builtin.parseInt text base) m) := by
  have hlarge := readLiteral_eq_tooLarge_iff base.toInt.toNat text
  have hmalformed := readLiteral_eq_malformed_iff base.toInt.toNat text
  rw [parseInt_eq hbase]
  -- the reader has three ends, and each is told apart by its category
  cases hread : readLiteral base.toInt.toNat text with
  | ok w =>
    rw [hread] at hlarge hmalformed
    refine ⟨?_, ?_, fun e h => nomatch h⟩
    · rw [← hlarge]
      exact iff_of_false (fun ⟨_, h, _⟩ => nomatch h) (fun h => nomatch h)
    · rw [← hmalformed]
      exact iff_of_false (fun ⟨_, h, _⟩ => nomatch h) (fun h => nomatch h)
  | error fault =>
    rw [hread] at hlarge hmalformed
    cases fault with
    | malformed =>
      refine ⟨?_, ?_, ?_⟩
      · rw [← hlarge]
        refine iff_of_false ?_ (fun h => nomatch h)
        rintro ⟨_, ⟨⟩, h⟩
        cases h
      · exact iff_of_true ⟨_, rfl, rfl⟩ (hmalformed.1 rfl)
      · rintro _ ⟨⟩ -
        rfl
    | tooLarge =>
      refine ⟨?_, ?_, ?_⟩
      · exact iff_of_true ⟨_, rfl, rfl⟩ (hlarge.1 rfl)
      · rw [← hmalformed]
        refine iff_of_false ?_ (fun h => nomatch h)
        rintro ⟨_, ⟨⟩, h⟩
        cases h
      · rintro _ ⟨⟩ h
        cases h

/-- **A call of `int` fails with an overflow exactly for literals that are out of range and texts
that overrun, and reports exactly the other texts that are no literals** as such, in every base of
literals, and in base 10 if none is given. -/
theorem int_classifies_failures (ev : Evaluator) (text : String) (m : Machine) :
    (∀ v base, Value.asInt? v = some base → IsBase base.toInt →
      ClassifiesFailures base text m (callFunction ev "int" [.str text, v] m)) ∧
    ClassifiesFailures 10 text m (callFunction ev "int" [.str text] m) := by
  refine ⟨fun v base hv hbase => ?_, ?_⟩
  · rw [callFunction_int_base ev text hv]
    exact classifiesFailures_parseInt hbase text m
  · have hten : IsBase (10 : Int64).toInt := .inr (by decide)
    rw [callFunction_int]
    exact classifiesFailures_parseInt hten text m

/-- A prefix with a letter behind it that is no digit. -/
theorem int_classifies_failures_letter :
    let ev := Evaluator.within 0
    let m := Machine.start 0 0 .first (.ofVars [] 0)
    IsBase (16 : Int64).toInt ∧
      (∃ e, callFunction ev "int" [.str "0xg", .int 16] m = .error (.failed e) m ∧
        e.message = "invalid literal for int() with base 16: '0xg'") ∧
      ¬ ∃ n, IsLiteral 16 "0xg".toList n := by
  intro ev m
  have hbase : IsBase (16 : Int64).toInt := .inr (by decide)
  have hfails := (int_classifies_failures ev "0xg" m).1 (.int 16) 16 rfl hbase
  have hcall : callFunction ev "int" [.str "0xg", .int 16] m =
      .error (.failed (.ofCause (.invalidInt 16 "0xg"))) m := rfl
  have hnone := (hfails.invalid_iff.1 ⟨_, hcall, rfl⟩).1
  exact ⟨hbase, ⟨_, hcall, hfails.message_eq _ hcall rfl⟩, hnone⟩

/-- Twenty digits are given up as too large before the letter behind them is seen, so an overflow is
reported for a text that is no literal. -/
theorem int_overflows_before_letter : ¬ ∀ (ev : Evaluator) (text : String) (m : Machine),
    (∃ e, callFunction ev "int" [.str text] m = .error (.failed e) m ∧
      e.category = .overflowError) →
    ∃ n, IsLiteral 10 text.toList n ∧ ¬ Fits n := by
  intro h
  let m := Machine.start 0 0 .first (.ofVars [] 0)
  have hcall : callFunction (.within 0) "int" [.str "99999999999999999999x"] m =
      .error (.failed (.ofCause (.integerOverflow "int()"))) m := rfl
  obtain ⟨n, hliteral, -⟩ := h _ _ _ ⟨_, hcall, rfl⟩
  have hnumeral : IsNumeral 10 "99999999999999999999x".toList n := isLiteral_iff.1 hliteral
  have hchars : "99999999999999999999x".toList = '9' :: (List.replicate 19 '9' ++ ['x']) := rfl
  have hhead {c : Char} {rest : List Char} (hc : c ≠ '9') :
      "99999999999999999999x".toList ≠ c :: rest := fun heq =>
    hc (List.cons.inj (hchars.symm.trans heq)).1.symm
  obtain ⟨size, hsize, -⟩ := (isNumeral_unsigned_iff (fun _ => hhead (by decide))
    fun _ => hhead (by decide)).1 hnumeral
  generalize hwhole : "99999999999999999999x".toList = whole at hsize
  cases hsize with
  | plain _ hdigits =>
    obtain ⟨_, last, _, hlast, _, k, hk⟩ := hdigits.ends
    have hletter : "99999999999999999999x".toList.getLast? = some 'x' := rfl
    rw [hwhole, hlast, Option.some_inj] at hletter
    simp only [hletter, IsDigit, Char.reduceToNat] at hk
    omega
  | marked => exact hhead (by decide) hwhole

end Templating
