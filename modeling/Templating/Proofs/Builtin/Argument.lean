import Mathlib.Data.Nat.Notation
import Templating.Builtin.MethodCall

/-!
# Calls of methods

Arguments at the end of a call may be left out, and `None` stands for one that is missing.

* `callMethod_eq_ok`: what a call returns, from the method that it finds and what that returns.
* `IsBound`, `AreBounds`: arguments that stand for the bounds of a search.
* `IsLimit`: arguments that stand for a limit on the number of cuts.
* `AreBounds.read`, `IsLimit.read`: **the methods read them so.**
-/

namespace Templating

open Eval

theorem callMethod_eq_ok {ev : Evaluator} {receiver result : Value} {name : String}
    {args : List Value} {m : Machine} (method : Method)
    (hresolve : Method.resolve receiver name args.length = .ok method)
    (happly : Builtin.MethodCall.apply ev ⟨method, args⟩ receiver = lift (.ok result)) :
    callMethod ev receiver name args m = .ok result m := by
  rw [callMethod, hresolve]
  exact congrFun happly m

/-! ## Optional arguments -/

/-- An argument that stands for a bound: `None` for a missing one, or an integer. -/
inductive IsBound : Value → Option Int64 → Prop where
  | missing : IsBound .none none
  | given {v : Value} {n : Int64} : v.asInt? = some n → IsBound v (some n)

/-- Arguments that stand for two bounds; those that are left out are missing. -/
inductive AreBounds : List Value → Option Int64 → Option Int64 → Prop where
  | neither : AreBounds [] none none
  | start {v : Value} {start : Option Int64} : IsBound v start → AreBounds [v] start none
  | both {v w : Value} {start stop : Option Int64} :
      IsBound v start → IsBound w stop → AreBounds [v, w] start stop

/-- Arguments that stand for a limit. It is left out, `None`, or negative if there is none. -/
inductive IsLimit : List Value → Option ℕ → Prop where
  | omitted : IsLimit [] none
  | missing : IsLimit [.none] none
  | negative {v : Value} {n : Int64} : v.asInt? = some n → n.toInt < 0 → IsLimit [v] none
  | given {v : Value} {n : Int64} {k : ℕ} : v.asInt? = some n → n.toInt = k → IsLimit [v] (some k)

variable {name : String} {args front : List Value} {index : ℕ} {v : Value}
  {bound start stop : Option Int64} {limit : Option ℕ}

theorem optionalAs_of_getElem? (hv : args[index]? = some v) (hbound : IsBound v bound) :
    optionalAs (intArg name) args index = .ok bound := by
  cases hbound with
  | missing =>
    rw [optionalAs, optional, hv]
    rfl
  | given hint =>
    have hsome : optional args index = some v := by
      rw [optional, hv]
      cases v with
      | none => cases hint
      | _ => rfl
    simp [optionalAs, hsome, intArg, hint, Except.map]

theorem optionalAs_of_length_le (h : args.length ≤ index) :
    optionalAs (intArg name) args index = .ok none := by
  rw [optionalAs, optional, List.getElem?_eq_none h]
  rfl

/-- **The bounds of a search** are read from the arguments behind the needle. -/
theorem AreBounds.read (h : AreBounds args start stop) (needle : Value) :
    optionalAs (intArg name) (needle :: args) 1 = .ok start ∧
      optionalAs (intArg name) (needle :: args) 2 = .ok stop := by
  cases h with
  | neither =>
    exact ⟨optionalAs_of_length_le (Nat.le_refl _), optionalAs_of_length_le (Nat.le_succ _)⟩
  | start hstart =>
    exact ⟨optionalAs_of_getElem? rfl hstart, optionalAs_of_length_le (Nat.le_refl _)⟩
  | both hstart hstop =>
    exact ⟨optionalAs_of_getElem? rfl hstart, optionalAs_of_getElem? rfl hstop⟩

theorem IsLimit.length_le (h : IsLimit args limit) : args.length ≤ 1 := by
  cases h <;> simp

/-- **A limit** is read from the last argument. -/
theorem IsLimit.read (h : IsLimit args limit) (method : Method) (front : List Value) :
    Builtin.MethodCall.limit? ⟨method, front ++ args⟩ front.length = .ok limit := by
  have hread {v : Value} {bound : Option Int64} (hbound : IsBound v bound) :
      Builtin.MethodCall.int? ⟨method, front ++ [v]⟩ front.length = .ok bound :=
    optionalAs_of_getElem? (by simp) hbound
  unfold Builtin.MethodCall.limit?
  cases h with
  | omitted =>
    rw [Builtin.MethodCall.int?, optionalAs_of_length_le (by simp)]
    rfl
  | missing =>
    rw [hread .missing]
    rfl
  | @negative v n hint hneg =>
    rw [hread (.given hint)]
    change Except.ok (if n.toInt < 0 then none else some n.toInt.toNat) = _
    rw [if_pos hneg]
  | @given v n k hint hk =>
    rw [hread (.given hint)]
    change Except.ok (if n.toInt < 0 then none else some n.toInt.toNat) = _
    rw [hk, if_neg (by omega), Int.toNat_natCast]

end Templating
