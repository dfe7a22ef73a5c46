import Mathlib.Data.Nat.Init

/-!
# Shifts that can be taken back

The steps of a xorshift generator on words of any width.
-/

namespace LlmRuntime.XorShift

variable {w k : Nat}

/-- From the top bit down, each bit is known when the bits above it are. -/
theorem xor_shiftRight_injective (positive : 0 < k) :
    Function.Injective fun x : BitVec w => x ^^^ (x >>> k) := by
  intro x y same
  have bits (left i : Nat) (above : w ≤ i + left) : x.getLsbD i = y.getLsbD i := by
    induction left using Nat.strong_induction_on generalizing i with
    | h left ih =>
      by_cases inside : i < w
      · have higher := ih (left - k) (by omega) (k + i) (by omega)
        have bit := congrArg (BitVec.getLsbD · i) same
        simpa [higher] using bit
      · rw [BitVec.getLsbD_of_ge _ _ (by omega), BitVec.getLsbD_of_ge _ _ (by omega)]
  exact BitVec.eq_of_getLsbD_eq fun i _ => bits w i (by omega)

theorem xor_shiftLeft_injective (positive : 0 < k) :
    Function.Injective fun x : BitVec w => x ^^^ (x <<< k) := by
  intro x y same
  refine BitVec.eq_of_getLsbD_eq fun i inside => ?_
  induction i using Nat.strong_induction_on with
  | h i ih =>
    have bit := congrArg (BitVec.getLsbD · i) same
    by_cases shifted : i < k
    · simpa [shifted] using bit
    · have lower := ih (i - k) (by omega) (by omega)
      simpa [lower] using bit

end LlmRuntime.XorShift
