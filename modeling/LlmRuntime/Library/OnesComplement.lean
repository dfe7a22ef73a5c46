import Mathlib

/-!
# One's-complement sums

Words are added with the carry put back in at the low end; the width enters by
its greatest word `n`.  The plain sum may be folded at the end instead of after
every addition.
-/

namespace LlmRuntime.OnesComplement

variable {n : Nat}

/-- Addition with end-around carry. -/
def add (n a b : Nat) : Nat :=
  if a + b ≤ n then a + b else a + b - n

def sum (n : Nat) (words : List Nat) : Nat := words.foldl (add n) 0

/-- Add what is above the width to what is inside it. -/
def fold (n total : Nat) : Nat := total % (n + 1) + total / (n + 1)

/-- The word that stands for a plain sum. -/
structure Represents (n word total : Nat) : Prop where
  le : word ≤ n
  modEq : word ≡ total [MOD n]
  zero_iff : word = 0 ↔ total = 0

theorem Represents.unique {word other total : Nat}
    (isWord : Represents n word total) (isOther : Represents n other total) :
    word = other := by
  by_cases isZero : total = 0
  · rw [isWord.zero_iff.mpr isZero, isOther.zero_iff.mpr isZero]
  have positive : word ≠ 0 := mt isWord.zero_iff.mp isZero
  have otherPositive : other ≠ 0 := mt isOther.zero_iff.mp isZero
  have congruent : word ≡ other [MOD n] := isWord.modEq.trans isOther.modEq.symm
  have le := isWord.le
  have otherLe := isOther.le
  -- shifted down by one, both are proper remainders
  have shifted : word - 1 ≡ other - 1 [MOD n] := by
    apply Nat.ModEq.add_right_cancel' 1
    rwa [Nat.sub_add_cancel (Nat.pos_of_ne_zero positive),
      Nat.sub_add_cancel (Nat.pos_of_ne_zero otherPositive)]
  have same := shifted.eq_of_lt_of_lt (by omega) (by omega)
  omega

theorem represents_zero : Represents n 0 0 :=
  ⟨Nat.zero_le n, Nat.ModEq.rfl, Iff.rfl⟩

theorem Represents.add {word total next : Nat}
    (isWord : Represents n word total) (small : next ≤ n) :
    Represents n (add n word next) (total + next) := by
  have le := isWord.le
  have congruent := isWord.modEq.add_right next
  have zero := isWord.zero_iff
  rw [OnesComplement.add]
  split_ifs with fits
  · exact ⟨fits, congruent, by omega⟩
  · refine ⟨by omega, ?_, by omega⟩
    have carried : word + next - n ≡ word + next [MOD n] := by
      apply Nat.ModEq.add_right_cancel' n
      rw [Nat.sub_add_cancel (by omega)]
      exact (Nat.add_modEq_right).symm
    exact carried.trans congruent

theorem sum_represents (words : List Nat) (small : ∀ word ∈ words, word ≤ n) :
    Represents n (sum n words) words.sum := by
  induction words using List.reverseRecOn with
  | nil => exact represents_zero
  | append_singleton words word ih =>
    rw [sum, List.foldl_append, List.sum_append, List.sum_singleton]
    have earlier :=
      ih fun earlierWord isIn =>
        small earlierWord (List.mem_append_left _ isIn)
    exact earlier.add (small word (by simp))

theorem fold_modEq (total : Nat) : fold n total ≡ total [MOD n] := by
  have split := Nat.mod_add_div total (n + 1)
  have once : (n + 1) * (total / (n + 1)) ≡ total / (n + 1) [MOD n] := by
    rw [Nat.add_mul, Nat.one_mul]
    exact Nat.modEq_of_dvd (by simp)
  calc
    fold n total = total % (n + 1) + total / (n + 1) := rfl
    _ ≡ total % (n + 1) + (n + 1) * (total / (n + 1)) [MOD n] := once.symm.add_left _
    _ = total := split

theorem fold_eq_zero_iff (total : Nat) : fold n total = 0 ↔ total = 0 := by
  rw [fold, Nat.add_eq_zero_iff]
  constructor
  · rintro ⟨low, high⟩
    rw [← Nat.mod_add_div total (n + 1), low, high]
    rfl
  · rintro rfl
    exact ⟨Nat.zero_mod _, Nat.zero_div _⟩

/-- Two folds are enough for a sum of two widths. -/
theorem fold_fold_represents {total : Nat} (small : total < (n + 1) * (n + 1)) :
    Represents n (fold n (fold n total)) total := by
  refine ⟨?_, (fold_modEq _).trans (fold_modEq _), ?_⟩
  · have low : total % (n + 1) < n + 1 := Nat.mod_lt _ (Nat.succ_pos n)
    have high : total / (n + 1) < n + 1 := Nat.div_lt_of_lt_mul small
    have once : fold n total ≤ 2 * n := by
      rw [fold]
      omega
    generalize fold n total = folded at once
    rw [fold]
    by_cases fits : folded < n + 1
    · rw [Nat.mod_eq_of_lt fits, Nat.div_eq_of_lt fits]
      omega
    · have isRest : folded % (n + 1) = folded - (n + 1) := by
        rw [Nat.mod_eq_sub_mod (by omega), Nat.mod_eq_of_lt (by omega)]
      have isOne : folded / (n + 1) = 1 := Nat.div_eq_of_lt_le (by omega) (by omega)
      omega
  · rw [fold_eq_zero_iff, fold_eq_zero_iff]

/-- A word that fills up a sum: its complement, or all ones for a sum of all
ones. -/
def Fills (n word check : Nat) : Prop := check = n - word ∨ word = n ∧ check = n

theorem Represents.filled {word total check : Nat} (isWord : Represents n word total)
    (fills : Fills n word check) (positive : 0 < n) :
    Represents n n (total + check) := by
  have le := isWord.le
  have zero := isWord.zero_iff
  have congruent := isWord.modEq.add_right check
  rcases fills with isComplement | ⟨isAll, isCheck⟩
  · have isSum : word + check = n := by omega
    rw [isSum] at congruent
    exact ⟨le_rfl, congruent, by omega⟩
  · rw [isAll, isCheck] at congruent
    refine ⟨le_rfl, ?_, by omega⟩
    rw [isCheck]
    exact (Nat.add_modEq_right).symm.trans congruent

end LlmRuntime.OnesComplement
