import LlmRuntime.Stdlib.Qsort

/-!
# The binary search of the user library

The bounds are signed: after a miss at the first entry the upper bound lies one
entry below the array.  The source moves pointers by the size of an element.
-/

namespace LlmRuntime.Stdlib

universe u

variable {α : Type u} {compar : α → α → Int}

/-- The loop of `xbsearch`, with indices for its pointers. -/
def bsearchLoop (compar : α → α → Int) (key : α) (arr : Nat → α) (low high : Int) : Option Nat :=
  if low ≤ high then
    let mid := low + (high - low) / 2
    let cmp := compar key (arr mid.toNat)
    if cmp = 0 then some mid.toNat
    else if cmp < 0 then bsearchLoop compar key arr low (mid - 1)
    else bsearchLoop compar key arr (mid + 1) high
  else none
termination_by (high - low + 1).toNat
decreasing_by all_goals omega

def xbsearch (compar : α → α → Int) (key : α) (arr : Nat → α) (nmemb : Nat) : Option Nat :=
  if nmemb = 0 then none
  else bsearchLoop compar key arr 0 ((nmemb : Int) - 1)

theorem bsearchLoop_some {key : α} {arr : Nat → α} {low high : Int} {i : Nat}
    (notNegative : 0 ≤ low) (isFound : bsearchLoop compar key arr low high = some i) :
    (i : Int) ≤ high ∧ compar key (arr i) = 0 := by
  fun_induction bsearchLoop compar key arr low high with
  | case1 low high inBounds mid cmp isEqual =>
    have isMid : mid = low + (high - low) / 2 := rfl
    rw [← Option.some.inj isFound]
    exact ⟨by omega, isEqual⟩
  | case2 low high inBounds mid cmp notEqual isBelow ih =>
    have isMid : mid = low + (high - low) / 2 := rfl
    obtain ⟨atMost, isEqual⟩ := ih notNegative isFound
    exact ⟨by omega, isEqual⟩
  | case3 low high inBounds mid cmp notEqual notBelow ih =>
    have isMid : mid = low + (high - low) / 2 := rfl
    exact ih (by omega) isFound
  | case4 low high outOfBounds => exact absurd isFound (by simp)

/-- A comparison that orders the elements, and answers the other way round when
its arguments are exchanged. -/
structure Consistent (compar : α → α → Int) : Prop where
  preorder : TotalPreorder compar
  lt_iff_gt : ∀ a b, compar a b < 0 ↔ 0 < compar b a

namespace Consistent

theorem ne_zero_of_lt (consistent : Consistent compar) {key entry later : α}
    (isBelow : compar key entry < 0) (inOrder : compar entry later ≤ 0) :
    compar key later ≠ 0 := by
  intro isEqual
  have notAbove : compar later key ≤ 0 := by
    by_contra isAbove
    have := (consistent.lt_iff_gt key later).mpr (by omega)
    omega
  have entryAtMost : compar entry key ≤ 0 := consistent.preorder.transitive _ _ _ inOrder notAbove
  have entryAbove := (consistent.lt_iff_gt key entry).mp isBelow
  omega

theorem ne_zero_of_gt (consistent : Consistent compar) {key entry earlier : α}
    (isAbove : 0 < compar key entry) (inOrder : compar earlier entry ≤ 0) :
    compar key earlier ≠ 0 := by
  intro isEqual
  have keyAtMost : compar key entry ≤ 0 := consistent.preorder.transitive _ _ _ isEqual.le inOrder
  omega

end Consistent

theorem bsearchLoop_isSome (consistent : Consistent compar) {key : α} {arr : Nat → α} {n k : Nat}
    (ordered : ∀ i j, i < j → j < n → compar (arr i) (arr j) ≤ 0) (isEqual : compar key (arr k) = 0)
    {low high : Int} (notNegative : 0 ≤ low) (inArray : high < n) (atLeast : low ≤ k)
    (atMost : (k : Int) ≤ high) :
    (bsearchLoop compar key arr low high).isSome := by
  fun_induction bsearchLoop compar key arr low high with
  | case1 low high inBounds mid cmp isEqual => rfl
  | case2 low high inBounds mid cmp notEqual isBelow ih =>
    have isMid : mid = low + (high - low) / 2 := rfl
    have beforeMid : (k : Int) < mid := by
      by_contra notBefore
      rcases Nat.eq_or_lt_of_le (show mid.toNat ≤ k by omega) with isMiddle | isLater
      · rw [← isMiddle] at isEqual
        exact notEqual isEqual
      · exact consistent.ne_zero_of_lt isBelow (ordered mid.toNat k isLater (by omega)) isEqual
    exact ih notNegative (by omega) atLeast (by omega)
  | case3 low high inBounds mid cmp notEqual notBelow ih =>
    have isMid : mid = low + (high - low) / 2 := rfl
    have afterMid : mid < (k : Int) := by
      by_contra notAfter
      rcases Nat.eq_or_lt_of_le (show k ≤ mid.toNat by omega) with isMiddle | isEarlier
      · rw [isMiddle] at isEqual
        exact notEqual isEqual
      · have isAbove : 0 < compar key (arr mid.toNat) := by
          have notZero : compar key (arr mid.toNat) ≠ 0 := notEqual
          have notNegative : ¬ compar key (arr mid.toNat) < 0 := notBelow
          omega
        exact consistent.ne_zero_of_gt isAbove (ordered k mid.toNat isEarlier (by omega)) isEqual
    exact ih (by omega) inArray (by omega) atMost
  | case4 low high outOfBounds => omega

/-- The search is sound on any array. -/
theorem xbsearch_some {key : α} {arr : Nat → α} {nmemb i : Nat}
    (isFound : xbsearch compar key arr nmemb = some i) :
    i < nmemb ∧ compar key (arr i) = 0 := by
  rw [xbsearch] at isFound
  by_cases isEmpty : nmemb = 0
  · rw [if_pos isEmpty] at isFound
    exact absurd isFound (by simp)
  · rw [if_neg isEmpty] at isFound
    obtain ⟨atMost, isEqual⟩ := bsearchLoop_some (le_refl 0) isFound
    exact ⟨by omega, isEqual⟩

theorem xbsearch_none (consistent : Consistent compar) {key : α} {arr : Nat → α} {nmemb : Nat}
    (ordered : ∀ i j, i < j → j < nmemb → compar (arr i) (arr j) ≤ 0)
    (notFound : xbsearch compar key arr nmemb = none) {k : Nat} (inArray : k < nmemb) :
    compar key (arr k) ≠ 0 := by
  intro isEqual
  rw [xbsearch, if_neg (by omega)] at notFound
  have isSome := bsearchLoop_isSome consistent ordered isEqual (le_refl 0)
    (show (nmemb : Int) - 1 < nmemb by omega) (by omega) (by omega)
  rw [notFound] at isSome
  exact absurd isSome (by simp)

/-- The address `low + mid_offset * size`; the product has 32 bits. -/
def midPointer (size : UInt32) (low high : Nat) : Nat :=
  (low + (UInt32.ofNat ((high - low) / size.toNat / 2) * size).toNat) % 2 ^ 64

/-- The loop of `xbsearch` over addresses, for at most `fuel` turns; `none` if
it has not come to an end by then. -/
def bsearchPointers (compar : α → α → Int) (key : α) (read : Nat → α) (size : UInt32) :
    Nat → Nat → Nat → Option (Option Nat)
  | 0, _, _ => none
  | fuel + 1, low, high =>
    if low ≤ high then
      let mid := midPointer size low high
      let cmp := compar key (read mid)
      if cmp = 0 then some (some mid)
      else if cmp < 0 then
        bsearchPointers compar key read size fuel low ((mid + 2 ^ 64 - size.toNat) % 2 ^ 64)
      else bsearchPointers compar key read size fuel ((mid + size.toNat) % 2 ^ 64) high
    else some none

def xbsearchAt (compar : α → α → Int) (key : α) (read : Nat → α) (base : Nat)
    (nmemb size : UInt32) (fuel : Nat) : Option (Option Nat) :=
  if nmemb = 0 then some none
  else bsearchPointers compar key read size fuel base ((base + ((nmemb - 1) * size).toNat) % 2 ^ 64)

/-- An array of `n` elements of 16 bytes in memory, with the header of its block
in front of it. -/
structure ArrayAt (read : Nat → α) (arr : Nat → α) (base n : Nat) : Prop where
  few : n < 2 ^ 27
  header : 16 ≤ base
  fits : base + 16 * n < 2 ^ 64
  reads : ∀ k < n, read (base + 16 * k) = arr k

section Pointers

variable {key : α} {read arr : Nat → α} {base n : Nat}

theorem midPointer_eq (atBase : ArrayAt read arr base n) {low high : Int}
    (notNegative : 0 ≤ low) (inArray : high < n) (ordered : low ≤ high) :
    midPointer 16 (base + 16 * low).toNat (base + 16 * high).toNat =
      base + 16 * (low + (high - low) / 2).toNat := by
  have few := atBase.few
  have fits := atBase.fits
  have sixteen : (16 : UInt32).toNat = 16 := rfl
  have isOffset :
      ((base + 16 * high).toNat - (base + 16 * low).toNat) / 16 / 2 = ((high - low) / 2).toNat := by
    omega
  rw [midPointer, sixteen, isOffset, UInt32.toNat_mul, UInt32.toNat_ofNat', sixteen]
  omega

/-- The search over addresses finds what the search over indices finds. -/
theorem bsearchPointers_eq (atBase : ArrayAt read arr base n) {low high : Int}
    (notNegative : 0 ≤ low) (lowInside : low ≤ n) (atLeast : -1 ≤ high)
    (inArray : high < n) {fuel : Nat} (enough : (high - low + 1).toNat < fuel) :
    bsearchPointers compar key read 16 fuel (base + 16 * low).toNat
        (base + 16 * high).toNat =
      some ((bsearchLoop compar key arr low high).map fun i => base + 16 * i) := by
  have header := atBase.header
  have fits := atBase.fits
  have sixteen : (16 : UInt32).toNat = 16 := rfl
  induction fuel generalizing low high with
  | zero => omega
  | succ fuel ih =>
    rw [bsearchPointers, bsearchLoop]
    by_cases ordered : low ≤ high
    swap
    · rw [if_neg (by omega), if_neg ordered]
      rfl
    rw [if_pos (by omega), if_pos ordered]
    dsimp only
    rw [midPointer_eq atBase notNegative inArray ordered, atBase.reads _ (by omega)]
    by_cases isEqual : compar key (arr (low + (high - low) / 2).toNat) = 0
    · rw [if_pos isEqual, if_pos isEqual]
      rfl
    rw [if_neg isEqual, if_neg isEqual, sixteen]
    by_cases isBelow : compar key (arr (low + (high - low) / 2).toNat) < 0
    · have isHigh :
          (base + 16 * (low + (high - low) / 2).toNat + 2 ^ 64 - 16) %
              2 ^ 64 =
            ((base : Int) + 16 * (low + (high - low) / 2 - 1)).toNat := by
        omega
      rw [if_pos isBelow, if_pos isBelow, isHigh]
      exact ih notNegative lowInside (by omega) (by omega) (by omega)
    · have isLow :
          (base + 16 * (low + (high - low) / 2).toNat + 16) % 2 ^ 64 =
            ((base : Int) + 16 * (low + (high - low) / 2 + 1)).toNat := by
        omega
      rw [if_neg isBelow, if_neg isBelow, isLow]
      exact ih (by omega) (by omega) atLeast inArray (by omega)

theorem xbsearchAt_eq (atBase : ArrayAt read arr base n) {fuel : Nat} (enough : n < fuel) :
    xbsearchAt compar key read base (UInt32.ofNat n) 16 fuel =
      some ((xbsearch compar key arr n).map fun i => base + 16 * i) := by
  have few := atBase.few
  have fits := atBase.fits
  have isCount : (UInt32.ofNat n).toNat = n := by
    rw [UInt32.toNat_ofNat']
    omega
  rw [xbsearchAt, xbsearch]
  by_cases isEmpty : n = 0
  · rw [if_pos isEmpty, isEmpty]
    rfl
  have notZero : UInt32.ofNat n ≠ 0 := by
    intro isZero
    rw [isZero] at isCount
    exact isEmpty isCount.symm
  have atLeastOne : (1 : UInt32) ≤ UInt32.ofNat n := by
    rw [UInt32.le_iff_toNat_le, isCount]
    exact Nat.one_le_iff_ne_zero.mpr isEmpty
  have isLast :
      (base + ((UInt32.ofNat n - 1) * 16).toNat) % 2 ^ 64 =
        ((base : Int) + 16 * ((n : Int) - 1)).toNat := by
    have sixteen : (16 : UInt32).toNat = 16 := rfl
    have one : (1 : UInt32).toNat = 1 := rfl
    rw [UInt32.toNat_mul, UInt32.toNat_sub_of_le _ _ atLeastOne, isCount, sixteen, one]
    omega
  have search :=
    @bsearchPointers_eq _ compar key _ _ _ _ atBase _ _ (le_refl 0)
      (Int.natCast_nonneg n) (by omega) (show (n : Int) - 1 < n by omega)
      fuel (by omega)
  rw [if_neg notZero, if_neg isEmpty, isLast]
  rw [Int.mul_zero, Int.add_zero, Int.toNat_natCast] at search
  exact search

end Pointers

end LlmRuntime.Stdlib
