import LlmRuntime.Stdlib.Qsort

/-!
# `xqsort` on bytes

An element is found by a product of 32 bits, and `swap` exchanges two elements
byte by byte.  As long as the array is shorter than `2 ^ 32` bytes, this is the
sort of the entries.
-/

namespace LlmRuntime.Stdlib

open Rearrangement

/-- The offset `index * size`, a product of unsigned integers. -/
def elementOffset (size : UInt32) (index : Nat) : Nat := (UInt32.ofNat index * size).toNat

def bytesAt (size : UInt32) (mem : Nat → UInt8) (ptr : Nat) : List UInt8 :=
  (List.range size.toNat).map fun k => mem (ptr + k)

def swapLoop (count : Nat) (mem : Nat → UInt8) (a b : Nat) : Nat → UInt8 :=
  (List.range count).foldl (fun mem i => swap mem (a + i) (b + i)) mem

def swapBytes (size : UInt32) (mem : Nat → UInt8) (a b : Nat) : Nat → UInt8 :=
  swapLoop size.toNat mem a b

def partitionBytesTurn (compar : Nat → List UInt8 → List UInt8 → Int) (size : UInt32)
    (pivot : List UInt8) (state : (Nat → UInt8) × Nat) (j : Nat) :
    (Nat → UInt8) × Nat :=
  if compar j (bytesAt size state.1 (elementOffset size j)) pivot ≤ 0 then
    (swapBytes size state.1 (elementOffset size state.2) (elementOffset size j), state.2 + 1)
  else state

/-- Partition around a copy of the last element. -/
def partitionBytes (compar : Nat → List UInt8 → List UInt8 → Int) (size : UInt32)
    (mem : Nat → UInt8) (low high : Nat) : (Nat → UInt8) × Nat :=
  let pivot := bytesAt size mem (elementOffset size high)
  let (mem, p) :=
    (List.range' low (high - low)).foldl (partitionBytesTurn compar size pivot) (mem, low)
  (swapBytes size mem (elementOffset size p) (elementOffset size high), p)

theorem partitionBytesTurn_counts (compar : Nat → List UInt8 → List UInt8 → Int) (size : UInt32)
    (pivot : List UInt8) (state : (Nat → UInt8) × Nat) (j : Nat) :
    (partitionBytesTurn compar size pivot state j).2 = state.2 ∨
      (partitionBytesTurn compar size pivot state j).2 = state.2 + 1 := by
  rw [partitionBytesTurn]
  split_ifs
  · exact .inr rfl
  · exact .inl rfl

theorem partitionBytes_bounds (compar : Nat → Nat → List UInt8 → List UInt8 → Int) (size : UInt32)
    (turn : Nat) (mem : Nat → UInt8) (low high : Nat) (ordered : low ≤ high) :
    low ≤ (partitionBytes (compar turn) size mem low high).2 ∧
      (partitionBytes (compar turn) size mem low high).2 ≤ high :=
  foldl_range_bounds (partitionBytesTurn_counts (compar turn) size _) mem ordered

def bytesPartitioner (compar : Nat → Nat → List UInt8 → List UInt8 → Int) (size : UInt32) :
    Partitioner (Nat → UInt8) where
  run := fun turn mem low high =>
    partitionBytes (compar turn) size mem low high
  bounds := partitionBytes_bounds compar size

/-- `xqsort`.  The comparison gets the bytes of its two elements; it may answer
differently in each turn of the two loops. -/
def xqsortBytes (compar : Nat → Nat → List UInt8 → List UInt8 → Int)
    (mem : Nat → UInt8) (nmemb size : UInt32) : Option (Nat → UInt8) :=
  qsortWith (bytesPartitioner compar size) mem nmemb.toNat

def elements (size : UInt32) (mem : Nat → UInt8) (k : Nat) : List UInt8 :=
  bytesAt size mem (k * size.toNat)

theorem elementOffset_eq {size : UInt32} {index nmemb : Nat}
    (inside : index < nmemb) (total : nmemb * size.toNat < 2 ^ 32) :
    elementOffset size index = index * size.toNat := by
  by_cases isEmpty : size.toNat = 0
  · rw [elementOffset, UInt32.toNat_mul, isEmpty]
    rfl
  have product : index * size.toNat ≤ nmemb * size.toNat := Nat.mul_le_mul_right _ inside.le
  have factor : index ≤ index * size.toNat := Nat.le_mul_of_pos_right _ (Nat.pos_of_ne_zero isEmpty)
  rw [elementOffset, UInt32.toNat_mul, UInt32.toNat_ofNat',
    Nat.mod_eq_of_lt (factor.trans_lt (product.trans_lt total)),
    Nat.mod_eq_of_lt (product.trans_lt total)]

theorem swapLoop_succ (count : Nat) (mem : Nat → UInt8) (a b : Nat) :
    swapLoop (count + 1) mem a b = swap (swapLoop count mem a b) (a + count) (b + count) := by
  rw [swapLoop, List.range_succ, List.foldl_append]
  rfl

theorem swapLoop_self (count : Nat) (mem : Nat → UInt8) (a : Nat) :
    swapLoop count mem a a = mem := by
  induction count with
  | zero => rfl
  | succ count ih =>
    rw [swapLoop_succ, ih, swap_eq_comp, Equiv.swap_self]
    rfl

theorem swapLoop_outside (count : Nat) (mem : Nat → UInt8) {a b x : Nat}
    (notFirst : ¬ (a ≤ x ∧ x < a + count)) (notSecond : ¬ (b ≤ x ∧ x < b + count)) :
    swapLoop count mem a b x = mem x := by
  induction count with
  | zero => rfl
  | succ count ih =>
    rw [swapLoop_succ, swap_of_ne _ (by omega) (by omega)]
    exact ih (by omega) (by omega)

/-- Two blocks that do not overlap have changed places. -/
theorem swapLoop_inside (mem : Nat → UInt8) {a b count : Nat}
    (apart : a + count ≤ b ∨ b + count ≤ a) {k : Nat} (inside : k < count) :
    swapLoop count mem a b (a + k) = mem (b + k) ∧
      swapLoop count mem a b (b + k) = mem (a + k) := by
  induction count with
  | zero => omega
  | succ count ih =>
    rw [swapLoop_succ]
    by_cases isLast : k = count
    · rw [isLast, swap_left, swap_right, swapLoop_outside count mem (by omega) (by omega),
        swapLoop_outside count mem (by omega) (by omega)]
      exact ⟨rfl, rfl⟩
    · rw [swap_of_ne _ (by omega) (by omega), swap_of_ne _ (by omega) (by omega)]
      exact ih (by omega) (by omega)

theorem bytesAt_congr {size : UInt32} {mem other : Nat → UInt8} {ptr otherPtr : Nat}
    (same : ∀ k < size.toNat, mem (ptr + k) = other (otherPtr + k)) :
    bytesAt size mem ptr = bytesAt size other otherPtr := by
  refine List.map_congr_left ?_
  intro k isIn
  exact same k (List.mem_range.mp isIn)

theorem elements_apart (size : UInt32) {i j : Nat} (different : i ≠ j) :
    i * size.toNat + size.toNat ≤ j * size.toNat ∨
      j * size.toNat + size.toNat ≤ i * size.toNat := by
  rw [← Nat.succ_mul, ← Nat.succ_mul]
  rcases Nat.lt_or_gt_of_ne different with before | behind
  · exact .inl (Nat.mul_le_mul_right _ before)
  · exact .inr (Nat.mul_le_mul_right _ behind)

theorem elements_swapBytes (size : UInt32) (mem : Nat → UInt8) (i j : Nat) :
    elements size (swapBytes size mem (i * size.toNat) (j * size.toNat)) =
      swap (elements size mem) i j := by
  by_cases isSame : i = j
  · rw [isSame, swapBytes, swapLoop_self, swap_eq_comp, Equiv.swap_self]
    rfl
  have apart := elements_apart size isSame
  funext k
  by_cases isFirst : k = i
  · rw [isFirst, swap_left]
    refine bytesAt_congr fun b inside => ?_
    exact (swapLoop_inside mem apart inside).1
  by_cases isSecond : k = j
  · rw [isSecond, swap_right]
    refine bytesAt_congr fun b inside => ?_
    exact (swapLoop_inside mem apart inside).2
  · have fromFirst := elements_apart size isFirst
    have fromSecond := elements_apart size isSecond
    rw [swap_of_ne _ isFirst isSecond]
    refine bytesAt_congr fun b inside => ?_
    exact swapLoop_outside size.toNat mem (by omega) (by omega)

section Partition

variable {compar : Nat → List UInt8 → List UInt8 → Int} {size : UInt32} {nmemb : Nat}

theorem elements_partitionBytesTurn (total : nmemb * size.toNat < 2 ^ 32) (pivot : List UInt8)
    {state : (Nat → UInt8) × Nat} {j : Nat} (inside : j < nmemb) (notBehind : state.2 ≤ j) :
    (elements size (partitionBytesTurn compar size pivot state j).1,
        (partitionBytesTurn compar size pivot state j).2) =
      partitionTurn compar pivot (elements size state.1, state.2) j := by
  rw [partitionBytesTurn, partitionTurn, elementOffset_eq inside total,
    elementOffset_eq (notBehind.trans_lt inside) total]
  have isElement : bytesAt size state.1 (j * size.toNat) = elements size state.1 j := rfl
  rw [isElement]
  by_cases isSmall : compar j (elements size state.1 j) pivot ≤ 0
  · rw [if_pos isSmall, if_pos isSmall, elements_swapBytes]
  · rw [if_neg isSmall, if_neg isSmall]

theorem elements_partitionLoop (total : nmemb * size.toNat < 2 ^ 32) (pivot : List UInt8)
    (mem : Nat → UInt8) {low count : Nat} (inside : low + count ≤ nmemb) :
    let state := (List.range' low count).foldl (partitionBytesTurn compar size pivot) (mem, low)
    (elements size state.1, state.2) =
      (List.range' low count).foldl (partitionTurn compar pivot) (elements size mem, low) := by
  induction count with
  | zero => rfl
  | succ count ih =>
    have bounds :=
      (foldl_count_bounds (partitionBytesTurn_counts compar size pivot)
        (List.range' low count) (mem, low)).2
    rw [List.length_range'] at bounds
    rw [List.range'_1_concat, List.foldl_append, List.foldl_append, ← ih (by omega)]
    exact elements_partitionBytesTurn total pivot (by omega) bounds

theorem elements_partitionBytes (total : nmemb * size.toNat < 2 ^ 32) (mem : Nat → UInt8)
    {low high : Nat} (ordered : low ≤ high) (inside : high < nmemb) :
    (elements size (partitionBytes compar size mem low high).1,
        (partitionBytes compar size mem low high).2) =
      partition compar (elements size mem) low high := by
  have bounds := (partitionBytes_bounds (fun _ => compar) size 0 mem low high ordered).2
  have loop :=
    @elements_partitionLoop compar _ _ total (elements size mem high) mem low
      (high - low) (by omega)
  have isPivot : bytesAt size mem (elementOffset size high) = elements size mem high := by
    rw [elementOffset_eq inside total]
    rfl
  rw [partitionBytes, isPivot] at bounds ⊢
  rw [partition, ← loop]
  dsimp only at bounds ⊢
  rw [elementOffset_eq inside total,
    elementOffset_eq (bounds.trans_lt inside) total, elements_swapBytes]

end Partition

section Partitioner

variable {compar : Nat → Nat → List UInt8 → List UInt8 → Int}
  {size : UInt32} {nmemb : Nat} (total : nmemb * size.toNat < 2 ^ 32)

include total

theorem bytesPartitioner_moves (turn : Nat) (mem : Nat → UInt8) (low high : Nat)
    (ordered : low ≤ high) (inside : high < nmemb) :
    Rearranged low high (elements size mem)
      (elements size ((bytesPartitioner compar size).run turn mem low high).1) := by
  have moved := (partition_separated (compar turn) (elements size mem) ordered).1
  rw [← elements_partitionBytes total mem ordered inside] at moved
  exact moved

theorem bytesPartitioner_separates {order : List UInt8 → List UInt8 → Int}
    (isOrder : ∀ turn j, compar turn j = order) (turn : Nat) (mem : Nat → UInt8)
    (low high : Nat) (ordered : low ≤ high) (inside : high < nmemb) :
    Separated order low high
      (elements size ((bytesPartitioner compar size).run turn mem low high).1)
      ((bytesPartitioner compar size).run turn mem low high).2 := by
  have separated :=
    (partition_separated (compar turn) (elements size mem) ordered).2 order (isOrder turn)
  rw [← elements_partitionBytes total mem ordered inside] at separated
  exact separated

end Partitioner

/-- `xqsort` comes to an end without writing behind its stack, whatever its
comparison answers, and has moved the elements among themselves; if its
comparison is a function that orders the elements, they are in this order. -/
theorem xqsortBytes_sorts (compar : Nat → Nat → List UInt8 → List UInt8 → Int)
    (mem : Nat → UInt8) (nmemb size : UInt32) (count : nmemb.toNat < 2 ^ 31)
    (total : nmemb.toNat * size.toNat < 2 ^ 32) :
    ∃ sorted,
      xqsortBytes compar mem nmemb size = some sorted ∧
        Rearranged 0 (nmemb.toNat - 1) (elements size mem) (elements size sorted) ∧
        ∀ order, (∀ turn j, compar turn j = order) → TotalPreorder order →
          ∀ i j, i < j → j < nmemb.toNat →
            order (elements size sorted i) (elements size sorted j) ≤ 0 := by
  obtain ⟨sorted, isSorted, rearranged, ordered⟩ :=
    qsortWith_sorts (bytesPartitioner compar size) (elements size)
      (count.trans (by decide)) (bytesPartitioner_moves total) mem
  refine ⟨sorted, isSorted, rearranged, ?_⟩
  intro order isOrder preorder
  exact ordered order preorder (bytesPartitioner_separates total isOrder)

def byteOrder (a b : List UInt8) : Int := ((a.getD 0 0).toNat : Int) - (b.getD 0 0).toNat

theorem byteOrder_preorder : TotalPreorder byteOrder := by
  refine ⟨?_, ?_⟩
  · intro a b
    rw [byteOrder, byteOrder]
    omega
  · intro a b c
    rw [byteOrder, byteOrder, byteOrder]
    omega

theorem xqsortBytes_sorts_threeBytes :
    ∃ sorted,
      xqsortBytes (fun _ _ => byteOrder) (fun k => [9, 4, 7].getD k 0) 3 1 = some sorted ∧
        byteOrder (elements 1 sorted 0) (elements 1 sorted 2) ≤ 0 := by
  obtain ⟨sorted, isSorted, -, ordered⟩ :=
    xqsortBytes_sorts (fun _ _ => byteOrder) (fun k => [9, 4, 7].getD k 0)
      3 1 (by decide) (by decide)
  exact ⟨sorted, isSorted, ordered byteOrder (fun _ _ => rfl)
    byteOrder_preorder 0 2 (by decide) (by decide)⟩

end LlmRuntime.Stdlib
