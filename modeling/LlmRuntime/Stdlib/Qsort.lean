import LlmRuntime.Library.Rearrangement

/-!
# `xqsort`

The quicksort of `user/xstdlib.c`, with the ranges still to be sorted on a stack
of 128 integers.  The loop is the same for an array of values and for one of
bytes.
-/

namespace LlmRuntime.Stdlib

open Rearrangement

universe u v

variable {α : Type u} {β : Type v}

def maxStack : Nat := 128

/-- The integers `low` and `high` of a range on the stack. -/
structure SortRange where
  low : Nat
  high : Nat
  deriving DecidableEq, Repr

/-- One turn of the loop over `j`; the number is `i + 1`.  The comparison may
answer differently in each turn. -/
def partitionTurn (compar : Nat → α → α → Int) (pivot : α) (state : (Nat → α) × Nat)
    (j : Nat) : (Nat → α) × Nat :=
  if compar j (state.1 j) pivot ≤ 0 then (swap state.1 state.2 j, state.2 + 1)
  else state

/-- Partition around the last entry; the number is where it goes. -/
def partition (compar : Nat → α → α → Int) (arr : Nat → α) (low high : Nat) : (Nat → α) × Nat :=
  let (arr, p) := (List.range' low (high - low)).foldl (partitionTurn compar (arr high)) (arr, low)
  (swap arr p high, p)

/-- Push the two integers of a range that has more than one entry; `none` is a
write behind the stack. -/
def pushRange (range : SortRange) (stack : List SortRange) : Option (List SortRange) :=
  if range.low < range.high then
    if 2 * stack.length + 1 < maxStack then some (range :: stack) else none
  else some stack

/-- How a turn of the outer loop partitions a range of what is sorted, and where
the pivot goes. -/
structure Partitioner (β : Type v) where
  run : Nat → β → Nat → Nat → β × Nat
  bounds :
    ∀ turn arr low high, low ≤ high →
      low ≤ (run turn arr low high).2 ∧ (run turn arr low high).2 ≤ high

/-- One turn of the outer loop, with the range popped. -/
def qsortTurn (part : Partitioner β) (turn : Nat) (range : SortRange)
    (stack : List SortRange) (arr : β) : Option (List SortRange × β) :=
  let low := range.low
  let high := range.high
  if low ≥ high then some (stack, arr)
  else
    let (arr, p) := part.run turn arr low high
    let left : SortRange := ⟨low, p - 1⟩
    let right : SortRange := ⟨p + 1, high⟩
    if p - low > high - p then
      (pushRange left stack).bind fun stack =>
        (pushRange right stack).map fun stack => (stack, arr)
    else
      (pushRange right stack).bind fun stack =>
        (pushRange left stack).map fun stack => (stack, arr)

theorem foldl_count_bounds {turn : β × Nat → Nat → β × Nat}
    (counts : ∀ state j, (turn state j).2 = state.2 ∨ (turn state j).2 = state.2 + 1)
    (items : List Nat) (state : β × Nat) :
    state.2 ≤ (items.foldl turn state).2 ∧ (items.foldl turn state).2 ≤ state.2 + items.length := by
  induction items generalizing state with
  | nil => exact ⟨le_rfl, le_rfl⟩
  | cons j items ih =>
    have first := counts state j
    have later := ih (turn state j)
    rw [List.foldl_cons, List.length_cons]
    omega

theorem foldl_range_bounds {turn : β × Nat → Nat → β × Nat}
    (counts : ∀ state j, (turn state j).2 = state.2 ∨ (turn state j).2 = state.2 + 1)
    (arr : β) {low high : Nat} (ordered : low ≤ high) :
    low ≤ ((List.range' low (high - low)).foldl turn (arr, low)).2 ∧
      ((List.range' low (high - low)).foldl turn (arr, low)).2 ≤ high := by
  have bounds := foldl_count_bounds counts (List.range' low (high - low)) (arr, low)
  rw [List.length_range'] at bounds
  dsimp only at bounds
  omega

theorem partitionTurn_counts (compar : Nat → α → α → Int) (pivot : α)
    (state : (Nat → α) × Nat) (j : Nat) :
    (partitionTurn compar pivot state j).2 = state.2 ∨
      (partitionTurn compar pivot state j).2 = state.2 + 1 := by
  rw [partitionTurn]
  split_ifs
  · exact .inr rfl
  · exact .inl rfl

theorem partition_bounds (compar : Nat → Nat → α → α → Int) (turn : Nat)
    (arr : Nat → α) (low high : Nat) (ordered : low ≤ high) :
    low ≤ (partition (compar turn) arr low high).2 ∧
      (partition (compar turn) arr low high).2 ≤ high :=
  foldl_range_bounds (partitionTurn_counts (compar turn) (arr high)) arr ordered

/-- The partition of the entries, with a comparison that may answer differently
in each of its calls. -/
def partitioner (compar : Nat → Nat → α → α → Int) : Partitioner (Nat → α) where
  run := fun turn arr low high => partition (compar turn) arr low high
  bounds := partition_bounds compar

/-- What the loop has done up to `bound`. -/
structure PartitionLoop (compar : Nat → α → α → Int) (pivot : α) (low high bound : Nat)
    (before : Nat → α) (state : (Nat → α) × Nat) : Prop where
  low_le : low ≤ state.2
  le_bound : state.2 ≤ bound
  rearranged : Rearranged low high before state.1
  unchanged : ∀ i, bound ≤ i → state.1 i = before i
  below :
    ∀ order, (∀ j, compar j = order) → ∀ i, low ≤ i → i < state.2 → order (state.1 i) pivot ≤ 0
  above :
    ∀ order, (∀ j, compar j = order) → ∀ i, state.2 ≤ i → i < bound → ¬ order (state.1 i) pivot ≤ 0

section Partition

variable {compar : Nat → α → α → Int} {pivot : α} {low high bound : Nat}
  {before arr : Nat → α} {p : Nat}

theorem PartitionLoop.turn (loop : PartitionLoop compar pivot low high bound before (arr, p))
    (inside : bound ≤ high) :
    PartitionLoop compar pivot low high (bound + 1) before
      (partitionTurn compar pivot (arr, p) bound) := by
  obtain ⟨lowLe, leBound, rearranged, unchanged, below, above⟩ := loop
  dsimp only at lowLe leBound rearranged unchanged below above
  rw [partitionTurn]
  split_ifs with small
  · refine
      { low_le := Nat.le_succ_of_le lowLe
        le_bound := Nat.succ_le_succ leBound
        rearranged := ?_
        unchanged := ?_
        below := ?_
        above := ?_ }
    · exact rearranged.trans
        (Rearranged.swap arr ⟨lowLe, leBound.trans inside⟩ ⟨lowLe.trans leBound, inside⟩)
    · intro i later
      dsimp only
      rw [swap_of_ne arr (by omega) (by omega)]
      exact unchanged i (by omega)
    · intro order isOrder i atLeast atMost
      dsimp only at atMost ⊢
      by_cases isNew : i = p
      · rw [isNew, swap_left, ← isOrder bound]
        exact small
      · rw [swap_of_ne arr isNew (by omega)]
        exact below order isOrder i atLeast (by omega)
    · intro order isOrder i atLeast atMost
      dsimp only at atLeast ⊢
      by_cases isLast : i = bound
      · rw [isLast, swap_right]
        exact above order isOrder p le_rfl (by omega)
      · rw [swap_of_ne arr (by omega) isLast]
        exact above order isOrder i (by omega) (by omega)
  · refine
      { low_le := lowLe
        le_bound := Nat.le_succ_of_le leBound
        rearranged := rearranged
        unchanged := fun i later => unchanged i (by omega)
        below := below
        above := ?_ }
    intro order isOrder i atLeast atMost
    by_cases isLast : i = bound
    · rw [isLast, ← isOrder bound]
      exact small
    · exact above order isOrder i atLeast (by omega)

theorem partitionLoop_run (compar : Nat → α → α → Int) (arr : Nat → α)
    (low high count : Nat) (inside : low + count ≤ high) :
    PartitionLoop compar (arr high) low high (low + count) arr
      ((List.range' low count).foldl (partitionTurn compar (arr high)) (arr, low)) := by
  induction count with
  | zero =>
    refine
      { low_le := le_rfl
        le_bound := le_rfl
        rearranged := Rearranged.refl low high arr
        unchanged := fun _ _ => rfl
        below := ?_
        above := ?_ }
    · intro order isOrder i atLeast atMost
      exact absurd atMost (not_lt.mpr atLeast)
    · intro order isOrder i atLeast atMost
      exact absurd atMost (not_lt.mpr atLeast)
  | succ count ih =>
    rw [List.range'_1_concat, List.foldl_append, ← Nat.add_assoc]
    exact (ih (by omega)).turn (by omega)

/-- The pivot stands at `p`, with nothing greater before it and nothing else
behind it. -/
structure Separated (order : α → α → Int) (low high : Nat) (after : Nat → α) (p : Nat) : Prop where
  below : ∀ i, low ≤ i → i < p → order (after i) (after p) ≤ 0
  above : ∀ i, p < i → i ≤ high → ¬ order (after i) (after p) ≤ 0

theorem partition_separated (compar : Nat → α → α → Int) (arr : Nat → α)
    {low high : Nat} (ordered : low ≤ high) :
    Rearranged low high arr (partition compar arr low high).1 ∧
      ∀ order, (∀ j, compar j = order) →
        Separated order low high (partition compar arr low high).1
          (partition compar arr low high).2 := by
  have loop := partitionLoop_run compar arr low high (high - low) (by omega)
  rw [partition]
  generalize (List.range' low (high - low)).foldl _ _ = state at loop ⊢
  obtain ⟨after, p⟩ := state
  obtain ⟨lowLe, leBound, rearranged, unchanged, below, above⟩ := loop
  dsimp only at lowLe leBound rearranged unchanged below above ⊢
  rw [Nat.add_sub_cancel' ordered] at leBound above unchanged
  have isPivot : after high = arr high := unchanged high le_rfl
  refine ⟨?_, fun order isOrder => ⟨?_, ?_⟩⟩
  · exact rearranged.trans (Rearranged.swap after ⟨lowLe, leBound⟩ ⟨ordered, le_rfl⟩)
  · intro i atLeast atMost
    rw [swap_left, isPivot, swap_of_ne after (by omega) (by omega)]
    exact below order isOrder i atLeast atMost
  · intro i atLeast atMost
    rw [swap_left, isPivot]
    by_cases isLast : i = high
    · rw [isLast, swap_right]
      exact above order isOrder p le_rfl (by omega)
    · rw [swap_of_ne after (by omega) isLast]
      exact above order isOrder i (by omega) (by omega)

end Partition

def SortRange.kept (range : SortRange) : List SortRange :=
  if range.low < range.high then [range] else []

variable {range : SortRange} {stack next : List SortRange} {n turn : Nat}
  {part : Partitioner β} {arr after : β}

theorem pushRange_some {pushed : List SortRange} (isPushed : pushRange range stack = some pushed) :
    pushed = range.kept ++ stack := by
  rw [pushRange] at isPushed
  rw [SortRange.kept]
  split_ifs at isPushed ⊢ <;> exact (Option.some.inj isPushed).symm

/-- The parts of a range around the place of the pivot. -/
def Parts (range : SortRange) (p : Nat) (larger smaller : SortRange) : Prop :=
  larger = ⟨range.low, p - 1⟩ ∧ smaller = ⟨p + 1, range.high⟩ ∧
      p - range.low > range.high - p ∨
    larger = ⟨p + 1, range.high⟩ ∧ smaller = ⟨range.low, p - 1⟩ ∧ p - range.low ≤ range.high - p

/-- What a turn of the outer loop makes of the range it has popped. -/
inductive Turned (part : Partitioner β) (turn : Nat) (range : SortRange)
    (stack : List SortRange) (arr : β) : List SortRange → β → Prop
  | single (isSingle : range.low ≥ range.high) :
      Turned part turn range stack arr stack arr
  | split
      {after : β} {p : Nat} (larger smaller : SortRange)
      (isWide : range.low < range.high)
      (isRun : part.run turn arr range.low range.high = (after, p))
      (bounds : range.low ≤ p ∧ p ≤ range.high)
      (parts : Parts range p larger smaller) :
      Turned part turn range stack arr (smaller.kept ++ (larger.kept ++ stack)) after

theorem qsortTurn_some (isTurn : qsortTurn part turn range stack arr = some (next, after)) :
    Turned part turn range stack arr next after := by
  rw [qsortTurn] at isTurn
  by_cases isSingle : range.low ≥ range.high
  · rw [if_pos isSingle] at isTurn
    obtain ⟨rfl, rfl⟩ := Prod.mk.inj (Option.some.inj isTurn)
    exact .single isSingle
  rw [if_neg isSingle] at isTurn
  have isWide := not_le.mp isSingle
  have bounds := part.bounds turn arr range.low range.high isWide.le
  cases isRun : part.run turn arr range.low range.high with
  | mk parted p =>
    rw [isRun] at isTurn bounds
    dsimp only at isTurn bounds
    split_ifs at isTurn with leftLarger
    · obtain ⟨first, isFirst, rest⟩ := Option.bind_eq_some_iff.mp isTurn
      obtain ⟨second, isSecond, isNext⟩ := Option.map_eq_some_iff.mp rest
      obtain ⟨rfl, rfl⟩ := Prod.mk.inj isNext
      rw [pushRange_some isSecond, pushRange_some isFirst]
      exact .split _ _ isWide isRun bounds (.inl ⟨rfl, rfl, leftLarger⟩)
    · obtain ⟨first, isFirst, rest⟩ := Option.bind_eq_some_iff.mp isTurn
      obtain ⟨second, isSecond, isNext⟩ := Option.map_eq_some_iff.mp rest
      obtain ⟨rfl, rfl⟩ := Prod.mk.inj isNext
      rw [pushRange_some isSecond, pushRange_some isFirst]
      exact .split _ _ isWide isRun bounds (.inr ⟨rfl, rfl, not_lt.mp leftLarger⟩)

def SortRange.weight (range : SortRange) : Nat := 2 * (range.high - range.low) + 1

def stackWeight (stack : List SortRange) : Nat := (stack.map SortRange.weight).sum

@[simp]
theorem stackWeight_cons (range : SortRange) (stack : List SortRange) :
    stackWeight (range :: stack) = range.weight + stackWeight stack := by
  rw [stackWeight, List.map_cons, List.sum_cons, stackWeight]

theorem stackWeight_kept_append (range : SortRange) (stack : List SortRange) :
    stackWeight (range.kept ++ stack) =
      (if range.low < range.high then range.weight else 0) + stackWeight stack := by
  rw [SortRange.kept]
  split_ifs
  · rw [List.singleton_append, stackWeight_cons]
  · rw [List.nil_append, Nat.zero_add]

theorem Turned.weight_lt (turned : Turned part turn range stack arr next after) :
    stackWeight next < stackWeight (range :: stack) := by
  cases turned with
  | single isSingle =>
    rw [stackWeight_cons, SortRange.weight]
    omega
  | split larger smaller isWide isRun bounds parts =>
    rw [stackWeight_kept_append, stackWeight_kept_append, stackWeight_cons]
    rcases parts with ⟨rfl, rfl, -⟩ | ⟨rfl, rfl, -⟩ <;>
    · simp only [SortRange.weight]
      split_ifs
      all_goals omega

def qsortLoop (part : Partitioner β) (turn : Nat) (stack : List SortRange) (arr : β) : Option β :=
  match stack with
  | [] => some arr
  | range :: rest =>
    match _isTurn : qsortTurn part turn range rest arr with
    | none => none
    | some (next, after) => qsortLoop part (turn + 1) next after
termination_by stackWeight stack
decreasing_by exact (qsortTurn_some _isTurn).weight_lt

/-- The sort of the first `nmemb` entries; `none` is a write behind its
stack. -/
def qsortWith (part : Partitioner β) (arr : β) (nmemb : Nat) : Option β :=
  if nmemb ≤ 1 then some arr
  else
    (pushRange ⟨0, nmemb - 1⟩ []).bind fun stack =>
      qsortLoop part 0 stack arr

/-- `xqsort` with a comparison that is a function of the entries.  Its
allocations succeed, and the offset of no entry reaches `2 ^ 32`. -/
def xqsort (compar : α → α → Int) (arr : Nat → α) (nmemb : Nat) : Option (Nat → α) :=
  qsortWith (partitioner fun _ _ => compar) arr nmemb

theorem qsortLoop_cons {rest : List SortRange}
    (isTurn : qsortTurn part turn range rest arr = some (next, after)) :
    qsortLoop part turn (range :: rest) arr = qsortLoop part (turn + 1) next after := by
  rw [qsortLoop]
  split
  next isNone =>
    rw [isTurn] at isNone
    cases isNone
  next other otherAfter isOther =>
    rw [isTurn] at isOther
    cases isOther
    rfl

/-- A rule for the loop: what every turn keeps holds when the stack is empty,
and the loop comes there if no turn runs over the stack. -/
theorem qsortLoop_rule {motive : List SortRange → β → Prop}
    (turns : ∀ turn range stack arr, motive (range :: stack) arr →
        (qsortTurn part turn range stack arr).isSome ∧
          ∀ next after, Turned part turn range stack arr next after → motive next after)
    (turn : Nat) (initially : motive stack arr) :
    ∃ sorted, qsortLoop part turn stack arr = some sorted ∧ motive [] sorted := by
  induction isWeight : stackWeight stack using Nat.strong_induction_on
    generalizing stack arr turn with
  | _ weight ih =>
    cases stack with
    | nil =>
      refine ⟨arr, ?_, initially⟩
      rw [qsortLoop]
    | cons range rest =>
      obtain ⟨isSome, keeps⟩ := turns turn range rest arr initially
      obtain ⟨⟨next, after⟩, isTurn⟩ := Option.isSome_iff_exists.mp isSome
      have turned := qsortTurn_some isTurn
      obtain ⟨sorted, isSorted, atEnd⟩ :=
        ih (stackWeight next) (by rw [← isWeight]; exact turned.weight_lt) (turn + 1)
          (keeps next after turned) rfl
      exact ⟨sorted, (qsortLoop_cons isTurn).trans isSorted, atEnd⟩

/-! ## The stack stays low -/

/-- From the bottom of the stack up, every range is at most half as wide as the
one below could be. -/
def Halving (n : Nat) : List SortRange → Prop
  | [] => True
  | range :: stack =>
    range.low < range.high ∧ (range.high - range.low + 1) * 2 ^ stack.length ≤ n ∧ Halving n stack

theorem Halving.kept (halving : Halving n stack) (narrow : range.low < range.high →
        (range.high - range.low + 1) * 2 ^ stack.length ≤ n) :
    Halving n (range.kept ++ stack) := by
  rw [SortRange.kept]
  split_ifs with wide
  · exact ⟨wide, narrow wide, halving⟩
  · exact halving

theorem SortRange.kept_length_le (range : SortRange) : range.kept.length ≤ 1 := by
  rw [SortRange.kept]
  split_ifs
  · rfl
  · exact Nat.zero_le 1

theorem Halving.turned (halving : Halving n (range :: stack))
    (turned : Turned part turn range stack arr next after) :
    Halving n next := by
  obtain ⟨-, narrow, below⟩ := halving
  cases turned with
  | single isSingle => exact below
  | split larger smaller isWide isRun bounds parts =>
    have largerNarrow :
        larger.low < larger.high → larger.high - larger.low + 1 ≤ range.high - range.low + 1 := by
      rcases parts with ⟨rfl, rfl, -⟩ | ⟨rfl, rfl, -⟩ <;>
      · intro wide
        dsimp only at wide ⊢
        omega
    have smallerNarrow :
        smaller.low < smaller.high →
          (smaller.high - smaller.low + 1) * 2 ≤ range.high - range.low + 1 := by
      rcases parts with ⟨rfl, rfl, isLarger⟩ | ⟨rfl, rfl, isLarger⟩ <;>
      · intro wide
        dsimp only at wide ⊢
        omega
    refine (below.kept ?_).kept ?_
    · intro wide
      exact (Nat.mul_le_mul_right _ (largerNarrow wide)).trans narrow
    · intro wide
      have atMostOne : (larger.kept ++ stack).length ≤ stack.length + 1 := by
        have one := larger.kept_length_le
        rw [List.length_append]
        omega
      calc
        (smaller.high - smaller.low + 1) *
              2 ^ (larger.kept ++ stack).length ≤
            (smaller.high - smaller.low + 1) * 2 ^ (stack.length + 1) :=
          Nat.mul_le_mul_left _ (Nat.pow_le_pow_right (Nat.succ_pos 1) atMostOne)
        _ = (smaller.high - smaller.low + 1) * 2 * 2 ^ stack.length := by
          rw [Nat.pow_succ]
          ring
        _ ≤ (range.high - range.low + 1) * 2 ^ stack.length :=
          Nat.mul_le_mul_right _ (smallerNarrow wide)
        _ ≤ n := narrow

theorem Halving.length_le (halving : Halving n (range :: stack)) : 2 ^ (stack.length + 1) ≤ n := by
  obtain ⟨wide, narrow, -⟩ := halving
  have two : 2 ≤ range.high - range.low + 1 := by omega
  calc
    2 ^ (stack.length + 1) = 2 * 2 ^ stack.length := by
      rw [Nat.pow_succ, Nat.mul_comm]
    _ ≤ (range.high - range.low + 1) * 2 ^ stack.length := Nat.mul_le_mul_right _ two
    _ ≤ n := narrow

theorem pushRange_isSome (low : 2 * stack.length + 1 < maxStack) :
    (pushRange range stack).isSome := by
  rw [pushRange]
  split_ifs
  · rfl
  · rfl

/-- With at most `2 ^ 62` entries no turn runs over the stack. -/
theorem qsortTurn_isSome (halving : Halving n (range :: stack))
    (small : n < 2 ^ 63) (part : Partitioner β) (turn : Nat) (arr : β) :
    (qsortTurn part turn range stack arr).isSome := by
  have isLow : stack.length < 62 := by
    have below : 2 ^ (stack.length + 1) < 2 ^ 63 := halving.length_le.trans_lt small
    have exponents := (Nat.pow_lt_pow_iff_right (by decide)).mp below
    omega
  have twice :
      ∀ first second : SortRange,
        ((pushRange first stack).bind fun pushed =>
          (pushRange second pushed).map fun both =>
            (both, (part.run turn arr range.low range.high).1)).isSome := by
    intro first second
    obtain ⟨pushed, isPushed⟩ :=
      Option.isSome_iff_exists.mp (@pushRange_isSome first stack (by rw [maxStack]; omega))
    have pushedLow : pushed.length ≤ stack.length + 1 := by
      have one := first.kept_length_le
      rw [pushRange_some isPushed, List.length_append]
      omega
    rw [isPushed, Option.bind_some, Option.isSome_map]
    exact pushRange_isSome (by rw [maxStack]; omega)
  rw [qsortTurn]
  dsimp only
  split_ifs
  · rfl
  · exact twice _ _
  · exact twice _ _

def SortRange.Apart (range other : SortRange) : Prop :=
  range.high < other.low ∨ other.high < range.low

/-- A comparison that orders all elements. -/
structure TotalPreorder (compar : α → α → Int) : Prop where
  total : ∀ a b, compar a b ≤ 0 ∨ compar b a ≤ 0
  transitive : ∀ a b c, compar a b ≤ 0 → compar b c ≤ 0 → compar a c ≤ 0

/-- Any two entries are in order, or in a range that is still to be sorted. -/
structure Sorting (compar : α → α → Int) (n : Nat) (stack : List SortRange)
    (arr : Nat → α) : Prop where
  apart : stack.Pairwise SortRange.Apart
  ordered :
    ∀ i j, i < j → j < n →
      compar (arr i) (arr j) ≤ 0 ∨ ∃ range ∈ stack, range.low ≤ i ∧ j ≤ range.high

theorem SortRange.mem_kept_iff {other : SortRange} :
    other ∈ range.kept ↔ other = range ∧ range.low < range.high := by
  rw [SortRange.kept]
  split_ifs with wide
  · rw [List.mem_singleton, and_iff_left wide]
  · exact iff_of_false (List.not_mem_nil) fun both => wide both.2

theorem SortRange.kept_pairwise (range : SortRange) : range.kept.Pairwise SortRange.Apart := by
  rw [SortRange.kept]
  split_ifs
  · exact List.pairwise_singleton _ _
  · exact List.Pairwise.nil

/-- The part of a range that a push keeps is inside of it, and apart from the
other part. -/
theorem parts_inside {larger smaller : SortRange} {p : Nat}
    (bounds : range.low ≤ p ∧ p ≤ range.high) (parts : Parts range p larger smaller) :
    (larger.low < larger.high → range.low ≤ larger.low ∧ larger.high ≤ range.high) ∧
      (smaller.low < smaller.high → range.low ≤ smaller.low ∧ smaller.high ≤ range.high) ∧
      (larger.low < larger.high → smaller.low < smaller.high → smaller.Apart larger) := by
  rcases parts with ⟨rfl, rfl, -⟩ | ⟨rfl, rfl, -⟩ <;>
  · dsimp only
    refine ⟨fun wide => by omega, fun wide => by omega, ?_⟩
    intro wide otherWide
    rw [SortRange.Apart]
    dsimp only
    omega

theorem parts_pushed {larger smaller part : SortRange} {p : Nat}
    (stack : List SortRange) (parts : Parts range p larger smaller)
    (isPart : part = ⟨range.low, p - 1⟩ ∨ part = ⟨p + 1, range.high⟩)
    (wide : part.low < part.high) :
    part ∈ smaller.kept ++ (larger.kept ++ stack) := by
  have isEither : part = smaller ∨ part = larger := by
    rcases parts with ⟨rfl, rfl, -⟩ | ⟨rfl, rfl, -⟩
    · exact isPart.symm
    · exact isPart
  rcases isEither with rfl | rfl
  · exact List.mem_append_left _ (SortRange.mem_kept_iff.mpr ⟨rfl, wide⟩)
  · exact List.mem_append_right _ (List.mem_append_left _ (SortRange.mem_kept_iff.mpr ⟨rfl, wide⟩))

theorem SortRange.Apart.inner {part other : SortRange} (apart : range.Apart other)
    (inside : range.low ≤ part.low ∧ part.high ≤ range.high) :
    part.Apart other := by
  rw [SortRange.Apart] at apart ⊢
  omega

section Sorting

variable {compar : α → α → Int} {n : Nat} {range : SortRange}
  {stack : List SortRange} {arr after : Nat → α} {p : Nat}

/-- Entries of which not both are in the range stay in order, or in another
range. -/
theorem Sorting.ordered_outside (sorting : Sorting compar n (range :: stack) arr)
    (inside : range.high < n) (rearranged : Rearranged range.low range.high arr after) {i j : Nat}
    (isBefore : i < j) (inArray : j < n) (outside : ¬ (range.low ≤ i ∧ j ≤ range.high)) :
    compar (after i) (after j) ≤ 0 ∨ ∃ other ∈ stack, other.low ≤ i ∧ j ≤ other.high := by
  have apart := (List.pairwise_cons.mp sorting.apart).1
  by_cases firstInside : range.low ≤ i ∧ i ≤ range.high
  · -- `i` is in the range, so that `j` is behind it
    obtain ⟨k, kInside, isK⟩ := rearranged.apply_inside firstInside
    rw [isK, rearranged.apply_outside (i := j) (by omega)]
    rcases sorting.ordered k j (by omega) inArray with inOrder | ⟨other, isIn, atLeast, atMost⟩
    · exact .inl inOrder
    · rcases List.mem_cons.mp isIn with rfl | isOther
      · omega
      · have isApart := apart other isOther
        rw [SortRange.Apart] at isApart
        omega
  by_cases secondInside : range.low ≤ j ∧ j ≤ range.high
  · obtain ⟨k, kInside, isK⟩ := rearranged.apply_inside secondInside
    rw [isK, rearranged.apply_outside firstInside]
    rcases sorting.ordered i k (by omega) (by omega) with inOrder | ⟨other, isIn, atLeast, atMost⟩
    · exact .inl inOrder
    · rcases List.mem_cons.mp isIn with rfl | isOther
      · omega
      · have isApart := apart other isOther
        rw [SortRange.Apart] at isApart
        omega
  · rw [rearranged.apply_outside firstInside, rearranged.apply_outside secondInside]
    rcases sorting.ordered i j isBefore inArray with inOrder | ⟨other, isIn, atLeast, atMost⟩
    · exact .inl inOrder
    · rcases List.mem_cons.mp isIn with rfl | isOther
      · omega
      · exact .inr ⟨other, isOther, atLeast, atMost⟩

theorem Separated.ordered (separated : Separated compar range.low range.high after p)
    (preorder : TotalPreorder compar) {i j : Nat} (atLeast : range.low ≤ i)
    (atMost : j ≤ range.high) :
    compar (after i) (after j) ≤ 0 ∨ j < p ∨ p < i := by
  have toPivot : i ≤ p → compar (after i) (after p) ≤ 0 := by
    intro notBehind
    by_cases isPivot : i = p
    · rw [isPivot]
      exact or_self_iff.mp (preorder.total (after p) (after p))
    · exact separated.below i atLeast (by omega)
  have fromPivot : p ≤ j → compar (after p) (after j) ≤ 0 := by
    intro notBefore
    by_cases isPivot : j = p
    · rw [isPivot]
      exact or_self_iff.mp (preorder.total (after p) (after p))
    · exact (preorder.total (after p) (after j)).resolve_right (separated.above j (by omega) atMost)
  by_cases around : i ≤ p ∧ p ≤ j
  · exact .inl (preorder.transitive _ _ _ (toPivot around.1) (fromPivot around.2))
  · exact .inr (by omega)

theorem Sorting.single (sorting : Sorting compar n (range :: stack) arr)
    (inside : range.high < n) (isSingle : range.low ≥ range.high) :
    Sorting compar n stack arr := by
  refine ⟨(List.pairwise_cons.mp sorting.apart).2, ?_⟩
  intro i j isBefore inArray
  exact sorting.ordered_outside inside (Rearranged.refl _ _ arr) isBefore inArray (by omega)

theorem Sorting.split {larger smaller : SortRange} (sorting : Sorting compar n (range :: stack) arr)
    (inside : range.high < n) (preorder : TotalPreorder compar)
    (bounds : range.low ≤ p ∧ p ≤ range.high) (parts : Parts range p larger smaller)
    (rearranged : Rearranged range.low range.high arr after)
    (separated : Separated compar range.low range.high after p) :
    Sorting compar n (smaller.kept ++ (larger.kept ++ stack)) after := by
  obtain ⟨rangeApart, stackApart⟩ := List.pairwise_cons.mp sorting.apart
  obtain ⟨largerInside, smallerInside, partsApart⟩ := parts_inside bounds parts
  refine ⟨?_, ?_⟩
  · refine List.pairwise_append.mpr ⟨smaller.kept_pairwise, ?_, ?_⟩
    · refine List.pairwise_append.mpr ⟨larger.kept_pairwise, stackApart, ?_⟩
      intro part isLarger other isStack
      obtain ⟨rfl, wide⟩ := SortRange.mem_kept_iff.mp isLarger
      exact (rangeApart other isStack).inner (largerInside wide)
    · intro part isSmaller other isLater
      obtain ⟨rfl, wide⟩ := SortRange.mem_kept_iff.mp isSmaller
      rcases List.mem_append.mp isLater with isLarger | isStack
      · obtain ⟨rfl, otherWide⟩ := SortRange.mem_kept_iff.mp isLarger
        exact partsApart otherWide wide
      · exact (rangeApart other isStack).inner (smallerInside wide)
  · intro i j isBefore inArray
    by_cases inRange : range.low ≤ i ∧ j ≤ range.high
    rotate_left
    · rcases sorting.ordered_outside inside rearranged isBefore inArray
          inRange with
        inOrder | ⟨other, isIn, contains⟩
      · exact .inl inOrder
      · exact .inr ⟨other, List.mem_append_right _ (List.mem_append_right _ isIn), contains⟩
    rcases separated.ordered preorder inRange.1 inRange.2 with inOrder | inLeft | inRight
    · exact .inl inOrder
    · refine .inr ⟨⟨range.low, p - 1⟩, parts_pushed stack parts (.inl rfl) ?_, ?_⟩
      · dsimp only
        omega
      · dsimp only
        omega
    · refine .inr ⟨⟨p + 1, range.high⟩, parts_pushed stack parts (.inr rfl) ?_, ?_⟩
      · dsimp only
        omega
      · dsimp only
        omega

end Sorting

/-- The ranges on the stack halve, and lie inside the array. -/
structure StackOk (n : Nat) (stack : List SortRange) : Prop where
  halving : Halving n stack
  inside : ∀ range ∈ stack, range.high < n

theorem StackOk.turned (isOk : StackOk n (range :: stack))
    (turned : Turned part turn range stack arr next after) :
    StackOk n next := by
  refine ⟨isOk.halving.turned turned, ?_⟩
  have rangeInside := isOk.inside range List.mem_cons_self
  have stackInside := fun other isIn => isOk.inside other (List.mem_cons_of_mem range isIn)
  cases turned with
  | single isSingle => exact stackInside
  | split larger smaller isWide isRun bounds parts =>
    obtain ⟨largerInside, smallerInside, -⟩ := parts_inside bounds parts
    intro other isIn
    rcases List.mem_append.mp isIn with isSmaller | isLater
    · obtain ⟨rfl, wide⟩ := SortRange.mem_kept_iff.mp isSmaller
      exact (smallerInside wide).2.trans_lt rangeInside
    rcases List.mem_append.mp isLater with isLarger | isStack
    · obtain ⟨rfl, wide⟩ := SortRange.mem_kept_iff.mp isLarger
      exact (largerInside wide).2.trans_lt rangeInside
    · exact stackInside other isStack

/-- A sort whose partitions move the entries of their range comes to an end
without running over its stack, has moved the entries among themselves and, if
its partitions separate them by an order, into this order. -/
theorem qsortWith_sorts (part : Partitioner β) (view : β → Nat → α)
    {nmemb : Nat} (small : nmemb < 2 ^ 63) (moves : ∀ turn arr low high, low ≤ high → high < nmemb →
        Rearranged low high (view arr) (view (part.run turn arr low high).1))
    (arr : β) :
    ∃ sorted,
      qsortWith part arr nmemb = some sorted ∧
        Rearranged 0 (nmemb - 1) (view arr) (view sorted) ∧
        ∀ order : α → α → Int, TotalPreorder order →
          (∀ turn arr low high, low ≤ high → high < nmemb →
            Separated order low high (view (part.run turn arr low high).1)
              (part.run turn arr low high).2) →
          ∀ i j, i < j → j < nmemb → order (view sorted i) (view sorted j) ≤ 0 := by
  rw [qsortWith]
  by_cases trivialArray : nmemb ≤ 1
  · rw [if_pos trivialArray]
    refine ⟨arr, rfl, Rearranged.refl _ _ (view arr), ?_⟩
    intro order preorder separates i j isBefore inArray
    omega
  rw [if_neg trivialArray]
  have isPushed : pushRange ⟨0, nmemb - 1⟩ [] = some [⟨0, nmemb - 1⟩] := by
    rw [pushRange]
    dsimp only
    rw [if_pos (by omega), if_pos (by decide)]
  have stackOk : StackOk nmemb [⟨0, nmemb - 1⟩] := by
    refine ⟨⟨?_, ?_, trivial⟩, ?_⟩
    · dsimp only
      omega
    · dsimp only [List.length_nil]
      omega
    · intro range isIn
      rw [List.mem_singleton.mp isIn]
      dsimp only
      omega
  have sorting (order : α → α → Int) : Sorting order nmemb [⟨0, nmemb - 1⟩] (view arr) := by
    refine ⟨List.pairwise_singleton _ _, ?_⟩
    intro i j isBefore inArray
    refine .inr ⟨_, List.mem_singleton.mpr rfl, Nat.zero_le i, ?_⟩
    dsimp only
    omega
  obtain ⟨sorted, isSorted, -, rearranged, ordered⟩ :=
    qsortLoop_rule (motive := fun stack current =>
        StackOk nmemb stack ∧
          Rearranged 0 (nmemb - 1) (view arr) (view current) ∧
          ∀ order : α → α → Int, TotalPreorder order →
            (∀ turn arr low high, low ≤ high → high < nmemb →
              Separated order low high (view (part.run turn arr low high).1)
                (part.run turn arr low high).2) →
            Sorting order nmemb stack (view current))
      (fun turn range stack current holds => by
        obtain ⟨isOk, soFar, isSorting⟩ := holds
        have inside := isOk.inside range List.mem_cons_self
        refine ⟨qsortTurn_isSome isOk.halving small part turn current, ?_⟩
        intro next after turned
        refine ⟨isOk.turned turned, ?_, ?_⟩
        · cases turned with
          | single isSingle => exact soFar
          | split larger smaller isWide isRun bounds parts =>
            have moved := moves turn current _ _ isWide.le inside
            rw [isRun] at moved
            exact soFar.trans (moved.mono (Nat.zero_le _) (by omega))
        · intro order preorder separates
          have before := isSorting order preorder separates
          cases turned with
          | single isSingle => exact before.single inside isSingle
          | split larger smaller isWide isRun bounds parts =>
            have moved := moves turn current _ _ isWide.le inside
            have separated := separates turn current _ _ isWide.le inside
            rw [isRun] at moved separated
            exact before.split inside preorder bounds parts moved separated)
      0 ⟨stackOk, Rearranged.refl _ _ (view arr), fun order _ _ =>
        sorting order⟩
  refine ⟨sorted, ?_, rearranged, ?_⟩
  · rw [isPushed, Option.bind_some, isSorted]
  · intro order preorder separates i j isBefore inArray
    rcases (ordered order preorder separates).ordered i j isBefore inArray
      with inOrder | ⟨range, isIn, -⟩
    · exact inOrder
    · exact absurd isIn List.not_mem_nil

theorem xqsort_sorts (compar : α → α → Int) (arr : Nat → α) {nmemb : Nat} (small : nmemb < 2 ^ 63) :
    ∃ sorted,
      xqsort compar arr nmemb = some sorted ∧
        Rearranged 0 (nmemb - 1) arr sorted ∧
        (TotalPreorder compar → ∀ i j, i < j → j < nmemb → compar (sorted i) (sorted j) ≤ 0) := by
  obtain ⟨sorted, isSorted, rearranged, ordered⟩ :=
    qsortWith_sorts (partitioner fun _ _ => compar) id small
      (fun _ current _ _ isOrdered _ =>
        (partition_separated (fun _ => compar) current isOrdered).1) arr
  refine ⟨sorted, isSorted, rearranged, ?_⟩
  intro preorder
  refine ordered compar preorder ?_
  intro turn current low high isOrdered inside
  exact (partition_separated (fun _ => compar) current isOrdered).2 compar fun _ => rfl

end LlmRuntime.Stdlib
