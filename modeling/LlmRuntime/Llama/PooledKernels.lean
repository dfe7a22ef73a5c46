import LlmRuntime.Library.MachineInt
import LlmRuntime.Llama.KernelSpecs

/-!
# Kernels on the pool

`matmul` and `multihead_attention` give blocks of rows and heads to the threads
of the pool.  A worker sums up a row in eight lanes and `matmul` without the
pool in one; in a commutative ring that is the same.
-/

namespace LlmRuntime.LlamaCore

open Buffer MachineInt

universe u

/-- The quotient that both kernels round up with, in `int`. -/
def partsOfInt (total size : Int) : Int := Int.tdiv (int32 (int32 (total + size) - 1)) size

/-- The loop that fills the items, `num_active_threads` clamped. -/
def dispatchItems (gNumThreads total size : Int) : List (Int × Int) :=
  let numActive := partsOfInt total size
  let numActive :=
    if numActive > gNumThreads then gNumThreads else numActive
  ((List.range numActive.toNat).map fun t : Nat =>
    let start := int32 (t * size)
    let stop := int32 (start + size)
    (start, if stop > total then total else stop)).takeWhile fun item =>
      ¬ item.1 ≥ total

/-- The intervals of rows that `matmul` hands out. -/
def matmulItems (gNumThreads d : Int) : List (Int × Int) :=
  let rows := partsOfInt d gNumThreads
  let rows := int32 (Int.tdiv (int32 (rows + 15)) 16 * 16)
  dispatchItems gNumThreads d rows

/-- The intervals of heads that `multihead_attention` hands out. -/
def attentionItems (gNumThreads nHeads : Int) : List (Int × Int) :=
  dispatchItems gNumThreads nHeads (partsOfInt nHeads gNumThreads)

def unitsOf (items : List (Int × Int)) : List Nat :=
  items.flatMap fun item =>
    List.range' item.1.toNat (item.2 - item.1).toNat

/-- At most one interval for a thread, in order, that make up the whole. -/
structure ItemsCover (items : List (Int × Int)) (threads total : Nat) : Prop where
  few : items.length ≤ threads
  disjoint : items.Pairwise fun earlier later => earlier.2 ≤ later.1
  cover : ∀ i : Int, (∃ item ∈ items, item.1 ≤ i ∧ i < item.2) ↔ 0 ≤ i ∧ i < total

theorem partsOfInt_eq {total size : Nat} (positive : 0 < size) (small : total + size < 2 ^ 31) :
    partsOfInt total size = ((Llama.partsOf total size : Nat) : Int) := by
  have less : (((total + size : Nat) : Int) - 1) = ((total + size - 1 : Nat) : Int) := by omega
  rw [partsOfInt, ← Int.natCast_add, int32_natCast small, less,
    int32_natCast (by omega), ← Int.ofNat_tdiv]
  rfl

theorem dispatchItems_eq (pool : Pool) {total size : Nat} (positive : 0 < size)
    (small : total + size < 2 ^ 31) :
    dispatchItems pool.threads total size =
      (pool.handOut total size).map fun item => ((item.1 : Int), (item.2 : Int)) := by
  have active :
      (if partsOfInt total size > (pool.threads : Int) then (pool.threads : Int)
        else partsOfInt total size).toNat =
        min (Llama.partsOf total size) pool.threads := by
    rw [partsOfInt_eq positive small]
    split_ifs <;> omega
  have items :
      ((List.range (min (Llama.partsOf total size) pool.threads)).map
          fun t : Nat =>
            (int32 ((t : Int) * (size : Int)),
              if int32 (int32 ((t : Int) * (size : Int)) + (size : Int)) >
                  (total : Int) then
                (total : Int)
              else int32 (int32 ((t : Int) * (size : Int)) + (size : Int)))) =
        ((List.range (min (Llama.partsOf total size) pool.threads)).map
          fun t => (t * size, min (t * size + size) total)).map
          fun item => ((item.1 : Int), (item.2 : Int)) := by
    rw [List.map_map]
    apply List.map_congr_left
    intro t isActive
    have starts : t * size < total := by
      apply Llama.mul_lt_of_lt_partsOf
      exact Nat.lt_of_lt_of_le (List.mem_range.mp isActive) (Nat.min_le_left _ _)
    rw [int32_mul (by omega), ← Int.natCast_add, int32_natCast (by omega)]
    simp only [Function.comp_apply, Prod.mk.injEq, true_and]
    split_ifs <;> omega
  have inside (item : Nat × Nat) :
      decide (¬ (item.1 : Int) ≥ (total : Int)) = decide (item.1 < total) := by
    rw [decide_eq_decide]
    omega
  unfold dispatchItems Pool.handOut
  dsimp only
  rw [active, items, List.takeWhile_map]
  simp only [Function.comp_def, inside]

theorem unitsOf_dispatchItems (pool : Pool) {total size : Nat} (positive : 0 < size)
    (small : total + size < 2 ^ 31) (covered : total ≤ pool.threads * size) :
    unitsOf (dispatchItems pool.threads total size) = List.range total := by
  have bounds (item : Nat × Nat) : ((item.2 : Int) - (item.1 : Int)).toNat = item.2 - item.1 := by
    omega
  rw [unitsOf, dispatchItems_eq pool positive small, List.flatMap_map,
    ← pool.flatMap_handOut covered]
  simp only [Int.toNat_natCast, bounds]

theorem dispatchItems_cover (pool : Pool) {total size : Nat} (positive : 0 < size)
    (small : total + size < 2 ^ 31) (covered : total ≤ pool.threads * size) :
    ItemsCover (dispatchItems pool.threads total size) pool.threads total := by
  have items := dispatchItems_eq pool positive small
  constructor
  · rw [items, pool.handOut_eq, List.length_map, List.length_map, List.length_range]
    exact Nat.min_le_right _ _
  · rw [items, pool.handOut_eq, List.pairwise_map, List.pairwise_map]
    apply List.Pairwise.imp _ List.pairwise_lt_range
    intro earlier later before
    have steps := Nat.mul_le_mul_right size before
    rw [Nat.succ_mul] at steps
    omega
  · intro i
    have member (k : Nat) :
        (∃ item ∈ pool.handOut total size, item.1 ≤ k ∧ k < item.2) ↔ k < total := by
      rw [← List.mem_range, ← pool.flatMap_handOut covered, List.mem_flatMap]
      simp only [List.mem_range'_1]
      constructor <;>
      · rintro ⟨item, isItem, inside⟩
        exact ⟨item, isItem, by omega⟩
    rw [items]
    constructor
    · rintro ⟨item, isItem, starts, ends⟩
      obtain ⟨natItem, isNat, rfl⟩ := List.mem_map.mp isItem
      obtain ⟨k, rfl⟩ := Int.eq_ofNat_of_zero_le ((Int.natCast_nonneg natItem.1).trans starts)
      have inside := (member k).mp ⟨natItem, isNat, by omega, by omega⟩
      omega
    · rintro ⟨nonneg, inside⟩
      obtain ⟨k, rfl⟩ := Int.eq_ofNat_of_zero_le nonneg
      obtain ⟨item, isItem, starts, ends⟩ := (member k).mpr (by omega)
      exact ⟨_, List.mem_map.mpr ⟨item, isItem, rfl⟩, by omega, by omega⟩

/-! ### Rows and heads -/

namespace Pool

variable (pool : Pool)

theorem partsOf_bounds {total : Nat} (some : 0 < total) :
    0 < Llama.partsOf total pool.threads ∧ Llama.partsOf total pool.threads ≤ total := by
  have threads := pool.positive
  have enough : total ≤ Llama.partsOf total pool.threads * pool.threads :=
    le_partsOf_mul pool.positive
  constructor
  · by_contra none
    rw [Nat.eq_zero_of_not_pos none, Nat.zero_mul] at enough
    omega
  · rw [Llama.partsOf]
    apply Nat.div_le_of_le_mul
    have product : total + pool.threads ≤ pool.threads * total + 1 := by
      nlinarith
    omega

theorem matmulItems_eq {d : Nat} (few : pool.threads ≤ 16) (some : 0 < d) (small : d < 2 ^ 30) :
    matmulItems pool.threads d =
      dispatchItems pool.threads d ((Llama.rowsPerThread pool.threads d : Nat) : Int) := by
  have parts := pool.partsOf_bounds some
  have fifteen : (15 : Int) = ((15 : Nat) : Int) := rfl
  have sixteen : (16 : Int) = ((16 : Nat) : Int) := rfl
  rw [matmulItems, partsOfInt_eq pool.positive (by omega), fifteen, sixteen, ← Int.natCast_add,
    int32_natCast (by omega), ← Int.ofNat_tdiv, int32_mul (by omega)]
  rfl

theorem rowsPerThread_bounds {d : Nat} (some : 0 < d) (small : d < 2 ^ 30) :
    0 < Llama.rowsPerThread pool.threads d ∧ d + Llama.rowsPerThread pool.threads d < 2 ^ 31 := by
  have parts := pool.partsOf_bounds some
  rw [Llama.rowsPerThread]
  omega

theorem matmulItems_cover {d : Nat} (few : pool.threads ≤ 16) (some : 0 < d) (small : d < 2 ^ 30) :
    ItemsCover (matmulItems pool.threads d) pool.threads d := by
  obtain ⟨positive, fits⟩ := pool.rowsPerThread_bounds some small
  rw [pool.matmulItems_eq few some small]
  exact dispatchItems_cover pool positive fits (pool.le_rowsPerThread d)

theorem unitsOf_matmulItems
    {d : Nat} (few : pool.threads ≤ 16) (some : 0 < d) (small : d < 2 ^ 30) :
    unitsOf (matmulItems pool.threads d) = List.range d := by
  obtain ⟨positive, fits⟩ := pool.rowsPerThread_bounds some small
  rw [pool.matmulItems_eq few some small]
  exact unitsOf_dispatchItems pool positive fits (pool.le_rowsPerThread d)

theorem attentionItems_eq {nHeads : Nat} (few : pool.threads ≤ 16) (small : nHeads < 2 ^ 30) :
    attentionItems pool.threads nHeads =
      dispatchItems pool.threads nHeads ((Llama.partsOf nHeads pool.threads : Nat) : Int) := by
  rw [attentionItems, partsOfInt_eq pool.positive (by omega)]

theorem attentionItems_cover {nHeads : Nat} (few : pool.threads ≤ 16)
    (some : 0 < nHeads) (small : nHeads < 2 ^ 30) :
    ItemsCover (attentionItems pool.threads nHeads) pool.threads nHeads := by
  have parts := pool.partsOf_bounds some
  rw [pool.attentionItems_eq few small]
  exact dispatchItems_cover pool parts.1 (by omega) (pool.le_headsPerThread nHeads)

theorem unitsOf_attentionItems {nHeads : Nat} (few : pool.threads ≤ 16)
    (some : 0 < nHeads) (small : nHeads < 2 ^ 30) :
    unitsOf (attentionItems pool.threads nHeads) = List.range nHeads := by
  have parts := pool.partsOf_bounds some
  rw [pool.attentionItems_eq few small]
  exact unitsOf_dispatchItems pool parts.1 (by omega) (pool.le_headsPerThread nHeads)

end Pool

section Sums

variable {M : Type u} [AddCommMonoid M]

theorem foldl_range'_eq_sum (f : Nat → M) (first count : Nat) :
    (List.range' first count).foldl (fun sum j => sum + f j) 0 =
      ∑ k ∈ Finset.range count, f (first + k) := by
  induction count with
  | zero => rfl
  | succ count ih =>
    rw [List.range'_1_concat, List.foldl_append, ih, Finset.sum_range_succ]
    rfl

theorem foldl_range_eq_sum (f : Nat → M) (count : Nat) :
    (List.range count).foldl (fun sum j => sum + f j) 0 = ∑ j ∈ Finset.range count, f j := by
  have whole := foldl_range'_eq_sum f 0 count
  simp only [Nat.zero_add] at whole
  rw [List.range_eq_range']
  exact whole

theorem sum_range_lanes (f : Nat → M) (blocks : Nat) :
    ∑ j ∈ Finset.range (8 * blocks), f j =
      ∑ lane ∈ Finset.range 8, ∑ k ∈ Finset.range blocks, f (8 * k + lane) := by
  rw [Finset.sum_comm]
  induction blocks with
  | zero => rfl
  | succ blocks ih => rw [Finset.sum_range_succ, ← ih, Nat.mul_succ, Finset.sum_range_add]

theorem sum_range_unrolled (f : Nat → M) (n : Nat) :
    ∑ j ∈ Finset.range n, f j =
      (∑ lane ∈ Finset.range 8, ∑ k ∈ Finset.range (n / 8), f (8 * k + lane)) +
        ∑ k ∈ Finset.range (n - n / 8 * 8), f (n / 8 * 8 + k) := by
  have eighths : n / 8 * 8 = 8 * (n / 8) := Nat.mul_comm _ _
  rw [← sum_range_lanes, eighths, ← Finset.sum_range_add]
  congr 2
  omega

end Sums

def ringDot {R : Type u} [CommRing R] (wRow x : Nat → R) (n : Nat) : R :=
  ∑ j ∈ Finset.range n, wRow j * x j

theorem ringDot_unrolled {R : Type u} [CommRing R] (wRow x : Nat → R) (n : Nat) :
    ringDot wRow x n =
      (let lane (index : Nat) : R :=
        (List.range (n / 8)).foldl (fun sum k => sum + wRow (8 * k + index) * x (8 * k + index)) 0
      (lane 0 + lane 1 + lane 2 + lane 3) +
          (lane 4 + lane 5 + lane 6 + lane 7) +
        (List.range' (n / 8 * 8) (n - n / 8 * 8)).foldl (fun sum j => sum + wRow j * x j) 0) := by
  have lane (index : Nat) :=
    foldl_range_eq_sum (fun k => wRow (8 * k + index) * x (8 * k + index)) (n / 8)
  have tail := foldl_range'_eq_sum (fun j => wRow j * x j) (n / 8 * 8) (n - n / 8 * 8)
  rw [ringDot, sum_range_unrolled (fun j => wRow j * x j) n, ← tail]
  simp only [← lane]
  rw [Finset.sum_range_succ, Finset.sum_range_succ, Finset.sum_range_succ,
    Finset.sum_range_succ, Finset.sum_range_succ, Finset.sum_range_succ,
    Finset.sum_range_succ, Finset.sum_range_succ, Finset.sum_range_zero]
  abel

/-- Float operations with the sum and the product of a ring. -/
@[reducible]
def withRing {R : Type u} (ring : CommRing R) (rest : FloatOps R) : FloatOps R :=
  { rest with add := ring.add, mul := ring.mul, zero := ring.zero }

theorem dotProductUnrolled_eq_ringDot {R : Type u} (ring : CommRing R)
    (rest : FloatOps R) (wRow x : Nat → R) (n : Nat) :
    @dotProductUnrolled R (withRing ring rest) wRow x n = ringDot wRow x n :=
  (ringDot_unrolled wRow x n).symm

/-! ## Any order -/

section Order

variable {F : Type u} [FloatOps F]

/-- The rows that the workers compute, in the order in which they come to
them. -/
def matmulRows (rows : List Nat) (xout x w : Nat → F) (n : Nat) : Nat → F :=
  replaceEach rows (fun i _ => dotProductUnrolled (fun j => w (i * n + j)) x n) xout

theorem matmul_pooled_apply {pool : Pool} (started : pool.initialized = true) {d : Nat}
    (large : 128 ≤ d) (xout x w : Nat → F) (n : Nat) {i : Nat} (isRow : i < d) :
    matmul pool xout x w n d i = dotProductUnrolled (fun j => w (i * n + j)) x n := by
  have taken : pool.takes d = true := by
    rw [Pool.takes, decide_eq_true_iff, started]
    rintro (small | stopped)
    · omega
    · exact stopped rfl
  rw [matmul_eq, replaceEach_range isRow, linear, taken]
  rfl

theorem matmulRows_eq {pool : Pool} (started : pool.initialized = true) {d : Nat} (large : 128 ≤ d)
    {rows : List Nat} (all : rows.Perm (List.range d)) (xout x w : Nat → F) (n : Nat) :
    matmulRows rows xout x w n = matmul pool xout x w n d := by
  have distinct : rows.Nodup := all.nodup_iff.mpr List.nodup_range
  funext i
  rw [matmulRows]
  by_cases isRow : i < d
  · rw [matmul_pooled_apply started large xout x w n isRow,
      replaceEach_of_mem (all.mem_iff.mpr (List.mem_range.mpr isRow)) distinct]
  · rw [matmul_outside (Nat.le_of_not_lt isRow), replaceEach_of_notMem]
    rw [all.mem_iff, List.mem_range]
    exact isRow

variable (p : Geometry) (layer pos : Nat)

theorem foldl_attentionHead_att (room : pos < p.seqLen) {heads : List Nat}
    {h t : Nat} (isHead : h ∈ heads) (inside : t < pos + 1) (s : RunState F) :
    (heads.foldl (attentionHead p layer pos) s).att (h * p.seqLen + t) =
      attentionWeights p s.q (cachedRows p layer s (pos + 1)) h t := by
  apply foldl_cell_of_owner (fun now => now.att (h * p.seqLen + t)) (SameInputs s)
  · intro now other same
    exact ⟨same.q, same.keyCache, same.valueCache⟩
  · intro now same
    rw [attentionHead_att p layer pos now h inside, same.cachedRows, same.q]
  · intro now other isOther different
    apply attentionHead_att_other
    have apart := headParts_apart p.seqLen different
    omega
  · exact isHead
  · exact ⟨rfl, rfl, rfl⟩

theorem foldl_attentionHead_att_other {heads : List Nat} {m : Nat}
    (other : ∀ h ∈ heads, m < h * p.seqLen ∨ h * p.seqLen + (pos + 1) ≤ m) (s : RunState F) :
    (heads.foldl (attentionHead p layer pos) s).att m = s.att m :=
  foldl_cell_of_others (fun now : RunState F => now.att m)
    (fun now h isHead =>
      attentionHead_att_other p layer pos now (other h isHead)) s

theorem foldl_attentionHead_xb_other {heads : List Nat} {m : Nat}
    (other : ∀ h ∈ heads, m < h * p.headSize ∨ h * p.headSize + p.headSize ≤ m) (s : RunState F) :
    (heads.foldl (attentionHead p layer pos) s).xb m = s.xb m :=
  foldl_cell_of_others (fun now : RunState F => now.xb m)
    (fun now h isHead =>
      attentionHead_xb_other p layer pos now (other h isHead)) s

/-- The heads leave the same weights and the same output in every order. -/
theorem foldl_attentionHead_order (room : pos < p.seqLen) {heads order : List Nat}
    (same : ∀ h, h ∈ order ↔ h ∈ heads) (s : RunState F) :
    (order.foldl (attentionHead p layer pos) s).att =
        (heads.foldl (attentionHead p layer pos) s).att ∧
      (order.foldl (attentionHead p layer pos) s).xb =
        (heads.foldl (attentionHead p layer pos) s).xb := by
  constructor
  · funext m
    by_cases owned : ∃ h ∈ heads, h * p.seqLen ≤ m ∧ m < h * p.seqLen + (pos + 1)
    · obtain ⟨h, isHead, starts, ends⟩ := owned
      obtain ⟨t, rfl⟩ := Nat.exists_eq_add_of_le starts
      rw [foldl_attentionHead_att p layer pos room ((same h).mpr isHead)
          (by omega),
        foldl_attentionHead_att p layer pos room isHead (by omega)]
    · have other (h : Nat) (isHead : h ∈ heads) :
          m < h * p.seqLen ∨ h * p.seqLen + (pos + 1) ≤ m := by
        by_contra inside
        exact owned ⟨h, isHead, by omega⟩
      rw [foldl_attentionHead_att_other p layer pos other,
        foldl_attentionHead_att_other p layer pos fun h isHead => other h ((same h).mp isHead)]
  · funext m
    by_cases owned : ∃ h ∈ heads, h * p.headSize ≤ m ∧ m < h * p.headSize + p.headSize
    · obtain ⟨h, isHead, starts, ends⟩ := owned
      obtain ⟨i, rfl⟩ := Nat.exists_eq_add_of_le starts
      rw [foldl_attentionHead_xb p layer pos ((same h).mpr isHead) (by omega),
        foldl_attentionHead_xb p layer pos isHead (by omega)]
    · have other (h : Nat) (isHead : h ∈ heads) :
          m < h * p.headSize ∨ h * p.headSize + p.headSize ≤ m := by
        by_contra inside
        exact owned ⟨h, isHead, by omega⟩
      rw [foldl_attentionHead_xb_other p layer pos other,
        foldl_attentionHead_xb_other p layer pos fun h isHead => other h ((same h).mp isHead)]

end Order

/-- What the items of the two kernels make up, for `n` columns, `d` rows and
`nHeads` heads. -/
structure WorkDoneOnce (pool : Pool) (n d nHeads : Nat) : Prop where
  rows : ItemsCover (matmulItems pool.threads d) pool.threads d
  heads : ItemsCover (attentionItems pool.threads nHeads) pool.threads nHeads
  product :
    ∀ {R : Type u} (ring : CommRing R) (rest : FloatOps R)
      (xout x w : Nat → R) (i : Nat), i < d →
        @matmul R (withRing ring rest) pool xout x w n d i = ringDot (fun j => w (i * n + j)) x n
  productOrder :
    ∀ {F : Type u} [FloatOps F] (xout x w : Nat → F) (order : List Nat),
      order.Perm (unitsOf (matmulItems pool.threads d)) →
        matmulRows order xout x w n = matmul pool xout x w n d
  attention :
    ∀ {F : Type u} [FloatOps F] (p : Geometry), p.nHeads = nHeads →
      ∀ (layer pos : Nat) (s : RunState F),
        multiheadAttention pool p layer pos s = workerDoAttention p layer pos s (0, nHeads)
  attentionOrder :
    ∀ {F : Type u} [FloatOps F] (p : Geometry), p.nHeads = nHeads →
      ∀ (layer pos : Nat) (s : RunState F) (order : List Nat),
        pos < p.seqLen → order.Perm (unitsOf (attentionItems pool.threads nHeads)) →
            (order.foldl (attentionHead p layer pos) s).att =
                (workerDoAttention p layer pos s (0, nHeads)).att ∧
              (order.foldl (attentionHead p layer pos) s).xb =
                (workerDoAttention p layer pos s (0, nHeads)).xb

theorem pooled_work_done_once (pool : Pool) (started : pool.initialized = true)
    (few : pool.threads ≤ 16) (n d : Nat) (large : 128 ≤ d) (rowsSmall : d < 2 ^ 30) (nHeads : Nat)
    (hasHead : 1 ≤ nHeads) (headsSmall : nHeads < 2 ^ 30) :
    WorkDoneOnce.{u} pool n d nHeads := by
  have someRow : 0 < d := by omega
  constructor
  · exact pool.matmulItems_cover few someRow rowsSmall
  · exact pool.attentionItems_cover few hasHead headsSmall
  · intro R ring rest xout x w i isRow
    have row := @matmul_pooled_apply R (withRing ring rest) pool started d large xout x w n i isRow
    exact row.trans (dotProductUnrolled_eq_ringDot ring rest _ x n)
  · intro F ops xout x w order all
    rw [pool.unitsOf_matmulItems few someRow rowsSmall] at all
    exact matmulRows_eq started large all xout x w n
  · intro F ops p isHeads layer pos s
    rw [multiheadAttention_eq, workerDoAttention, isHeads, Nat.sub_zero, List.range_eq_range']
  · intro F ops p isHeads layer pos s order room all
    rw [pool.unitsOf_attentionItems few hasHead headsSmall] at all
    rw [workerDoAttention, Nat.sub_zero, ← List.range_eq_range']
    exact foldl_attentionHead_order p layer pos room (fun h => all.mem_iff) s

theorem pooled_work_done_once_three : WorkDoneOnce.{0} ⟨true, 3, Nat.succ_pos 2⟩ 5 130 7 :=
  pooled_work_done_once ⟨true, 3, Nat.succ_pos 2⟩ rfl (by decide) 5 130
    (by decide) (by decide) 7 (by decide) (by decide)

/-- Whatever the operations of the elements are, `matmul` writes the same rows
with a pool that is started as with one that is not. -/
def PoolIndependent (threads : Nat) (positive : 0 < threads) (n d : Nat) : Prop :=
  ∀ (F : Type) (ops : FloatOps F) (xout x w : Nat → F) (i : Nat), i < d →
    @matmul F ops ⟨true, threads, positive⟩ xout x w n d i =
      @matmul F ops ⟨false, threads, positive⟩ xout x w n d i

theorem matmul_small {F : Type u} [FloatOps F] (pool reference : Pool) {d : Nat}
    (small : d < 128) (xout x w : Nat → F) (n : Nat) :
    matmul pool xout x w n d = matmul reference xout x w n d := by
  have alone (pool : Pool) : pool.takes d = false := by
    rw [Pool.takes, decide_eq_false_iff_not, not_not]
    exact Or.inl small
  have sameRows : linear pool w x n d = linear reference w x n d := by
    funext i
    rw [linear, linear, alone pool, alone reference]
  rw [matmul_eq, matmul_eq, sameRows]

theorem matmul_alone_apply {F : Type u} [FloatOps F] {pool : Pool}
    (stopped : pool.initialized = false) (xout x w : Nat → F) (n : Nat)
    {d i : Nat} (isRow : i < d) :
    matmul pool xout x w n d i = dotProduct (fun j => w (i * n + j)) x n := by
  have alone : pool.takes d = false := by
    rw [Pool.takes, decide_eq_false_iff_not, not_not, stopped]
    exact Or.inr Bool.false_ne_true
  rw [matmul_eq, replaceEach_range isRow, linear, alone]
  rfl

/-- Elements that count the additions that made them. -/
@[reducible]
def countingOps : FloatOps Nat where
  add left right := left + right + 1
  sub _ _ := 0
  mul _ _ := 0
  div _ _ := 0
  neg _ := 0
  ofBytes _ _ _ _ := 0
  ofInt _ := 0
  zero := 0
  one := 0
  epsilon := 0
  ropeBase := 0
  greater _ _ := false
  sqrtf _ := 0
  expf _ := 0
  powf _ _ := 0
  cosf _ := 0
  sinf _ := 0

theorem foldl_count {α : Type} (items : List α) (start : Nat) :
    items.foldl (fun count _ => count + 0 + 1) start = start + items.length := by
  induction items generalizing start with
  | nil => rfl
  | cons item rest ih =>
    rw [List.foldl_cons, ih, List.length_cons]
    omega

theorem dotProduct_count (wRow x : Nat → Nat) (n : Nat) :
    @dotProduct Nat countingOps wRow x n = n := by
  have count := foldl_count (List.range n) 0
  rw [List.length_range, Nat.zero_add] at count
  exact count

theorem dotProductUnrolled_count (wRow x : Nat → Nat) (n : Nat) :
    @dotProductUnrolled Nat countingOps wRow x n = n + 8 := by
  have lane := foldl_count (List.range (n / 8)) 0
  have tail := foldl_count (List.range' (n / 8 * 8) (n - n / 8 * 8)) 0
  rw [List.length_range, Nat.zero_add] at lane
  rw [List.length_range', Nat.zero_add] at tail
  have sums :
      @dotProductUnrolled Nat countingOps wRow x n =
        (let lane := (List.range (n / 8)).foldl (fun count _ => count + 0 + 1) 0
        let half := lane + lane + 1 + lane + 1 + lane + 1
        half + half + 1 +
            (List.range' (n / 8 * 8) (n - n / 8 * 8)).foldl (fun count _ => count + 0 + 1) 0 +
          1) :=
    rfl
  rw [sums, lane, tail]
  dsimp only
  omega

/-- Only products that are too small for the pool do not depend on it. -/
theorem matmul_pool_independent_iff (threads : Nat) (positive : 0 < threads) (n d : Nat) :
    PoolIndependent threads positive n d ↔ d < 128 := by
  constructor
  · intro independent
    by_contra large
    have isRow : 0 < d := by omega
    have same := independent Nat countingOps (fun _ => 0) (fun _ => 0) (fun _ => 0) 0 isRow
    have pooled :=
      @matmul_pooled_apply Nat countingOps ⟨true, threads, positive⟩ rfl d
        (by omega) (fun _ => 0) (fun _ => 0) (fun _ => 0) n 0 isRow
    have alone :=
      @matmul_alone_apply Nat countingOps ⟨false, threads, positive⟩ rfl
        (fun _ => 0) (fun _ => 0) (fun _ => 0) n d 0 isRow
    rw [dotProductUnrolled_count] at pooled
    rw [dotProduct_count] at alone
    omega
  · intro small F ops xout x w i _
    rw [matmul_small ⟨true, threads, positive⟩ ⟨false, threads, positive⟩ small xout x w n]

theorem matmul_pool_independent_64 : PoolIndependent 4 (Nat.succ_pos 3) 8 64 :=
  (matmul_pool_independent_iff 4 (Nat.succ_pos 3) 8 64).mpr (by decide)

/-- Integers with the sums and products of `float`. -/
@[reducible]
def float32Ops : FloatOps Int where
  add left right := roundFloat32 (left + right)
  sub left right := roundFloat32 (left - right)
  mul left right := roundFloat32 (left * right)
  div left right := left / right
  neg value := -value
  ofBytes b0 b1 b2 b3 := b0.toNat + 2 ^ 8 * b1.toNat + 2 ^ 16 * b2.toNat + 2 ^ 24 * b3.toNat
  ofInt n := roundFloat32 n
  zero := 0
  one := 1
  epsilon := 1
  ropeBase := 10000
  greater left right := decide (left > right)
  sqrtf value := value.natAbs.sqrt
  expf value := value
  powf base _ := base
  cosf value := value
  sinf value := value

/-- Rows of `2 ^ 24` and seven ones: alone the ones are rounded away, one after
the other, and in the second half of the lanes four of them are added first. -/
theorem matmul_depends_on_pool :
    @matmul Int float32Ops ⟨true, 4, Nat.succ_pos 3⟩ (fun _ => 0)
        (fun _ => 1) (fun k => if k % 8 = 0 then 2 ^ 24 else 1) 8 128 0 =
        16777220 ∧
      @matmul Int float32Ops ⟨false, 4, Nat.succ_pos 3⟩ (fun _ => 0)
        (fun _ => 1) (fun k => if k % 8 = 0 then 2 ^ 24 else 1) 8 128 0 =
        16777216 ∧
      ¬ PoolIndependent 4 (Nat.succ_pos 3) 8 128 := by
  have pooled :=
    @matmul_pooled_apply Int float32Ops ⟨true, 4, Nat.succ_pos 3⟩ rfl 128
      (by decide) (fun _ => 0) (fun _ => 1)
      (fun k => if k % 8 = 0 then 2 ^ 24 else 1) 8 0 (by decide)
  have alone :=
    @matmul_alone_apply Int float32Ops ⟨false, 4, Nat.succ_pos 3⟩ rfl (fun _ => 0) (fun _ => 1)
      (fun k => if k % 8 = 0 then 2 ^ 24 else 1) 8 128 0 (by decide)
  have lanes :
      @dotProductUnrolled Int float32Ops
          (fun j => if (0 * 8 + j) % 8 = 0 then 2 ^ 24 else 1) (fun _ => 1)
          8 =
        16777220 := by
    decide +kernel
  have inOrder :
      @dotProduct Int float32Ops (fun j => if (0 * 8 + j) % 8 = 0 then 2 ^ 24 else 1) (fun _ => 1)
          8 =
        16777216 := by
    decide +kernel
  refine ⟨pooled.trans lanes, alone.trans inOrder, ?_⟩
  intro independent
  have same :=
    independent Int float32Ops (fun _ => 0) (fun _ => 1)
      (fun k => if k % 8 = 0 then 2 ^ 24 else 1) 0 (by decide)
  rw [pooled.trans lanes, alone.trans inOrder] at same
  exact absurd same (by decide)

end LlmRuntime.LlamaCore
