import LlmRuntime.Llama.LayerStage

/-!
# The kernels compute the stage

One lemma for each kernel says which cells it leaves behind, whatever was in its
buffers before, and from what it computes them.
-/

namespace LlmRuntime.LlamaCore

open Buffer Function

universe u

/-- Keys and values fit their rows, and so do the pairs that are rotated. -/
structure Geometry.RowsFit (p : Geometry) : Prop where
  heads : p.nHeads * p.headSize = p.dim
  headSize_pos : 0 < p.headSize
  dim_even : p.dim % 2 = 0
  kvDim_even : p.kvDim % 2 = 0
  kvDim_le : p.kvDim ≤ p.dim
  kvHead_le : ∀ h, h < p.nHeads → p.kvHead h + p.headSize ≤ p.kvDim

theorem le_partsOf_mul {total size : Nat} (positive : 0 < size) :
    total ≤ Llama.partsOf total size * size := by
  have division := Nat.div_add_mod (total + size - 1) size
  have remainder := Nat.mod_lt (total + size - 1) positive
  rw [Llama.partsOf, Nat.mul_comm]
  omega

theorem Pool.le_rowsPerThread (pool : Pool) (d : Nat) :
    d ≤ pool.threads * Llama.rowsPerThread pool.threads d := by
  have enough : d ≤ Llama.partsOf d pool.threads * pool.threads := le_partsOf_mul pool.positive
  have rounded : Llama.partsOf d pool.threads ≤ Llama.rowsPerThread pool.threads d := by
    rw [Llama.rowsPerThread]
    omega
  rw [Nat.mul_comm]
  exact enough.trans (Nat.mul_le_mul_right _ rounded)

theorem Pool.le_headsPerThread (pool : Pool) (nHeads : Nat) :
    nHeads ≤ pool.threads * Llama.partsOf nHeads pool.threads := by
  rw [Nat.mul_comm]
  exact le_partsOf_mul pool.positive

/-- The `break` of the loop that hands out is never taken. -/
theorem Pool.handOut_eq (pool : Pool) (total size : Nat) :
    pool.handOut total size =
      (List.range (min (Llama.partsOf total size) pool.threads)).map
        fun t => (t * size, min (t * size + size) total) := by
  rw [handOut, List.takeWhile_eq_self_iff]
  intro item isItem
  obtain ⟨t, isActive, rfl⟩ := List.mem_map.mp isItem
  rw [decide_eq_true_eq]
  apply Llama.mul_lt_of_lt_partsOf
  exact Nat.lt_of_lt_of_le (List.mem_range.mp isActive) (Nat.min_le_left _ _)

theorem Pool.flatMap_handOut
    (pool : Pool) {total size : Nat} (covered : total ≤ pool.threads * size) :
    (pool.handOut total size).flatMap
        (fun item => List.range' item.1 (item.2 - item.1)) =
      List.range total := by
  have enough : total ≤ min (Llama.partsOf total size) pool.threads * size := by
    rcases Nat.eq_zero_or_pos size with isZero | positive
    · rw [isZero, Nat.mul_zero] at covered ⊢
      exact covered
    · rcases min_choice (Llama.partsOf total size) pool.threads with
        isParts | isThreads
      · rw [isParts]
        exact le_partsOf_mul positive
      · rw [isThreads]
        exact covered
  rw [handOut_eq, List.flatMap_map]
  exact flatMap_block enough

section Kernels

variable {F : Type u} [FloatOps F]

variable {given x other w : Nat → F} {n size d : Nat} {pool : Pool}

theorem rmsScale_congr (same : Agree size x other) : rmsScale x size = rmsScale other size := by
  have sums :
      (List.range size).foldl (fun ss j => ss + x j * x j) FloatOps.zero =
        (List.range size).foldl (fun ss j => ss + other j * other j) FloatOps.zero := by
    apply List.foldl_ext
    intro ss j inside
    rw [same j (List.mem_range.mp inside)]
  rw [rmsScale, rmsScale, sums]

theorem rmsnorm_agree {weight : Nat → F} (same : Agree size x other)
    (sameWeight : Agree size weight given) (o : Nat → F) :
    Agree size (rmsnorm o x weight size) (normalized given other size) := by
  intro j inside
  rw [rmsnorm, replaceEach_range inside, normalized, rmsScale_congr same,
    same j inside, sameWeight j inside]

theorem dotProduct_congr (sameRow : Agree n w given)
    (same : Agree n x other) : dotProduct w x n = dotProduct given other n := by
  apply List.foldl_ext
  intro val j inside
  rw [sameRow j (List.mem_range.mp inside), same j (List.mem_range.mp inside)]

theorem dotProductUnrolled_congr (sameRow : Agree n w given) (same : Agree n x other) :
    dotProductUnrolled w x n = dotProductUnrolled given other n := by
  have lanes (lane : Nat) (isLane : lane < 8) :
      (List.range (n / 8)).foldl
          (fun sum k => sum + w (8 * k + lane) * x (8 * k + lane))
          FloatOps.zero =
        (List.range (n / 8)).foldl
          (fun sum k => sum + given (8 * k + lane) * other (8 * k + lane))
          FloatOps.zero := by
    apply List.foldl_ext
    intro sum k isBlock
    have inside : 8 * k + lane < n := by
      have below := List.mem_range.mp isBlock
      omega
    rw [sameRow _ inside, same _ inside]
  have tails :
      (List.range' (n / 8 * 8) (n - n / 8 * 8)).foldl
          (fun sum j => sum + w j * x j) FloatOps.zero =
        (List.range' (n / 8 * 8) (n - n / 8 * 8)).foldl
          (fun sum j => sum + given j * other j) FloatOps.zero := by
    apply List.foldl_ext
    intro sum j isTail
    have inside : j < n := by
      have bounds := List.mem_range'_1.mp isTail
      omega
    rw [sameRow j inside, same j inside]
  rw [dotProductUnrolled, dotProductUnrolled]
  dsimp only
  rw [lanes 0 (by omega), lanes 1 (by omega), lanes 2 (by omega), lanes 3 (by omega),
    lanes 4 (by omega), lanes 5 (by omega), lanes 6 (by omega), lanes 7 (by omega), tails]

theorem rowDot_congr {pooled : Bool} (sameRow : Agree n w given) (same : Agree n x other) :
    rowDot pooled w x n = rowDot pooled given other n := by
  cases pooled with
  | false => exact dotProduct_congr sameRow same
  | true => exact dotProductUnrolled_congr sameRow same

/-- Both paths of `matmul` go through the rows once each. -/
theorem matmul_eq (pool : Pool) (xout x w : Nat → F) (n d : Nat) :
    matmul pool xout x w n d =
      replaceEach (List.range d) (fun i _ => linear pool w x n d i) xout := by
  rw [matmul]
  split_ifs with taken
  · rw [foldl_replaceEach, pool.flatMap_handOut (pool.le_rowsPerThread d)]
    simp only [linear, taken]
  · rw [Bool.not_eq_true] at taken
    simp only [linear, taken]

theorem matmul_outside {i : Nat} (outside : d ≤ i) (xout x w : Nat → F) :
    matmul pool xout x w n d i = xout i := by
  rw [matmul_eq, replaceEach_range_outside outside]

theorem linear_congr {reference : Pool} {i : Nat} (order : pool.takes d = reference.takes d)
    (inside : i < d) (same : Agree n x other) (sameWeight : Agree (d * n) w given) :
    linear pool w x n d i = linear reference given other n d i := by
  rw [linear, linear, order]
  apply rowDot_congr _ same
  intro j isColumn
  apply sameWeight
  calc
    i * n + j < i * n + n := by omega
    _ = (i + 1) * n := by rw [Nat.succ_mul]
    _ ≤ d * n := Nat.mul_le_mul_right n inside

theorem matmul_agree {reference : Pool} (order : pool.takes d = reference.takes d)
    (same : Agree n x other) (sameWeight : Agree (d * n) w given) (xout : Nat → F) :
    Agree d (matmul pool xout x w n d) (linear reference given other n d) := by
  intro i inside
  rw [matmul_eq, replaceEach_range inside, linear_congr order inside same sameWeight]

/-- The greatest cell, as the first loop of `softmax` finds it. -/
def softmaxMax (x : Nat → F) (size : Nat) : F :=
  (List.range' 1 (size - 1)).foldl
    (fun maxVal i => if FloatOps.greater (x i) maxVal then x i else maxVal)
    (x 0)

def softmaxSum (x : Nat → F) (maxVal : F) (size : Nat) : F :=
  (List.range size).foldl (fun sum i => sum + FloatOps.expf (x i - maxVal)) FloatOps.zero

/-- The loop that replaces the cells by their exponentials and adds them up:
after `count` cells the rest is as it was. -/
theorem softmaxLoop_eq (x : Nat → F) (maxVal : F) (count : Nat) :
    (List.range count).foldl
        (fun (state : (Nat → F) × F) i =>
          (update state.1 i (FloatOps.expf (state.1 i - maxVal)),
            state.2 + update state.1 i (FloatOps.expf (state.1 i - maxVal)) i))
        (x, FloatOps.zero) =
      (replaceEach (List.range count)
          (fun _ value => FloatOps.expf (value - maxVal)) x,
        softmaxSum x maxVal count) := by
  induction count with
  | zero => rfl
  | succ count ih =>
    rw [List.range_succ, List.foldl_append, ih, replaceEach_append,
      softmaxSum, softmaxSum, List.range_succ, List.foldl_append]
    simp only [List.foldl_cons, List.foldl_nil, update_self,
      replaceEach_cons, replaceEach_nil, replaceEach_range_outside le_rfl]

theorem softmax_apply (x : Nat → F) {i : Nat} (inside : i < size) :
    softmax x size i =
      FloatOps.expf (x i - softmaxMax x size) / softmaxSum x (softmaxMax x size) size := by
  have loop := softmaxLoop_eq x (softmaxMax x size) size
  rw [softmax]
  dsimp only
  rw [softmaxMax] at loop
  rw [loop]
  dsimp only
  rw [replaceEach_range inside, replaceEach_range inside]
  rfl

theorem softmax_outside (x : Nat → F) {i : Nat} (outside : size ≤ i) : softmax x size i = x i := by
  have loop := softmaxLoop_eq x (softmaxMax x size) size
  rw [softmax]
  dsimp only
  rw [softmaxMax] at loop
  rw [loop]
  dsimp only
  rw [replaceEach_range_outside outside, replaceEach_range_outside outside]

theorem softmax_agree (same : Agree size x other) :
    Agree size (softmax x size) (softmax other size) := by
  intro i inside
  have sameMax : softmaxMax x size = softmaxMax other size := by
    rw [softmaxMax, softmaxMax, same 0 (by omega)]
    apply List.foldl_ext
    intro maxVal j isLater
    have isCell : j < size := by
      have bounds := List.mem_range'_1.mp isLater
      omega
    rw [same j isCell]
  have sameSum (maxVal : F) : softmaxSum x maxVal size = softmaxSum other maxVal size := by
    apply List.foldl_ext
    intro sum j isCell
    rw [same j (List.mem_range.mp isCell)]
  rw [softmax_apply x inside, softmax_apply other inside, sameMax, sameSum, same i inside]

/-! ## Attention -/

section Heads

variable (p : Geometry) (layer pos : Nat)

def cachedRow (s : RunState F) (t : Nat) : KvRow F where
  key := fun j => s.keyCache (p.kvRow layer t + j)
  value := fun j => s.valueCache (p.kvRow layer t + j)

def cachedRows (s : RunState F) (count : Nat) : List (KvRow F) :=
  (List.range count).map (cachedRow p layer s)

omit [FloatOps F] in
theorem cachedRows_length (s : RunState F) (count : Nat) :
    (cachedRows p layer s count).length = count := by
  rw [cachedRows, List.length_map, List.length_range]

variable {t h : Nat}

theorem rowAt_cachedRows (s : RunState F) {count : Nat} (inside : t < count) :
    rowAt (cachedRows p layer s count) t = cachedRow p layer s t := by
  simp [rowAt, cachedRows, inside]

theorem headWeights_apply (s : RunState F) (h : Nat) (att : Nat → F) (inside : t < pos + 1) :
    headWeights p (fun i => s.q (h * p.headSize + i))
        (fun i =>
          s.keyCache (layer * p.seqLen * p.kvDim + p.kvHead h + i))
        pos att t =
      attentionWeights p s.q (cachedRows p layer s (pos + 1)) h t := by
  rw [headWeights, attentionWeights, cachedRows_length]
  apply softmax_agree _ t inside
  intro t isEarlier
  have sameKeys :
      (fun i =>
        s.keyCache (layer * p.seqLen * p.kvDim + p.kvHead h + (t * p.kvDim + i))) =
        fun i => s.keyCache (p.kvRow layer t + (p.kvHead h + i)) := by
    funext i
    congr 1
    rw [Geometry.kvRow]
    omega
  dsimp only
  rw [replaceEach_range isEarlier, rowAt_cachedRows p layer s isEarlier, sameKeys]
  rfl

theorem attentionHead_xb (s : RunState F) (h : Nat) {i : Nat} (inside : i < p.headSize) :
    (attentionHead p layer pos s h).xb (h * p.headSize + i) =
      attendedCell p s.q (cachedRows p layer s (pos + 1)) h i := by
  rw [attentionHead]
  dsimp only
  rw [fromOffset_add, headSum, foldl_passes _ inside,
    replaceEach_range inside, attendedCell, cachedRows_length]
  apply List.foldl_ext
  intro sum t isEarlier
  rw [List.mem_range] at isEarlier
  rw [fromOffset_add, headWeights_apply p layer pos s h _ isEarlier,
    rowAt_cachedRows p layer s isEarlier, cachedRow, Geometry.kvRow]
  congr 3
  omega

theorem attentionHead_xb_other (s : RunState F) {m : Nat}
    (other : m < h * p.headSize ∨ h * p.headSize + p.headSize ≤ m) :
    (attentionHead p layer pos s h).xb m = s.xb m := by
  apply fromOffset_outside _ other
  intro j behind
  rw [headSum, foldl_passes_outside _ behind, replaceEach_range_outside behind]

theorem attentionHead_att (s : RunState F) (h : Nat) (inside : t < pos + 1) :
    (attentionHead p layer pos s h).att (h * p.seqLen + t) =
      attentionWeights p s.q (cachedRows p layer s (pos + 1)) h t := by
  rw [attentionHead]
  dsimp only
  rw [fromOffset_add, headWeights_apply p layer pos s h _ inside]

theorem attentionHead_att_other (s : RunState F) {m : Nat}
    (other : m < h * p.seqLen ∨ h * p.seqLen + (pos + 1) ≤ m) :
    (attentionHead p layer pos s h).att m = s.att m := by
  apply fromOffset_outside _ other
  intro j behind
  rw [headWeights, softmax_outside _ behind, replaceEach_range_outside behind]

theorem foldl_attentionHead_keeps (heads : List Nat) (s : RunState F) :
    (heads.foldl (attentionHead p layer pos) s).q = s.q ∧
      (heads.foldl (attentionHead p layer pos) s).keyCache = s.keyCache ∧
      (heads.foldl (attentionHead p layer pos) s).valueCache = s.valueCache := by
  induction heads generalizing s with
  | nil => exact ⟨rfl, rfl, rfl⟩
  | cons h rest ih => exact ih (attentionHead p layer pos s h)

theorem headParts_apart (size : Nat) {first second : Nat} (different : first ≠ second) :
    first * size + size ≤ second * size ∨
      second * size + size ≤ first * size := by
  rcases Nat.lt_or_gt_of_ne different with below | above
  · have steps := Nat.mul_le_mul_right size below
    rw [Nat.succ_mul] at steps
    exact .inl steps
  · have steps := Nat.mul_le_mul_right size above
    rw [Nat.succ_mul] at steps
    exact .inr steps

/-- What the heads read and none of them writes. -/
structure SameInputs (s now : RunState F) : Prop where
  q : now.q = s.q
  keyCache : now.keyCache = s.keyCache
  valueCache : now.valueCache = s.valueCache

omit [FloatOps F] in
theorem SameInputs.cachedRows {p : Geometry} {layer count : Nat}
    {s now : RunState F} (same : SameInputs s now) :
    cachedRows p layer now count = cachedRows p layer s count := by
  have isRow : cachedRow p layer now = cachedRow p layer s := by
    funext t
    rw [cachedRow, cachedRow, same.keyCache, same.valueCache]
  rw [LlamaCore.cachedRows, LlamaCore.cachedRows, isRow]

theorem foldl_attentionHead_xb {heads : List Nat} {i : Nat} (isHead : h ∈ heads)
    (inside : i < p.headSize) (s : RunState F) :
    (heads.foldl (attentionHead p layer pos) s).xb (h * p.headSize + i) =
      attendedCell p s.q (cachedRows p layer s (pos + 1)) h i := by
  apply foldl_cell_of_owner (fun now => now.xb (h * p.headSize + i)) (SameInputs s)
  · intro now other same
    exact ⟨same.q, same.keyCache, same.valueCache⟩
  · intro now same
    rw [attentionHead_xb p layer pos now h inside, same.cachedRows, same.q]
  · intro now other isOther different
    apply attentionHead_xb_other
    have apart := headParts_apart p.headSize different
    omega
  · exact isHead
  · exact ⟨rfl, rfl, rfl⟩

/-- With the pool or without, all heads are computed once each. -/
theorem multiheadAttention_eq (pool : Pool) (s : RunState F) :
    multiheadAttention pool p layer pos s =
      (List.range p.nHeads).foldl (attentionHead p layer pos) s := by
  have covered := pool.le_headsPerThread p.nHeads
  rw [multiheadAttention]
  split_ifs with alone
  · rw [List.range_eq_range']
    rfl
  · rw [← pool.flatMap_handOut covered, List.foldl_flatMap]
    rfl

end Heads

/-- The same key and value, as far as they are read. -/
structure KvRow.Agrees (p : Geometry) (row other : KvRow F) : Prop where
  key : Agree p.kvDim row.key other.key
  value : Agree p.kvDim row.value other.value

omit [FloatOps F] in
theorem KvRow.Agrees.trans {p : Geometry} {row middle other : KvRow F} (first : row.Agrees p middle)
    (second : middle.Agrees p other) : row.Agrees p other :=
  ⟨first.key.trans second.key, first.value.trans second.value⟩

/-- The same rows, as far as they are read. -/
structure RowsAgree (p : Geometry) (rows other : List (KvRow F)) : Prop where
  length : rows.length = other.length
  row : ∀ t, t < rows.length → (rowAt rows t).Agrees p (rowAt other t)

theorem attendedCell_congr {p : Geometry} (fit : p.RowsFit) {q : Nat → F}
    (sameQuery : Agree p.dim q given) {rows other : List (KvRow F)} (same : RowsAgree p rows other)
    {h i : Nat} (isHead : h < p.nHeads) (inside : i < p.headSize) :
    attendedCell p q rows h i = attendedCell p given other h i := by
  have partFits := fit.kvHead_le h isHead
  have queryFits : h * p.headSize + p.headSize ≤ p.dim := by
    rw [← fit.heads, ← Nat.succ_mul]
    exact Nat.mul_le_mul_right _ isHead
  have sameWeights :
      Agree rows.length (attentionWeights p q rows h) (attentionWeights p given other h) := by
    rw [attentionWeights, attentionWeights, ← same.length]
    apply softmax_agree
    intro t isRow
    dsimp only
    congr 1
    apply dotProductUnrolled_congr
    · intro j isCell
      exact sameQuery _ (by omega)
    · intro j isCell
      exact (same.row t isRow).key _ (by omega)
  rw [attendedCell, attendedCell, ← same.length]
  apply List.foldl_ext
  intro sum t isRow
  rw [List.mem_range] at isRow
  rw [sameWeights t isRow, (same.row t isRow).value _ (by omega)]

theorem multiheadAttention_agree {p : Geometry} (fit : p.RowsFit) (pool : Pool) (layer pos : Nat)
    {s : RunState F} (sameQuery : Agree p.dim s.q given) {rows : List (KvRow F)}
    (same : RowsAgree p (cachedRows p layer s (pos + 1)) rows) :
    Agree p.dim (multiheadAttention pool p layer pos s).xb (attended p given rows) := by
  intro m inside
  have isHead : m / p.headSize < p.nHeads := by
    rw [Nat.div_lt_iff_lt_mul fit.headSize_pos, fit.heads]
    exact inside
  have isCell := Nat.mod_lt m fit.headSize_pos
  have isIndex : m / p.headSize * p.headSize + m % p.headSize = m := by
    rw [Nat.mul_comm]
    exact Nat.div_add_mod m p.headSize
  have computed := foldl_attentionHead_xb p layer pos (List.mem_range.mpr isHead) isCell s
  rw [isIndex] at computed
  rw [multiheadAttention_eq, computed, attended]
  exact attendedCell_congr fit sameQuery same isHead isCell

def rotatePairs (p : Geometry) (pos count : Nat) (vec : Nat → F) : Nat → F :=
  (List.range count).foldl (fun vec m => rotatePair (ropeAngle p pos (2 * m)) (2 * m) vec) vec

theorem rotatePairs_succ (p : Geometry) (pos count : Nat) (vec : Nat → F) :
    rotatePairs p pos (count + 1) vec =
      rotatePair (ropeAngle p pos (2 * count)) (2 * count) (rotatePairs p pos count vec) := by
  rw [rotatePairs, List.range_succ, List.foldl_append]
  rfl

theorem rotatePairs_outside (p : Geometry) (pos : Nat) {count i : Nat} (outside : 2 * count ≤ i)
    (vec : Nat → F) : rotatePairs p pos count vec i = vec i := by
  induction count with
  | zero => rfl
  | succ count ih =>
    rw [rotatePairs_succ, rotatePair, update_of_ne (by omega),
      update_of_ne (by omega), ih (by omega)]

theorem rotatePairs_inside (p : Geometry) (pos : Nat) {count i : Nat}
    (inside : i < 2 * count) (vec : Nat → F) :
    rotatePairs p pos count vec i = rotated p pos vec i := by
  induction count with
  | zero => omega
  | succ count ih =>
    rw [rotatePairs_succ, rotatePair, rotatePairs_outside p pos le_rfl,
      rotatePairs_outside p pos (Nat.le_succ _)]
    by_cases isSecond : i = 2 * count + 1
    · have isPair : i / 2 = count := by omega
      rw [isSecond, update_self, rotated, ← isSecond, isPair, if_neg (by omega)]
    · rw [update_of_ne isSecond]
      by_cases isFirst : i = 2 * count
      · have isPair : i / 2 = count := by omega
        rw [isFirst, update_self, rotated, ← isFirst, isPair, if_pos isFirst, ← isFirst]
      · rw [update_of_ne isFirst, ih (by omega)]

theorem rotated_congr {p : Geometry} {pos : Nat} (even : n % 2 = 0)
    {vec : Nat → F} (same : Agree n vec given) :
    Agree n (rotated p pos vec) (rotated p pos given) := by
  intro i inside
  have first : 2 * (i / 2) < n := by omega
  have second : 2 * (i / 2) + 1 < n := by omega
  rw [rotated, rotated, same _ first, same _ second]

section Rope

variable {p : Geometry} (row pos : Nat) (s : RunState F)

theorem rope_q : (rope p row pos s).q = rotatePairs p pos ((p.dim + 1) / 2) s.q := by
  rw [rope, rotatePairs]
  symm
  apply List.foldl_hom RunState.q
  intro s m
  rfl

theorem rope_valueCache : (rope p row pos s).valueCache = s.valueCache := by
  rw [rope]
  induction List.range ((p.dim + 1) / 2) generalizing s with
  | nil => rfl
  | cons m rest ih => rw [List.foldl_cons, ih]

theorem rope_keyCache (even : p.kvDim % 2 = 0) (fits : p.kvDim ≤ p.dim) :
    (rope p row pos s).keyCache = fromOffset row (rotatePairs p pos (p.kvDim / 2)) s.keyCache := by
  have loop (count : Nat) :
      (List.range count).foldl
          (fun cache m =>
            if 2 * m < p.kvDim then
              fromOffset row (rotatePair (ropeAngle p pos (2 * m)) (2 * m)) cache
            else cache)
          s.keyCache =
        fromOffset row (rotatePairs p pos (min count (p.kvDim / 2))) s.keyCache := by
    induction count with
    | zero =>
      rw [Nat.zero_min]
      exact (fromOffset_id row s.keyCache).symm
    | succ count ih =>
      rw [List.range_succ, List.foldl_append, ih, List.foldl_cons, List.foldl_nil]
      split_ifs with isKey
      · have isNext :
            min (count + 1) (p.kvDim / 2) = min count (p.kvDim / 2) + 1 := by
          omega
        have isCount : min count (p.kvDim / 2) = count := by omega
        rw [fromOffset_fromOffset, isNext, isCount]
        congr 1
        funext buf
        rw [rotatePairs_succ]
      · have isLast :
            min (count + 1) (p.kvDim / 2) = min count (p.kvDim / 2) := by
          omega
        rw [isLast]
  have allPairs : min ((p.dim + 1) / 2) (p.kvDim / 2) = p.kvDim / 2 := by omega
  have reached := loop ((p.dim + 1) / 2)
  rw [allPairs] at reached
  rw [← reached, rope]
  symm
  apply List.foldl_hom RunState.keyCache
  intro s m
  rfl

end Rope

end Kernels

end LlmRuntime.LlamaCore
