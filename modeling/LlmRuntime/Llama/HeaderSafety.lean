import LlmRuntime.Library.MachineInt
import LlmRuntime.Llama.Checkpoint

/-!
# What an accepted header makes the kernels do

Here `malloc_run_state`, `llama_block` and `worker_do_attention` are runs that
fault when an `int` overflows or a divisor is zero, and that list the cells of
the run state they touch.  An index into `k` or `v` is counted from the start of
the cache.
-/

namespace LlmRuntime.LlamaCore

open DistInf MachineInt

/-- `sh->local`, which the kernels of a shard are called with. -/
def shardLocal (cfg : Config) (assignment : AssignLayers) : Config :=
  { cfg with
    nLayers := asInt assignment.layerEnd - asInt assignment.layerStart
    seqLen := shardSeqLen cfg assignment }

/-- The `int` values that `malloc_run_state` passes to `calloc`. -/
def runStateSizes (p : Config) : Except IntFault (List Int) := do
  let kvDim ← divInt (← mulInt p.dim p.nKvHeads) p.nHeads
  let keyCache ← mulInt (← mulInt p.nLayers p.seqLen) kvDim
  let valueCache ← mulInt (← mulInt p.nLayers p.seqLen) kvDim
  let att ← mulInt p.nHeads p.seqLen
  return [p.dim, p.dim, p.dim, p.hiddenDim, p.hiddenDim, p.dim, keyCache,
    valueCache, att, p.vocabSize]

def runStateProducts (p : Config) : List Int :=
  let kvDim := p.dim * p.nKvHeads / p.nHeads
  [p.dim, p.dim, p.dim, p.hiddenDim, p.hiddenDim, p.dim,
    p.nLayers * p.seqLen * kvDim, p.nLayers * p.seqLen * kvDim,
    p.nHeads * p.seqLen, p.vocabSize]

/-- The sizes are computed without overflow, and `calloc` gets them. -/
structure SizesExact (p : Config) : Prop where
  computed : runStateSizes p = .ok (runStateProducts p)
  passed : (runStateCounts p).map (fun num => (num.toNat : Int)) = runStateProducts p

/-- The buffers of `RunState`, in the order of their allocation. -/
inductive RunBuffer where
  | x
  | xb
  | xb2
  | hb
  | hb2
  | q
  | keyCache
  | valueCache
  | att
  | logits
  deriving DecidableEq, Repr

structure Access where
  buffer : RunBuffer
  index : Int
  deriving DecidableEq, Repr

/-- The floats of a buffer, by what `calloc` was asked for. -/
def allocated (p : Config) (buffer : RunBuffer) : Nat :=
  ((runStateCounts p).getD buffer.ctorIdx 0).toNat

def InBounds (p : Config) (access : Access) : Prop :=
  0 ≤ access.index ∧ access.index < allocated p access.buffer

def cells (buffer : RunBuffer) (start size : Int) : List Access :=
  (List.range size.toNat).map fun i : Nat => ⟨buffer, start + i⟩

/-- Where a head finds its part of the key or value of position `t`. -/
def cachedPart (headSize kvDim kvMul loff h t : Int) :
    Except IntFault Int := do
  let row ← mulInt t kvDim
  let part ← mulInt (← divInt h kvMul) headSize
  return loff + row + part

/-- One head of `worker_do_attention`. -/
def attentionHeadAccesses (p : Config) (headSize kvDim kvMul loff pos h : Int) :
    Except IntFault (List Access) := do
  let q ← mulInt h headSize
  let att ← mulInt h p.seqLen
  let xb ← mulInt h headSize
  andThen
    (forEach (List.range (pos + 1).toNat) fun t => do
      let k ← cachedPart headSize kvDim kvMul loff h t
      return cells .q q headSize ++ cells .keyCache k headSize ++ cells .att (att + t) 1)
    (andThen (.ok (cells .att att (pos + 1) ++ cells .xb xb headSize))
      (forEach (List.range (pos + 1).toNat) fun t => do
        let v ← cachedPart headSize kvDim kvMul loff h t
        return cells .att (att + t) 1 ++ cells .valueCache v headSize ++ cells .xb xb headSize))

def workerDoAttentionAccesses (p : Config) (layer pos : Int) (item : Nat × Nat) :
    Except IntFault (List Access) := do
  let headSize ← divInt p.dim p.nHeads
  let kvDim ← divInt (← mulInt p.dim p.nKvHeads) p.nHeads
  let kvMul ← divInt p.nHeads p.nKvHeads
  let loff ← mulInt (← mulInt layer p.seqLen) kvDim
  forEach (List.range' item.1 (item.2 - item.1)) fun h =>
    attentionHeadAccesses p headSize kvDim kvMul loff pos h

def multiheadAttentionAccesses (pool : Pool) (p : Config) (layer pos : Int) :
    Except IntFault (List Access) :=
  if pos < 32 ∨ ¬ pool.initialized then workerDoAttentionAccesses p layer pos (0, p.nHeads.toNat)
  else
    forEach (pool.handOut p.nHeads.toNat (Llama.partsOf p.nHeads.toNat pool.threads))
      (workerDoAttentionAccesses p layer pos)

/-- The pairs that `llama_block` rotates, in `q` and in the key at `k`. -/
def ropeAccesses (p : Config) (headSize kvDim k : Int) : Except IntFault (List Access) :=
  forEach (List.range ((p.dim.toNat + 1) / 2)) fun m => do
    let i : Int := 2 * m
    let _headDim ← modInt i headSize
    return cells .q i 2 ++
      if i < kvDim then cells .keyCache (k + i) 2 else []

def llamaBlockAccesses (pool : Pool) (p : Config) (kvLayer pos : Int) :
    Except IntFault (List Access) := do
  let kvDim ← divInt (← mulInt p.dim p.nKvHeads) p.nHeads
  let headSize ← divInt p.dim p.nHeads
  let loff ← mulInt (← mulInt kvLayer p.seqLen) kvDim
  let row ← mulInt pos kvDim
  let k := loff + row
  let v := loff + row
  andThen
    (.ok (cells .xb 0 p.dim ++ cells .q 0 p.dim ++
      cells .keyCache k kvDim ++ cells .valueCache v kvDim))
    (andThen (ropeAccesses p headSize kvDim k)
      (andThen (multiheadAttentionAccesses pool p kvLayer pos)
        (.ok (cells .xb2 0 p.dim ++ cells .xb 0 p.dim ++
          cells .hb 0 p.hiddenDim ++ cells .hb2 0 p.hiddenDim))))

def shardForwardAccesses (pool : Pool) (p : Config) (pos : Int) : Except IntFault (List Access) :=
  forEach (List.range p.nLayers.toNat) fun index =>
    llamaBlockAccesses pool p index pos

/-- The sizes are right, and a pass over the layers of the shard has no fault
and stays inside of the buffers. -/
structure SafeToRun (pool : Pool) (p : Config) (pos : Int) : Prop where
  sizes : SizesExact p
  kernels : SafeRun (InBounds p) (shardForwardAccesses pool p pos)

/-- What the header check leaves open. -/
structure RunnableAt (p : Config) (pos : Int) : Prop where
  grouped : p.nKvHeads ≤ p.nHeads
  sharedVocab : 0 < p.vocabSize
  keyProduct : p.dim * p.nKvHeads < 2 ^ 31
  cache : p.nLayers * p.seqLen * (p.dim * p.nKvHeads / p.nHeads) < 2 ^ 31
  scores : p.nHeads * p.seqLen < 2 ^ 31
  queryPairs : 2 ∣ p.dim
  keyPairs : 2 ∣ p.dim * p.nKvHeads / p.nHeads ∨ pos + 1 < p.seqLen
  groups : (p.nHeads - 1) / (p.nHeads / p.nKvHeads) + 1 ≤ (p.seqLen - pos) * p.nKvHeads

/-- The fields of a `Config` as natural numbers. -/
structure DescribedBy (own : Config) (p : Geometry) : Prop where
  dim : own.dim = p.dim
  hiddenDim : own.hiddenDim = p.hiddenDim
  nLayers : own.nLayers = p.nLayers
  nHeads : own.nHeads = p.nHeads
  nKvHeads : own.nKvHeads = p.nKvHeads
  seqLen : own.seqLen = p.seqLen
  isPlausible : p.Plausible
  dimSmall : p.dim < 2 ^ 31
  hiddenSmall : p.hiddenDim < 2 ^ 31

/-- The products of the fields fit an `int` as well. -/
structure SizedAs (own : Config) (p : Geometry) : Prop extends DescribedBy own p where
  keyProduct : p.dim * p.nKvHeads < 2 ^ 31
  cache : p.nLayers * p.seqLen * p.kvDim < 2 ^ 31
  scores : p.nHeads * p.seqLen < 2 ^ 31

/-- The floats of the buffers that the kernels of a layer use. -/
def Geometry.floats (p : Geometry) : RunBuffer → Nat
  | .x | .xb | .xb2 | .q => p.dim
  | .hb | .hb2 => p.hiddenDim
  | .keyCache | .valueCache => p.nLayers * p.seqLen * p.kvDim
  | .att => p.nHeads * p.seqLen
  | .logits => p.vocabSize

def Geometry.sizes (p : Geometry) (vocabSize : Int) : List Int :=
  [p.dim, p.dim, p.dim, p.hiddenDim, p.hiddenDim, p.dim,
    (p.nLayers * p.seqLen * p.kvDim : Nat),
    (p.nLayers * p.seqLen * p.kvDim : Nat), (p.nHeads * p.seqLen : Nat),
    vocabSize]

namespace SizedAs

variable {own : Config} {p : Geometry} (sized : SizedAs own p)

include sized

theorem kvDim_pos : 0 < p.kvDim := by
  rw [← sized.isPlausible.kvDim_eq]
  exact Nat.mul_pos sized.isPlausible.headSize_pos sized.isPlausible.nKvHeads

theorem nHeads_lt : p.nHeads < 2 ^ 31 :=
  (Nat.le_of_dvd sized.isPlausible.dim sized.isPlausible.divides).trans_lt sized.dimSmall

theorem headSize_ok : divInt own.dim own.nHeads = .ok (p.headSize : Int) := by
  rw [sized.dim, sized.nHeads, divInt_natCast sized.isPlausible.nHeads sized.dimSmall]
  rfl

theorem keyProduct_ok : mulInt own.dim own.nKvHeads = .ok ((p.dim * p.nKvHeads : Nat) : Int) := by
  rw [sized.dim, sized.nKvHeads, mulInt_natCast sized.keyProduct]

theorem kvDim_ok : divInt ((p.dim * p.nKvHeads : Nat) : Int) own.nHeads = .ok (p.kvDim : Int) := by
  rw [sized.nHeads, divInt_natCast sized.isPlausible.nHeads sized.keyProduct]
  rfl

theorem kvMul_ok : divInt own.nHeads own.nKvHeads = .ok (p.kvMul : Int) := by
  rw [sized.nHeads, sized.nKvHeads, divInt_natCast sized.isPlausible.nKvHeads sized.nHeads_lt]
  rfl

theorem layerRows_ok {l : Nat} (isLayer : l ≤ p.nLayers) :
    mulInt (l : Int) own.seqLen = .ok ((l * p.seqLen : Nat) : Int) := by
  have rows : l * p.seqLen ≤ p.nLayers * p.seqLen := Nat.mul_le_mul_right _ isLayer
  have floats : p.nLayers * p.seqLen ≤ p.nLayers * p.seqLen * p.kvDim :=
    Nat.le_mul_of_pos_right _ sized.kvDim_pos
  rw [sized.seqLen]
  exact mulInt_natCast ((rows.trans floats).trans_lt sized.cache)

theorem layerOffset_ok {l : Nat} (isLayer : l ≤ p.nLayers) :
    mulInt ((l * p.seqLen : Nat) : Int) (p.kvDim : Int) =
      .ok ((l * p.seqLen * p.kvDim : Nat) : Int) := by
  apply mulInt_natCast
  exact (Nat.mul_le_mul_right _ (Nat.mul_le_mul_right _ isLayer)).trans_lt sized.cache

theorem row_ok {t : Nat} (isPosition : t ≤ p.seqLen) :
    mulInt (t : Int) (p.kvDim : Int) = .ok ((t * p.kvDim : Nat) : Int) := by
  apply mulInt_natCast
  have rows : t ≤ p.nLayers * p.seqLen :=
    isPosition.trans (Nat.le_mul_of_pos_left _ sized.isPlausible.nLayers)
  exact (Nat.mul_le_mul_right _ rows).trans_lt sized.cache

theorem runStateSizes_eq : runStateSizes own = .ok (p.sizes own.vocabSize) := by
  have rows := sized.layerRows_ok le_rfl
  have scores : mulInt own.nHeads own.seqLen = .ok ((p.nHeads * p.seqLen : Nat) : Int) := by
    rw [sized.nHeads, sized.seqLen, mulInt_natCast sized.scores]
  rw [← sized.nLayers] at rows
  rw [runStateSizes, sized.keyProduct_ok, ok_bind, sized.kvDim_ok, ok_bind, rows, ok_bind,
    sized.layerOffset_ok le_rfl, ok_bind, ok_bind, sized.layerOffset_ok le_rfl, ok_bind, scores,
    ok_bind, sized.dim, sized.hiddenDim]
  rfl

theorem runStateProducts_eq : runStateProducts own = p.sizes own.vocabSize := by
  have kvDim : (p.dim : Int) * (p.nKvHeads : Int) / (p.nHeads : Int) = (p.kvDim : Int) := by
    rw [← Int.natCast_mul, ← Int.natCast_ediv]
    rfl
  simp only [runStateProducts, sized.dim, sized.hiddenDim, sized.nLayers, sized.nHeads,
    sized.nKvHeads, sized.seqLen, kvDim, Geometry.sizes, Int.natCast_mul]

theorem runStateCounts_eq : runStateCounts own = (p.sizes own.vocabSize).map UInt32.ofInt := by
  have kvDim :
      Int.tdiv (int32 ((p.dim : Int) * (p.nKvHeads : Int))) (p.nHeads : Int) = (p.kvDim : Int) := by
    rw [int32_mul sized.keyProduct, ← Int.ofNat_tdiv]
    rfl
  simp only [runStateCounts, sized.dim, sized.hiddenDim, sized.nLayers, sized.nHeads,
    sized.nKvHeads, sized.seqLen, kvDim, Geometry.sizes, Int.natCast_mul]

theorem allocated_eq {buffer : RunBuffer} (inLayer : buffer ≠ .logits) :
    allocated own buffer = p.floats buffer := by
  have dim := sized.dimSmall
  have hidden := sized.hiddenSmall
  have cache := sized.cache
  have scores := sized.scores
  rw [allocated, sized.runStateCounts_eq]
  cases buffer with
  | logits => exact absurd rfl inLayer
  | x | xb | xb2 | q | hb | hb2 | keyCache | valueCache | att => exact uint32_natCast (by omega)

theorem sizesExact_iff (vocabInt : own.vocabSize < 2 ^ 31) :
    SizesExact own ↔ 0 ≤ own.vocabSize := by
  have dim := sized.dimSmall
  have hidden := sized.hiddenSmall
  have cache := sized.cache
  have scores := sized.scores
  have last :
      (runStateCounts own).map (fun num => (num.toNat : Int)) = runStateProducts own ↔
        0 ≤ own.vocabSize := by
    rw [sized.runStateCounts_eq, sized.runStateProducts_eq]
    simp (disch := omega) only [Geometry.sizes, List.map_cons, List.map_nil,
      uint32_natCast, List.cons.injEq, true_and, and_true]
    exact uint32_toNat_eq_iff (by omega)
  constructor
  · intro exact
    exact last.mp exact.passed
  · intro shared
    refine ⟨?_, last.mpr shared⟩
    rw [sized.runStateSizes_eq, sized.runStateProducts_eq]

/-! ## The cells of a layer -/

theorem inBounds_cells_iff (buffer : RunBuffer) (start : Nat) {size : Nat}
    (inLayer : buffer ≠ .logits) (positive : 0 < size) :
    (∀ access ∈ cells buffer (start : Int) (size : Int), InBounds own access) ↔
      start + size ≤ p.floats buffer := by
  have isAllocated := sized.allocated_eq inLayer
  simp only [cells, List.forall_mem_map, List.mem_range, InBounds, isAllocated, Int.toNat_natCast]
  constructor
  · intro inside
    have last := inside (size - 1) (by omega)
    omega
  · intro fits i isCell
    omega

theorem headPart_le {h : Nat} (isHead : h < p.nHeads) : h * p.headSize + p.headSize ≤ p.dim := by
  rw [← sized.isPlausible.heads, ← Nat.succ_mul]
  exact Nat.mul_le_mul_right _ isHead

theorem cachedPart_ok (grouped : 0 < p.kvMul) {l h t : Nat}
    (isHead : h < p.nHeads) (isPosition : t < p.seqLen) :
    cachedPart p.headSize p.kvDim p.kvMul ((l * p.seqLen * p.kvDim : Nat) : Int) h t =
      .ok ((p.kvRow l t + p.kvHead h : Nat) : Int) := by
  have heads := sized.nHeads_lt
  have dim := sized.dimSmall
  have part := sized.headPart_le isHead
  have group : h / p.kvMul * p.headSize ≤ h * p.headSize :=
    Nat.mul_le_mul_right _ (Nat.div_le_self _ _)
  rw [cachedPart, sized.row_ok isPosition.le, ok_bind, divInt_natCast grouped (by omega), ok_bind,
    mulInt_natCast (by omega), ok_bind]
  rfl

/-- A head reads behind the end of the caches or nowhere outside. -/
theorem attentionHead_safe_iff (grouped : 0 < p.kvMul) {l pos h : Nat}
    (isHead : h < p.nHeads) (isPosition : pos < p.seqLen) :
    SafeRun (InBounds own)
        (attentionHeadAccesses own p.headSize p.kvDim p.kvMul
          ((l * p.seqLen * p.kvDim : Nat) : Int) pos h) ↔
      ∀ t, t < pos + 1 →
        p.kvRow l t + p.kvHead h + p.headSize ≤ p.nLayers * p.seqLen * p.kvDim := by
  have dim := sized.dimSmall
  have scores := sized.scores
  have part := sized.headPart_le isHead
  have scoreRow : h * p.seqLen + p.seqLen ≤ p.nHeads * p.seqLen := by
    rw [← Nat.succ_mul]
    exact Nat.mul_le_mul_right _ isHead
  have headSize := sized.isPlausible.headSize_pos
  have q : mulInt (h : Int) (p.headSize : Int) = .ok ((h * p.headSize : Nat) : Int) :=
    mulInt_natCast (by omega)
  have att : mulInt (h : Int) own.seqLen = .ok ((h * p.seqLen : Nat) : Int) := by
    rw [sized.seqLen, mulInt_natCast (by omega)]
  have positions : ((pos : Int) + 1).toNat = pos + 1 := by omega
  have count : (pos : Int) + 1 = ((pos + 1 : Nat) : Int) := by omega
  have one : (1 : Int) = ((1 : Nat) : Int) := rfl
  have query : ∀ access ∈ cells .q ((h * p.headSize : Nat) : Int) p.headSize, InBounds own access :=
    (sized.inBounds_cells_iff _ _ (by decide) headSize).mpr part
  have output :
      ∀ access ∈ cells .xb ((h * p.headSize : Nat) : Int) p.headSize, InBounds own access :=
    (sized.inBounds_cells_iff _ _ (by decide) headSize).mpr part
  have weights :
      ∀ access ∈ cells .att ((h * p.seqLen : Nat) : Int) ((pos : Int) + 1),
        InBounds own access := by
    rw [count]
    apply (sized.inBounds_cells_iff _ _ (by decide) (by omega)).mpr
    change _ ≤ p.nHeads * p.seqLen
    omega
  have weight {t : Nat} (isRow : t < pos + 1) :
      ∀ access ∈ cells .att (((h * p.seqLen : Nat) : Int) + (t : Int)) 1, InBounds own access := by
    rw [← Int.natCast_add, one]
    apply (sized.inBounds_cells_iff _ _ (by decide) (by omega)).mpr
    change _ ≤ p.nHeads * p.seqLen
    omega
  have keys {t : Nat} :=
    sized.inBounds_cells_iff .keyCache (p.kvRow l t + p.kvHead h) (by decide) headSize
  have values {t : Nat} :=
    sized.inBounds_cells_iff .valueCache (p.kvRow l t + p.kvHead h) (by decide) headSize
  rw [attentionHeadAccesses, q, ok_bind, att, ok_bind, ok_bind, safeRun_andThen,
    safeRun_andThen, safeRun_forEach, safeRun_ok, safeRun_forEach, positions]
  simp only [List.mem_range, List.forall_mem_append]
  constructor
  · rintro ⟨scored, -⟩ t isRow
    have row := scored t isRow
    rw [sized.cachedPart_ok grouped isHead (by omega), ok_bind,
      safeRun_pure, List.forall_mem_append, List.forall_mem_append] at row
    exact keys.mp row.1.2
  · intro fits
    refine ⟨?_, ⟨weights, output⟩, ?_⟩
    · intro t isRow
      rw [sized.cachedPart_ok grouped isHead (by omega), ok_bind,
        safeRun_pure, List.forall_mem_append, List.forall_mem_append]
      exact ⟨⟨query, keys.mpr (fits t isRow)⟩, weight isRow⟩
    · intro t isRow
      rw [sized.cachedPart_ok grouped isHead (by omega), ok_bind,
        safeRun_pure, List.forall_mem_append, List.forall_mem_append]
      exact ⟨⟨weight isRow, values.mpr (fits t isRow)⟩, output⟩

theorem multiheadAttention_heads_iff (pool : Pool) {l pos : Nat} (isLayer : l < p.nLayers) :
    SafeRun (InBounds own) (multiheadAttentionAccesses pool own l pos) ↔
      ∀ h ∈ List.range p.nHeads,
        SafeRun (InBounds own)
          (attentionHeadAccesses own p.headSize p.kvDim p.kvMul
            ((l * p.seqLen * p.kvDim : Nat) : Int) pos h) := by
  have heads : own.nHeads.toNat = p.nHeads := by rw [sized.nHeads, Int.toNat_natCast]
  have covered := pool.le_headsPerThread p.nHeads
  have worker (item : Nat × Nat) :
      SafeRun (InBounds own) (workerDoAttentionAccesses own l pos item) ↔
        ∀ h ∈ List.range' item.1 (item.2 - item.1),
          SafeRun (InBounds own)
            (attentionHeadAccesses own p.headSize p.kvDim p.kvMul
              ((l * p.seqLen * p.kvDim : Nat) : Int) pos h) := by
    rw [workerDoAttentionAccesses, sized.headSize_ok, ok_bind, sized.keyProduct_ok, ok_bind,
      sized.kvDim_ok, ok_bind, sized.kvMul_ok, ok_bind, sized.layerRows_ok isLayer.le, ok_bind,
      sized.layerOffset_ok isLayer.le, ok_bind, safeRun_forEach]
  rw [multiheadAttentionAccesses, heads]
  split_ifs with alone
  · rw [worker, List.range_eq_range']
    rfl
  · rw [safeRun_forEach, ← pool.flatMap_handOut covered, List.forall_mem_flatMap]
    simp only [worker]

/-- Without a query head for every key head the first head divides by
zero. -/
theorem attentionHead_not_safe (ungrouped : p.kvMul = 0) (loff : Int) {pos : Nat} :
    ¬ SafeRun (InBounds own)
      (attentionHeadAccesses own p.headSize p.kvDim p.kvMul loff pos ((0 : Nat) : Int)) := by
  intro safe
  rw [attentionHeadAccesses] at safe
  obtain ⟨q, -, safe⟩ := (safeRun_bind _ _).mp safe
  obtain ⟨att, -, safe⟩ := (safeRun_bind _ _).mp safe
  obtain ⟨xb, -, safe⟩ := (safeRun_bind _ _).mp safe
  have scored := ((safeRun_andThen _ _).mp safe).1
  have first := (safeRun_forEach _ _).mp scored 0 (List.mem_range.mpr (by omega))
  obtain ⟨k, isPart, -⟩ := (safeRun_bind _ _).mp first
  have zero : (p.kvMul : Int) = 0 := by omega
  rw [cachedPart, sized.row_ok (Nat.zero_le _), ok_bind, zero] at isPart
  exact nomatch isPart

theorem rope_safe_iff {l pos : Nat} :
    SafeRun (InBounds own)
        (ropeAccesses own p.headSize p.kvDim (p.kvRow l pos : Nat)) ↔
      ∀ m, m < (p.dim + 1) / 2 →
        2 * m + 2 ≤ p.dim ∧
          (2 * m < p.kvDim → p.kvRow l pos + 2 * m + 2 ≤ p.nLayers * p.seqLen * p.kvDim) := by
  have dim : own.dim.toNat = p.dim := by rw [sized.dim, Int.toNat_natCast]
  have two : (2 : Int) = ((2 : Nat) : Int) := rfl
  have pair (m : Nat) :
      SafeRun (InBounds own)
          (do
            let _headDim ← modInt ((2 * m : Nat) : Int) p.headSize
            return cells .q ((2 * m : Nat) : Int) 2 ++
              if ((2 * m : Nat) : Int) < p.kvDim then
                cells .keyCache ((p.kvRow l pos : Int) + ((2 * m : Nat) : Int)) 2
              else []) ↔
        2 * m + 2 ≤ p.dim ∧
          (2 * m < p.kvDim → p.kvRow l pos + 2 * m + 2 ≤ p.nLayers * p.seqLen * p.kvDim) := by
    have query := sized.inBounds_cells_iff .q (2 * m) (by decide) (show 0 < 2 by decide)
    have key :=
      sized.inBounds_cells_iff .keyCache (p.kvRow l pos + 2 * m) (by decide) (show 0 < 2 by decide)
    rw [modInt_natCast sized.isPlausible.headSize_pos, ok_bind, safeRun_pure,
      List.forall_mem_append, two, query]
    refine and_congr_right' ?_
    split_ifs with inKey
    · rw [← Int.natCast_add, key]
      constructor
      · intro fits _
        exact fits
      · intro fits
        exact fits (by omega)
    · constructor
      · intro _ inside
        omega
      · intro _
        exact List.forall_mem_nil _
  rw [ropeAccesses, dim, safeRun_forEach]
  simp only [List.mem_range]
  constructor
  · intro safe m isPair
    exact (pair m).mp (safe m isPair)
  · intro fits m isPair
    exact (pair m).mpr (fits m isPair)

/-- Only the rotation and the attention can leave a buffer. -/
theorem llamaBlock_safe_iff (pool : Pool) {l pos : Nat}
    (isLayer : l < p.nLayers) (isPosition : pos < p.seqLen) :
    SafeRun (InBounds own) (llamaBlockAccesses pool own l pos) ↔
      SafeRun (InBounds own)
          (ropeAccesses own p.headSize p.kvDim (p.kvRow l pos : Nat)) ∧
        SafeRun (InBounds own) (multiheadAttentionAccesses pool own l pos) := by
  have zero : (0 : Int) = ((0 : Nat) : Int) := rfl
  have rowEnd := kvRow_lt_of_layer_lt p isLayer isPosition 0
  have cacheEnd : p.kvRow p.nLayers 0 = p.nLayers * p.seqLen * p.kvDim := by
    rw [Geometry.kvRow, Nat.zero_mul, Nat.add_zero]
  rw [cacheEnd] at rowEnd
  have vector (buffer : RunBuffer) (inLayer : buffer ≠ .logits)
      (isDim : p.floats buffer = p.dim) :
      ∀ access ∈ cells buffer 0 p.dim, InBounds own access := by
    rw [zero]
    apply (sized.inBounds_cells_iff _ _ inLayer sized.isPlausible.dim).mpr
    omega
  have hidden (buffer : RunBuffer) (inLayer : buffer ≠ .logits)
      (isHidden : p.floats buffer = p.hiddenDim) :
      ∀ access ∈ cells buffer 0 p.hiddenDim, InBounds own access := by
    rw [zero]
    apply (sized.inBounds_cells_iff _ _ inLayer sized.isPlausible.hiddenDim).mpr
    omega
  have row (buffer : RunBuffer) (inLayer : buffer ≠ .logits)
      (isCache : p.floats buffer = p.nLayers * p.seqLen * p.kvDim) :
      ∀ access ∈ cells buffer (p.kvRow l pos : Nat) p.kvDim, InBounds own access := by
    apply (sized.inBounds_cells_iff _ _ inLayer sized.kvDim_pos).mpr
    rw [isCache]
    exact rowEnd
  have isRow :
      ((l * p.seqLen * p.kvDim : Nat) : Int) + ((pos * p.kvDim : Nat) : Int) =
        (p.kvRow l pos : Nat) :=
    (Int.natCast_add _ _).symm
  rw [llamaBlockAccesses, sized.keyProduct_ok, ok_bind, sized.kvDim_ok, ok_bind, sized.headSize_ok,
    ok_bind, sized.layerRows_ok isLayer.le, ok_bind, sized.layerOffset_ok isLayer.le, ok_bind,
    sized.row_ok isPosition.le, ok_bind, isRow, sized.dim, sized.hiddenDim, safeRun_andThen,
    safeRun_andThen, safeRun_andThen, safeRun_ok, safeRun_ok]
  simp only [List.forall_mem_append]
  constructor
  · rintro ⟨-, rotated, attended, -⟩
    exact ⟨rotated, attended⟩
  · rintro ⟨rotated, attended⟩
    refine ⟨⟨⟨⟨?_, ?_⟩, ?_⟩, ?_⟩, rotated, attended, ⟨⟨?_, ?_⟩, ?_⟩, ?_⟩
    · exact vector .xb (by decide) rfl
    · exact vector .q (by decide) rfl
    · exact row .keyCache (by decide) rfl
    · exact row .valueCache (by decide) rfl
    · exact vector .xb2 (by decide) rfl
    · exact vector .xb (by decide) rfl
    · exact hidden .hb (by decide) rfl
    · exact hidden .hb2 (by decide) rfl

theorem shardForward_safe_iff (pool : Pool) {pos : Nat} (isPosition : pos < p.seqLen) :
    SafeRun (InBounds own) (shardForwardAccesses pool own pos) ↔
      0 < p.kvMul ∧ 2 ∣ p.dim ∧ (2 ∣ p.kvDim ∨ pos + 1 < p.seqLen) ∧
        (p.nHeads - 1) / p.kvMul + 1 ≤ (p.seqLen - pos) * p.nKvHeads := by
  have layers : own.nLayers.toNat = p.nLayers := by rw [sized.nLayers, Int.toNat_natCast]
  have kvDim := sized.isPlausible.kvDim_eq
  have headSize := sized.isPlausible.headSize_pos
  have hasHead := sized.isPlausible.nHeads
  have hasLayer := sized.isPlausible.nLayers
  have lastLayer := sized.isPlausible.kvRow_lastLayer isPosition.le
  have width (group : Nat) :
      group * p.headSize + p.headSize ≤ (p.seqLen - pos) * p.kvDim ↔
        group + 1 ≤ (p.seqLen - pos) * p.nKvHeads := by
    have rows : (p.seqLen - pos) * p.kvDim = (p.seqLen - pos) * p.nKvHeads * p.headSize := by
      rw [← kvDim, Nat.mul_comm (p.dim / p.nHeads), Nat.mul_assoc]
      rfl
    rw [← Nat.succ_mul, rows]
    exact Nat.mul_le_mul_right_iff headSize
  rw [shardForwardAccesses, layers, safeRun_forEach]
  simp only [List.mem_range]
  constructor
  · intro safe
    obtain ⟨rotated, attended⟩ :=
      (sized.llamaBlock_safe_iff pool (by omega) isPosition).mp (safe (p.nLayers - 1) (by omega))
    rw [sized.multiheadAttention_heads_iff pool (by omega)] at attended
    rw [sized.rope_safe_iff] at rotated
    have grouped : 0 < p.kvMul := by
      by_contra ungrouped
      exact sized.attentionHead_not_safe (by omega) _ (attended 0 (List.mem_range.mpr hasHead))
    have kvDim_le := Geometry.kvDim_le grouped.ne'
    refine ⟨grouped, ?_, ?_, ?_⟩
    · by_contra odd
      have beyond := (rotated (p.dim / 2) (by omega)).1
      omega
    · by_contra neither
      obtain ⟨odd, isLast⟩ := not_or.mp neither
      have one : p.seqLen - pos = 1 := by omega
      have beyond := (rotated (p.kvDim / 2) (by omega)).2 (by omega)
      rw [one, Nat.one_mul] at lastLayer
      omega
    · have lastHead :=
        (sized.attentionHead_safe_iff grouped (h := p.nHeads - 1) (by omega)
          isPosition).mp
          (attended (p.nHeads - 1) (List.mem_range.mpr (by omega))) pos
          (by omega)
      rw [← width]
      rw [Geometry.kvHead] at lastHead
      omega
  · rintro ⟨grouped, even, keyPairs, groups⟩ l isLayer
    rw [sized.llamaBlock_safe_iff pool isLayer isPosition,
      sized.rope_safe_iff, sized.multiheadAttention_heads_iff pool isLayer]
    have cacheEnd : p.kvRow p.nLayers 0 = p.nLayers * p.seqLen * p.kvDim := by
      rw [Geometry.kvRow, Nat.zero_mul, Nat.add_zero]
    constructor
    · intro m isPair
      refine ⟨by omega, ?_⟩
      intro inKey
      rcases keyPairs with keyEven | isEarlier
      · have rowEnd := kvRow_lt_of_layer_lt p isLayer isPosition 0
        omega
      · have next := kvRow_lt_of_lt p l (Nat.lt_add_one pos)
        have rowEnd := kvRow_lt_of_layer_lt p isLayer isEarlier 0
        omega
    · intro h isHead
      rw [List.mem_range] at isHead
      rw [sized.attentionHead_safe_iff grouped isHead isPosition]
      intro t isRow
      have lastGroup := (width ((p.nHeads - 1) / p.kvMul)).mpr groups
      have group : p.kvHead h ≤ (p.nHeads - 1) / p.kvMul * p.headSize :=
        Nat.mul_le_mul_right _ (Nat.div_le_div_right (by omega))
      have rows : l * p.seqLen ≤ (p.nLayers - 1) * p.seqLen := Nat.mul_le_mul_right _ (by omega)
      have lastRow : p.kvRow l t ≤ p.kvRow (p.nLayers - 1) pos :=
        Nat.add_le_add (Nat.mul_le_mul_right _ rows) (Nat.mul_le_mul_right _ (by omega))
      omega

end SizedAs

theorem DescribedBy.runnableAt_iff {own : Config} {p : Geometry}
    (described : DescribedBy own p) {pos : Nat} (isPosition : pos < p.seqLen) :
    RunnableAt own pos ↔
      SizedAs own p ∧ 0 < own.vocabSize ∧ 0 < p.kvMul ∧ 2 ∣ p.dim ∧
        (2 ∣ p.kvDim ∨ pos + 1 < p.seqLen) ∧
        (p.nHeads - 1) / p.kvMul + 1 ≤ (p.seqLen - pos) * p.nKvHeads := by
  have hasHead := described.isPlausible.nHeads
  have hasKvHead := described.isPlausible.nKvHeads
  have kvDim : own.dim * own.nKvHeads / own.nHeads = ((p.kvDim : Nat) : Int) := by
    rw [described.dim, described.nKvHeads, described.nHeads, ← Int.natCast_mul, ← Int.natCast_ediv]
    rfl
  have kvMul : own.nHeads / own.nKvHeads = ((p.kvMul : Nat) : Int) := by
    rw [described.nHeads, described.nKvHeads, ← Int.natCast_ediv]
    rfl
  have lastGroup :
      (own.nHeads - 1) / (own.nHeads / own.nKvHeads) =
        (((p.nHeads - 1) / p.kvMul : Nat) : Int) := by
    rw [kvMul, described.nHeads, Int.natCast_ediv, Int.natCast_sub hasHead]
    rfl
  have behind :
      (own.seqLen - pos) * own.nKvHeads = (((p.seqLen - pos) * p.nKvHeads : Nat) : Int) := by
    rw [described.seqLen, described.nKvHeads, Int.natCast_mul, Int.natCast_sub isPosition.le]
  have grouped : own.nKvHeads ≤ own.nHeads ↔ 0 < p.kvMul := by
    rw [Geometry.kvMul, Nat.div_pos_iff, described.nHeads, described.nKvHeads]
    omega
  have keyProduct : own.dim * own.nKvHeads = ((p.dim * p.nKvHeads : Nat) : Int) := by
    rw [described.dim, described.nKvHeads, Int.natCast_mul]
  have cache :
      own.nLayers * own.seqLen * (own.dim * own.nKvHeads / own.nHeads) =
        ((p.nLayers * p.seqLen * p.kvDim : Nat) : Int) := by
    rw [kvDim, described.nLayers, described.seqLen, Int.natCast_mul, Int.natCast_mul]
  have scores : own.nHeads * own.seqLen = ((p.nHeads * p.seqLen : Nat) : Int) := by
    rw [described.nHeads, described.seqLen, Int.natCast_mul]
  constructor
  · intro runnable
    have queryPairs := runnable.queryPairs
    have keyPairs := runnable.keyPairs
    have groups := runnable.groups
    have keyProductSmall := runnable.keyProduct
    have cacheSmall := runnable.cache
    have scoresSmall := runnable.scores
    rw [described.dim] at queryPairs
    rw [kvDim, described.seqLen] at keyPairs
    rw [lastGroup, behind] at groups
    rw [keyProduct] at keyProductSmall
    rw [cache] at cacheSmall
    rw [scores] at scoresSmall
    exact ⟨⟨described, by omega, by omega, by omega⟩, runnable.sharedVocab,
      grouped.mp runnable.grouped, by omega, by omega, by omega⟩
  · rintro ⟨sized, sharedVocab, isGrouped, even, keyPairs, groups⟩
    have keyProductSmall := sized.keyProduct
    have cacheSmall := sized.cache
    have scoresSmall := sized.scores
    constructor
    · exact grouped.mpr isGrouped
    · exact sharedVocab
    · rw [keyProduct]
      omega
    · rw [cache]
      omega
    · rw [scores]
      omega
    · rw [described.dim]
      omega
    · rw [kvDim, described.seqLen]
      omega
    · rw [lastGroup, behind]
      omega

theorem DescribedBy.sizedAs {own : Config} {p : Geometry} (described : DescribedBy own p)
    (exact : SizesExact own) : SizedAs own p := by
  have run : SafeRun (fun _ : Int => True) (runStateSizes own) :=
    ⟨_, exact.computed, fun _ _ => trivial⟩
  rw [runStateSizes] at run
  obtain ⟨product, isProduct, run⟩ := (safeRun_bind _ _).mp run
  obtain ⟨kvDim, isKvDim, run⟩ := (safeRun_bind _ _).mp run
  obtain ⟨rows, isRows, run⟩ := (safeRun_bind _ _).mp run
  obtain ⟨cache, isCache, run⟩ := (safeRun_bind _ _).mp run
  obtain ⟨sameRows, -, run⟩ := (safeRun_bind _ _).mp run
  obtain ⟨sameCache, -, run⟩ := (safeRun_bind _ _).mp run
  obtain ⟨scores, isScores, -⟩ := (safeRun_bind _ _).mp run
  rw [described.dim, described.nKvHeads] at isProduct
  obtain ⟨keyProduct, rfl⟩ := lt_of_mulInt_ok isProduct
  rw [described.nHeads, divInt_natCast described.isPlausible.nHeads keyProduct] at isKvDim
  rw [described.nLayers, described.seqLen] at isRows
  obtain ⟨-, rfl⟩ := lt_of_mulInt_ok isRows
  rw [← Except.ok.inj isKvDim] at isCache
  rw [described.nHeads, described.seqLen] at isScores
  exact ⟨described, keyProduct, (lt_of_mulInt_ok isCache).1, (lt_of_mulInt_ok isScores).1⟩

theorem describedBy_geometryOf {own : Config} (accepted : own.isPlausible = true)
    (dimInt : own.dim < 2 ^ 31) (hiddenInt : own.hiddenDim < 2 ^ 31) :
    DescribedBy own (geometryOf own) := by
  have isPlausible := geometryOf_isPlausible accepted
  rw [Config.isPlausible, decide_eq_true_iff] at accepted
  obtain ⟨dim, hidden, layers, heads, kvHeads, -, seqLen, -⟩ := accepted
  refine ⟨?_, ?_, ?_, ?_, ?_, ?_, isPlausible, ?_, ?_⟩
  all_goals
    simp only [geometryOf]
    omega

/-- The fields of a `Config` are of type `int`. -/
structure IntFields (cfg : Config) : Prop where
  dim : int32 cfg.dim = cfg.dim
  hiddenDim : int32 cfg.hiddenDim = cfg.hiddenDim
  nLayers : int32 cfg.nLayers = cfg.nLayers
  nHeads : int32 cfg.nHeads = cfg.nHeads
  nKvHeads : int32 cfg.nKvHeads = cfg.nKvHeads
  vocabSize : int32 cfg.vocabSize = cfg.vocabSize
  seqLen : int32 cfg.seqLen = cfg.seqLen

theorem shardSeqLen_pos {cfg : Config} (accepted : 0 < cfg.seqLen) (assignment : AssignLayers) :
    0 < shardSeqLen cfg assignment := by
  have default : 0 < shardDefaultMaxSeq := by decide
  unfold shardSeqLen
  dsimp only
  split_ifs <;> omega

theorem shardLocal_isPlausible {cfg : Config} (accepted : cfg.isPlausible = true)
    {assignment : AssignLayers} (inRange : shardRangeOk cfg assignment = true) :
    (shardLocal cfg assignment).isPlausible = true := by
  rw [Config.isPlausible, decide_eq_true_iff] at accepted
  rw [shardRangeOk, decide_eq_true_iff] at inRange
  obtain ⟨dim, hidden, -, heads, kvHeads, vocab, seqLen, divides⟩ := accepted
  have layers : asInt assignment.layerEnd - asInt assignment.layerStart > 0 := by omega
  have length := shardSeqLen_pos seqLen assignment
  rw [shardLocal]
  generalize asInt assignment.layerEnd - asInt assignment.layerStart = count at layers ⊢
  generalize shardSeqLen cfg assignment = room at length ⊢
  rw [Config.isPlausible, decide_eq_true_iff]
  exact ⟨dim, hidden, layers, heads, kvHeads, vocab, length, divides⟩

/-- An accepted header and range are safe at a position only under a condition
that nothing checks. -/
theorem accepted_header_safe_iff (cfg : Config) (ints : IntFields cfg)
    (accepted : cfg.isPlausible = true) (assignment : AssignLayers)
    (inRange : shardRangeOk cfg assignment = true) (pool : Pool) (pos : Int)
    (isPosition : 0 ≤ pos ∧ pos < shardSeqLen cfg assignment) :
    SafeToRun pool (shardLocal cfg assignment) pos ↔
      RunnableAt (shardLocal cfg assignment) pos := by
  obtain ⟨position, rfl⟩ := Int.eq_ofNat_of_zero_le isPosition.1
  have dimInt := (int32_eq_self_iff _).mp ints.dim
  have hiddenInt := (int32_eq_self_iff _).mp ints.hiddenDim
  have vocabInt := (int32_eq_self_iff _).mp ints.vocabSize
  have isDim : (shardLocal cfg assignment).dim = cfg.dim := by rw [shardLocal]
  have isHidden : (shardLocal cfg assignment).hiddenDim = cfg.hiddenDim := by rw [shardLocal]
  have isVocab : (shardLocal cfg assignment).vocabSize = cfg.vocabSize := by rw [shardLocal]
  have isRoom : (shardLocal cfg assignment).seqLen = shardSeqLen cfg assignment := by
    rw [shardLocal]
  have ownAccepted := shardLocal_isPlausible accepted inRange
  have described : DescribedBy (shardLocal cfg assignment) _ :=
    describedBy_geometryOf ownAccepted (by omega) (by omega)
  have position_lt : position < (geometryOf (shardLocal cfg assignment)).seqLen := by
    have isLength := described.seqLen
    omega
  rw [described.runnableAt_iff position_lt]
  constructor
  · intro safe
    have sized := described.sizedAs safe.sizes
    have shared := (sized.sizesExact_iff (by omega)).mp safe.sizes
    rw [Config.isPlausible, decide_eq_true_iff] at accepted
    exact ⟨sized, by omega, (sized.shardForward_safe_iff pool position_lt).mp safe.kernels⟩
  · rintro ⟨sized, shared, kernels⟩
    exact ⟨(sized.sizesExact_iff (by omega)).mpr shared.le,
      (sized.shardForward_safe_iff pool position_lt).mpr kernels⟩

/-- Four heads that share two keys, over two layers. -/
def groupedHeader : Config where
  dim := 8
  hiddenDim := 4
  nLayers := 2
  nHeads := 4
  nKvHeads := 2
  vocabSize := 5
  seqLen := 3

def noPool : Pool where
  initialized := false
  threads := 1
  positive := Nat.one_pos

def bothLayers : AssignLayers where
  sessionId := 1
  modelId := 0
  layerStart := 0
  layerEnd := 2
  nLayersTotal := 2
  dim := 8
  hiddenDim := 4
  nHeads := 4
  nKvHeads := 2
  seqLen := 3
  vocabSize := 5
  maxSeq := 0
  weightsIp := 0
  weightsPort := 0

theorem accepted_header_safe_grouped :
    SafeToRun noPool (shardLocal groupedHeader bothLayers) 2 := by
  refine (accepted_header_safe_iff groupedHeader ?_ (by decide) bothLayers
    (by decide) noPool 2 (by decide)).mpr ?_
  · constructor <;> decide
  · constructor <;> decide

/-- With more key heads than heads the first score divides by zero. -/
theorem ungrouped_header_divides_by_zero :
    IntFields { groupedHeader with nKvHeads := 5 } ∧
      ({ groupedHeader with nKvHeads := 5 } : Config).isPlausible = true ∧
      shardRangeOk { groupedHeader with nKvHeads := 5 } bothLayers = true ∧
      0 < shardSeqLen { groupedHeader with nKvHeads := 5 } bothLayers ∧
      shardForwardAccesses noPool (shardLocal { groupedHeader with nKvHeads := 5 } bothLayers) 0 =
        .error .divisionByZero ∧
      ¬ SafeToRun noPool (shardLocal { groupedHeader with nKvHeads := 5 } bothLayers) 0 := by
  have divides :
      shardForwardAccesses noPool (shardLocal { groupedHeader with nKvHeads := 5 } bothLayers) 0 =
        .error .divisionByZero := by
    decide +kernel
  refine ⟨?_, by decide, by decide, by decide, divides, ?_⟩
  · constructor <;> decide
  · intro safe
    obtain ⟨cells, noFault, -⟩ := safe.kernels
    rw [divides] at noFault
    exact nomatch noFault

end LlmRuntime.LlamaCore
