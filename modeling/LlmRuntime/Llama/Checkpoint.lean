import LlmRuntime.DistInf.Shard
import LlmRuntime.Ftp.RangeFetch
import LlmRuntime.Library.MachineInt
import LlmRuntime.Llama.LayerRefinement

/-!
# Checkpoints and shards

`memory_map_weights` walks over the tensors of a whole checkpoint; `shard_load`
fetches the nine ranges of a layer and packs them into a segment of shared
memory.  Offsets are natural numbers, cut to 32 bits for a fetch.
-/

namespace LlmRuntime.LlamaCore

open Buffer DistInf Function MachineInt

universe u

/-- The header as the kernels take it. -/
def geometryOf (cfg : Config) : Geometry where
  dim := cfg.dim.natAbs
  hiddenDim := cfg.hiddenDim.natAbs
  nLayers := cfg.nLayers.natAbs
  nHeads := cfg.nHeads.natAbs
  nKvHeads := cfg.nKvHeads.natAbs
  vocabSize := cfg.vocabSize.natAbs
  seqLen := cfg.seqLen.natAbs

def ckptHeaderBytes : Nat := 28

/-- Where `memory_map_weights` finds the tensors, in floats. -/
structure WeightOffsets where
  tokenEmbeddingTable : Nat
  rmsAttWeight : Nat
  wq : Nat
  wk : Nat
  wv : Nat
  wo : Nat
  rmsFfnWeight : Nat
  w1 : Nat
  w2 : Nat
  w3 : Nat
  rmsFinalWeight : Nat
  tail : Nat

def weightOffsets (p : Geometry) : WeightOffsets :=
  let headSize := p.headSize
  let rmsAttWeight := p.vocabSize * p.dim
  let wq := rmsAttWeight + p.nLayers * p.dim
  let wk := wq + p.nLayers * p.dim * (p.nHeads * headSize)
  let wv := wk + p.nLayers * p.dim * (p.nKvHeads * headSize)
  let wo := wv + p.nLayers * p.dim * (p.nKvHeads * headSize)
  let rmsFfnWeight := wo + p.nLayers * (p.nHeads * headSize) * p.dim
  let w1 := rmsFfnWeight + p.nLayers * p.dim
  let w2 := w1 + p.nLayers * p.dim * p.hiddenDim
  let w3 := w2 + p.nLayers * p.hiddenDim * p.dim
  let rmsFinalWeight := w3 + p.nLayers * p.dim * p.hiddenDim
  -- the tables of the rotation are skipped
  let tail := rmsFinalWeight + p.dim + p.seqLen * headSize / 2 + p.seqLen * headSize / 2
  { tokenEmbeddingTable := 0
    rmsAttWeight := rmsAttWeight
    wq := wq
    wk := wk
    wv := wv
    wo := wo
    rmsFfnWeight := rmsFfnWeight
    w1 := w1
    w2 := w2
    w3 := w3
    rmsFinalWeight := rmsFinalWeight
    tail := tail }

def checkpointFloats (p : Geometry) (sharedWeights : Bool) : Nat :=
  (weightOffsets p).tail + if sharedWeights then 0 else p.vocabSize * p.dim

section Tensors

variable {F : Type u}

variable [FloatOps F]

def floatsFrom (bytes : Nat → UInt8) (offset : Nat) : Nat → F :=
  fun j =>
    FloatOps.ofBytes (bytes (offset + 4 * j)) (bytes (offset + 4 * j + 1))
      (bytes (offset + 4 * j + 2)) (bytes (offset + 4 * j + 3))

end Tensors

/-- The elements of each tensor of a layer. -/
def ckptStrides (p : Geometry) : List Nat :=
  let headSize := p.dim / p.nHeads
  let kvDim := headSize * p.nKvHeads
  [p.dim, p.dim * p.dim, p.dim * kvDim, p.dim * kvDim, p.dim * p.dim, p.dim,
    p.dim * p.hiddenDim, p.hiddenDim * p.dim, p.dim * p.hiddenDim]

/-- Where tensor `i` of a layer goes in its segment. -/
def packedOffset (p : Geometry) (i : Nat) : Nat := ((ckptStrides p).take i).sum

def ckptStride (p : Geometry) (i : Nat) : Nat := (ckptStrides p).getD i 0

/-- The first element of tensor `i`, over all layers. -/
def ckptBase (p : Geometry) (i : Nat) : Nat := p.vocabSize * p.dim + p.nLayers * packedOffset p i

/-- What the node and the network do while a shard is loaded: the segments by
name, whether that of a layer can be attached, whether the transfer of a tensor
succeeds, and whether there is memory for the run state. -/
structure LoadEnv where
  segments : List UInt8 → Nat → UInt8
  attaches : Nat → Bool
  transfers : Nat → Nat → Bool
  memory : Bool
  pool : Pool

/-- `llm_fetch_range`: a transfer that succeeds writes the bytes of the range,
which lies inside the file. -/
def llmFetchRange (file : List UInt8) (succeeds : Bool) (dst : Nat → UInt8)
    (start : Nat) (byteOff byteLen : UInt32) : Option (Nat → UInt8) :=
  let count := Ftp.bytesAsked file byteOff byteLen
  if succeeds ∧ file.length < 2 ^ 32 ∧ byteOff.toNat < file.length ∧
      byteOff.toNat + count ≤ file.length then
    some fun k =>
      if start ≤ k ∧ k < start + count then file.getD (byteOff.toNat + (k - start)) 0
      else dst k
  else none

def loadTensor (file : List UInt8) (p : Geometry) (l : Nat) (transfers : Nat → Bool)
    (segment : Nat → UInt8) (i : Nat) : Option (Nat → UInt8) :=
  let srcOff := ckptHeaderBytes + (ckptBase p i + l * ckptStride p i) * 4
  llmFetchRange file (transfers i) segment (packedOffset p i * 4)
    (UInt32.ofNat srcOff) (UInt32.ofNat (ckptStride p i * 4))

/-- The name of the segment of a layer, up to its terminator. -/
def shardSegmentName (l : Nat) : List UInt8 :=
  let digit (n : Nat) : UInt8 := 48 + UInt8.ofNat n
  ([115, 104, 97, 114, 100, 95, 76] ++
    (if l ≥ 10 then [digit (l / 10)] else []) ++ [digit (l % 10)]).takeWhile (· ≠ 0)

/-- Attach the segment of a layer and fetch its nine tensors into it. -/
def loadLayer (file : List UInt8) (p : Geometry) (env : LoadEnv)
    (segments : List UInt8 → Nat → UInt8) (l : Nat) :
    Option (List UInt8 → Nat → UInt8) :=
  if ¬ env.attaches l then none
  else
    ((List.range 9).foldlM (loadTensor file p l (env.transfers l))
      (segments (shardSegmentName l))).map
      fun segment => update segments (shardSegmentName l) segment

/-- The `num` arguments of the calls of `calloc` in `malloc_run_state`. -/
def runStateCounts (p : Config) : List UInt32 :=
  let kvDim := Int.tdiv (MachineInt.int32 (p.dim * p.nKvHeads)) p.nHeads
  let cache := p.nLayers * p.seqLen * kvDim
  [p.dim, p.dim, p.dim, p.hiddenDim, p.hiddenDim, p.dim, cache, cache,
    p.nHeads * p.seqLen, p.vocabSize].map UInt32.ofInt

section Shard

variable {F : Type u} [FloatOps F]

/-- `calloc` refuses what would not fit 32 bits in bytes; the process then
ends. -/
def mallocRunState (p : Config) (memory : Bool) : Option (RunState F) :=
  if memory ∧ ∀ num ∈ runStateCounts p, num.toNat ≤ (2 ^ 32 - 1) / 4 then some RunState.blank
  else none

def segmentLayer (p : Geometry) (segment : Nat → UInt8) : LlamaLayer F where
  rmsAtt := floatsFrom segment (packedOffset p 0 * 4)
  wq := floatsFrom segment (packedOffset p 1 * 4)
  wk := floatsFrom segment (packedOffset p 2 * 4)
  wv := floatsFrom segment (packedOffset p 3 * 4)
  wo := floatsFrom segment (packedOffset p 4 * 4)
  rmsFfn := floatsFrom segment (packedOffset p 5 * 4)
  w1 := floatsFrom segment (packedOffset p 6 * 4)
  w2 := floatsFrom segment (packedOffset p 7 * 4)
  w3 := floatsFrom segment (packedOffset p 8 * 4)

/-- A shard that is loaded, with the pool of its process.  `own` is the
`Config` that the kernels are called with. -/
structure ShardT (F : Type u) where
  own : Geometry
  layerStart : Nat
  layerEnd : Nat
  layers : Nat → LlamaLayer F
  state : RunState F
  pool : Pool

def shardLoad (file : List UInt8) (cfg : Config) (assignment : AssignLayers)
    (env : LoadEnv) : Option (ShardT F) :=
  if ¬ shardRangeOk cfg assignment then none
  else
    let p := geometryOf cfg
    let l0 := asInt assignment.layerStart
    let l1 := asInt assignment.layerEnd
    let own := { cfg with nLayers := l1 - l0, seqLen := shardSeqLen cfg assignment }
    ((List.range' l0.toNat (l1 - l0).toNat).foldlM (loadLayer file p env)
      env.segments).bind fun segments =>
      (mallocRunState own env.memory).map fun state =>
        { own := geometryOf own
          layerStart := l0.toNat
          layerEnd := l1.toNat
          layers := fun index =>
            segmentLayer p (segments (shardSegmentName (l0.toNat + index)))
          state := state
          pool := env.pool }

end Shard

section Layout

variable {p : Geometry}

theorem packedOffset_succ (p : Geometry) {i : Nat} (isTensor : i < 9) :
    packedOffset p (i + 1) = packedOffset p i + ckptStride p i := by
  have inside : i < (ckptStrides p).length := isTensor
  rw [packedOffset, packedOffset, ckptStride,
    List.sum_take_succ _ _ inside, List.getD_eq_getElem _ _ inside]

theorem packedOffset_mono (p : Geometry) {i j : Nat} (ordered : i ≤ j) (isTensor : j ≤ 9) :
    packedOffset p i ≤ packedOffset p j := by
  induction j with
  | zero => rw [Nat.le_zero.mp ordered]
  | succ j ih =>
    rcases Nat.le_succ_iff.mp ordered with earlier | same
    · rw [packedOffset_succ p (by omega)]
      exact (ih earlier (by omega)).trans (Nat.le_add_right _ _)
    · rw [same]

/-- Both walks over the checkpoint find the tensors at the same places. -/
theorem weightOffsets_eq (heads : p.nHeads * p.headSize = p.dim) :
    [(weightOffsets p).rmsAttWeight, (weightOffsets p).wq,
        (weightOffsets p).wk, (weightOffsets p).wv, (weightOffsets p).wo,
        (weightOffsets p).rmsFfnWeight, (weightOffsets p).w1,
        (weightOffsets p).w2, (weightOffsets p).w3,
        (weightOffsets p).rmsFinalWeight] =
      (List.range 10).map (ckptBase p) := by
  have kvDim : p.nKvHeads * p.headSize = p.dim / p.nHeads * p.nKvHeads := Nat.mul_comm _ _
  simp only [weightOffsets, ckptBase, packedOffset, ckptStrides, heads, kvDim, List.range_succ,
    List.range_zero, List.nil_append, List.cons_append, List.map_cons, List.map_nil,
    List.take_succ_cons, List.take_zero, List.sum_cons, List.sum_nil, List.cons.injEq, and_true]
  refine ⟨?_, ?_, ?_, ?_, ?_, ?_, ?_, ?_, ?_, ?_⟩ <;> ring

theorem ckptBase_add_le_of_lt {i j l : Nat} (ordered : i < j) (isTensor : j ≤ 9)
    (isLayer : l < p.nLayers) :
    ckptBase p i + l * ckptStride p i + ckptStride p i ≤ ckptBase p j := by
  have packed := packedOffset_mono p (Nat.succ_le_of_lt ordered) isTensor
  rw [packedOffset_succ p (by omega)] at packed
  calc
    ckptBase p i + l * ckptStride p i + ckptStride p i
      = ckptBase p i + (l + 1) * ckptStride p i := by
        rw [Nat.succ_mul, Nat.add_assoc]
    _ ≤ ckptBase p i + p.nLayers * ckptStride p i := by
        exact Nat.add_le_add_left (Nat.mul_le_mul_right _ isLayer) _
    _ = p.vocabSize * p.dim +
          p.nLayers * (packedOffset p i + ckptStride p i) := by
        rw [ckptBase, Nat.mul_add, Nat.add_assoc]
    _ ≤ p.vocabSize * p.dim + p.nLayers * packedOffset p j := by
        exact Nat.add_le_add_left (Nat.mul_le_mul_left _ packed) _

theorem ckptBase_add_le (heads : p.nHeads * p.headSize = p.dim) {i l : Nat}
    (isTensor : i < 9) (isLayer : l < p.nLayers) :
    ckptBase p i + l * ckptStride p i + ckptStride p i ≤ (weightOffsets p).rmsFinalWeight := by
  have ends := ckptBase_add_le_of_lt isTensor le_rfl isLayer
  have same := weightOffsets_eq heads
  simp only [List.range_succ, List.range_zero, List.nil_append,
    List.cons_append, List.map_cons, List.map_nil, List.cons.injEq] at same
  rw [same.2.2.2.2.2.2.2.2.2.1]
  exact ends

theorem rmsFinalWeight_le (p : Geometry) (sharedWeights : Bool) :
    (weightOffsets p).rmsFinalWeight ≤ checkpointFloats p sharedWeights := by
  rw [checkpointFloats]
  simp only [weightOffsets]
  omega

end Layout

/-! ## Loading -/

theorem foldlM_concat_eq_some {α β : Type*} {step : β → α → Option β}
    {initial : List α} {last : α} {start stop : β} :
    (initial ++ [last]).foldlM step start = some stop ↔
      ∃ middle, initial.foldlM step start = some middle ∧ step middle last = some stop := by
  simp [List.foldlM_append, Option.bind_eq_some_iff]

theorem foldlM_isSome {α β : Type*} {turn : β → α → Option β} {items : List α}
    (succeeds : ∀ item ∈ items, ∀ state, (turn state item).isSome) (state : β) :
    (items.foldlM turn state).isSome := by
  induction items generalizing state with
  | nil => rfl
  | cons item rest ih =>
    obtain ⟨here, behind⟩ := List.forall_mem_cons.mp succeeds
    obtain ⟨next, isNext⟩ := Option.isSome_iff_exists.mp (here state)
    rw [List.foldlM_cons, isNext]
    exact ih behind next

section Loading

variable {file : List UInt8} {p : Geometry} {l : Nat}
  {transfers : Nat → Bool} {segment after : Nat → UInt8}

/-- Inside of a file that has 32 bits of size, offset and length are not cut. -/
theorem tensor_words {i : Nat} (positive : 0 < ckptStride p i) (fits : ckptHeaderBytes +
          (ckptBase p i + l * ckptStride p i + ckptStride p i) * 4 ≤
        file.length)
    (small : file.length < 2 ^ 32) :
    (UInt32.ofNat (ckptHeaderBytes + (ckptBase p i + l * ckptStride p i) * 4)).toNat =
        ckptHeaderBytes + (ckptBase p i + l * ckptStride p i) * 4 ∧
      (UInt32.ofNat (ckptStride p i * 4)).toNat = ckptStride p i * 4 ∧
      UInt32.ofNat (ckptStride p i * 4) ≠ 0 := by
  have isLen : (UInt32.ofNat (ckptStride p i * 4)).toNat = ckptStride p i * 4 := by
    apply UInt32.toNat_ofNat_of_lt'
    change _ < 2 ^ 32
    omega
  refine ⟨?_, isLen, ?_⟩
  · apply UInt32.toNat_ofNat_of_lt'
    change _ < 2 ^ 32
    omega
  · intro isZero
    rw [isZero] at isLen
    change 0 = _ at isLen
    omega

theorem loadTensor_isSome {i : Nat} (positive : 0 < ckptStride p i) (fits : ckptHeaderBytes +
          (ckptBase p i + l * ckptStride p i + ckptStride p i) * 4 ≤
        file.length)
    (small : file.length < 2 ^ 32) (succeeds : transfers i = true) :
    (loadTensor file p l transfers segment i).isSome := by
  obtain ⟨isOff, isLen, notZero⟩ := tensor_words positive fits small
  rw [loadTensor, llmFetchRange, Ftp.bytesAsked, if_neg notZero, isOff, isLen,
    if_pos ⟨succeeds, small, by omega, by omega⟩]
  rfl

end Loading

def segmentIndex (name : List UInt8) : Nat :=
  (name.drop 7).foldl (fun index digit => 10 * index + (digit.toNat - 48)) 0

theorem segmentIndex_shardSegmentName {l : Nat} (small : l < 256) :
    segmentIndex (shardSegmentName l) = l := by
  have below : ∀ l : Fin 256, segmentIndex (shardSegmentName l) = l := by decide +kernel
  exact below ⟨l, small⟩

theorem shardSegmentName_ne {l other : Nat} (small : l < 256) (otherSmall : other < 256)
    (different : l ≠ other) : shardSegmentName l ≠ shardSegmentName other := by
  intro same
  apply different
  rw [← segmentIndex_shardSegmentName small, same, segmentIndex_shardSegmentName otherSmall]

section Segments

variable {file : List UInt8} {p : Geometry} {env : LoadEnv}
  {segments after : List UInt8 → Nat → UInt8}

theorem loadLayer_some {l : Nat} (loaded : loadLayer file p env segments l = some after) :
    ∃ segment,
      (List.range 9).foldlM (loadTensor file p l (env.transfers l))
          (segments (shardSegmentName l)) = some segment ∧
        after = update segments (shardSegmentName l) segment := by
  rw [loadLayer] at loaded
  split_ifs at loaded
  obtain ⟨segment, isSegment, isAfter⟩ := Option.map_eq_some_iff.mp loaded
  exact ⟨segment, isSegment, isAfter.symm⟩

theorem loadLayers_some {first count : Nat} (small : first + count ≤ 256)
    (loaded : (List.range' first count).foldlM (loadLayer file p env) segments = some after)
    {l : Nat} (isLayer : l < count) :
    ∃ before,
      (List.range 9).foldlM
          (loadTensor file p (first + l) (env.transfers (first + l)))
          before =
        some (after (shardSegmentName (first + l))) := by
  induction count generalizing after with
  | zero => omega
  | succ count ih =>
    rw [List.range'_1_concat, foldlM_concat_eq_some] at loaded
    obtain ⟨middle, earlier, last⟩ := loaded
    obtain ⟨segment, isSegment, isAfter⟩ := loadLayer_some last
    rw [isAfter]
    by_cases isLast : l = count
    · rw [isLast, update_self]
      exact ⟨_, isSegment⟩
    · rw [update_of_ne (shardSegmentName_ne (by omega) (by omega) (by omega))]
      exact ih (by omega) earlier (by omega)

end Segments

section Agreement

variable {F : Type u} [FloatOps F] {file : List UInt8} {p : Geometry}
  {l : Nat} {transfers : Nat → Bool} {before segment : Nat → UInt8}

theorem ckptStride_pos (dim : 0 < p.dim) (hidden : 0 < p.hiddenDim) (headSize : 0 < p.headSize)
    (kvHeads : 0 < p.nKvHeads) {i : Nat} (isTensor : i < 9) :
    0 < ckptStride p i := by
  have kvDim : 0 < p.dim / p.nHeads * p.nKvHeads := Nat.mul_pos headSize kvHeads
  have all : ∀ stride ∈ ckptStrides p, 0 < stride := by
    simp only [ckptStrides, List.forall_mem_cons, List.not_mem_nil,
      false_implies, implies_true, and_true]
    refine ⟨dim, ?_, ?_, ?_, ?_, dim, ?_, ?_, ?_⟩ <;>
      apply Nat.mul_pos <;> assumption
  have inside : i < (ckptStrides p).length := isTensor
  rw [ckptStride, List.getD_eq_getElem _ _ inside]
  exact all _ (List.getElem_mem inside)

end Agreement

section Header

variable {cfg : Config}

/-- What the check of the header says of its sizes. -/
structure Geometry.Plausible (p : Geometry) : Prop where
  dim : 0 < p.dim
  hiddenDim : 0 < p.hiddenDim
  nLayers : 0 < p.nLayers
  nHeads : 0 < p.nHeads
  nKvHeads : 0 < p.nKvHeads
  seqLen : 0 < p.seqLen
  divides : p.nHeads ∣ p.dim

theorem geometryOf_isPlausible (accepted : cfg.isPlausible = true) :
    (geometryOf cfg).Plausible := by
  rw [Config.isPlausible, decide_eq_true_iff] at accepted
  obtain ⟨dim, hiddenDim, nLayers, nHeads, nKvHeads, -, seqLen, divides⟩ := accepted
  constructor
  · exact Int.natAbs_pos.mpr dim.ne'
  · exact Int.natAbs_pos.mpr hiddenDim.ne'
  · exact Int.natAbs_pos.mpr nLayers.ne'
  · exact Int.natAbs_pos.mpr nHeads.ne'
  · exact Int.natAbs_pos.mpr nKvHeads.ne'
  · exact Int.natAbs_pos.mpr seqLen.ne'
  · exact Int.natAbs_dvd_natAbs.mpr (Int.dvd_of_tmod_eq_zero divides)

theorem Geometry.nKvHeads_le {p : Geometry} (grouped : p.kvMul ≠ 0) : p.nKvHeads ≤ p.nHeads := by
  by_contra more
  exact grouped (Nat.div_eq_of_lt (by omega))

theorem Geometry.kvDim_le {p : Geometry} (grouped : p.kvMul ≠ 0) : p.kvDim ≤ p.dim := by
  rw [Geometry.kvDim]
  apply Nat.div_le_of_le_mul
  rw [Nat.mul_comm]
  exact Nat.mul_le_mul_right _ (Geometry.nKvHeads_le grouped)

namespace Geometry.Plausible

variable {p : Geometry} (isPlausible : p.Plausible)

include isPlausible

theorem heads : p.nHeads * p.headSize = p.dim := Nat.mul_div_cancel' isPlausible.divides

theorem headSize_pos : 0 < p.headSize :=
  Nat.div_pos (Nat.le_of_dvd isPlausible.dim isPlausible.divides) isPlausible.nHeads

theorem kvDim_eq : p.dim / p.nHeads * p.nKvHeads = p.kvDim :=
  Nat.div_mul_right_comm isPlausible.divides p.nKvHeads

/-- The rows of the last layer, from a position on, end where the cache
ends. -/
theorem kvRow_lastLayer {pos : Nat} (isPosition : pos ≤ p.seqLen) :
    p.kvRow (p.nLayers - 1) pos + (p.seqLen - pos) * p.kvDim = p.nLayers * p.seqLen * p.kvDim := by
  obtain ⟨layers, isLayers⟩ : ∃ layers, p.nLayers = layers + 1 :=
    Nat.exists_eq_add_one.mpr isPlausible.nLayers
  obtain ⟨rest, isRest⟩ := Nat.exists_eq_add_of_le isPosition
  rw [Geometry.kvRow, isLayers, isRest, Nat.add_sub_cancel, Nat.add_sub_cancel_left]
  ring

theorem ckptStride_pos {i : Nat} (isTensor : i < 9) : 0 < ckptStride p i :=
  LlamaCore.ckptStride_pos isPlausible.dim isPlausible.hiddenDim
    isPlausible.headSize_pos isPlausible.nKvHeads isTensor

end Geometry.Plausible

end Header

/-- The range of a shard and what it is loaded with. -/
structure ShardT.LoadedFrom {F : Type u} [FloatOps F] (file : List UInt8) (cfg : Config)
    (assignment : AssignLayers) (env : LoadEnv) (sh : ShardT F) : Prop where
  range : shardRangeOk cfg assignment = true
  layerStart : sh.layerStart = (asInt assignment.layerStart).toNat
  layerEnd : sh.layerEnd = (asInt assignment.layerEnd).toNat
  own :
    sh.own =
      { geometryOf cfg with
        nLayers := (asInt assignment.layerEnd - asInt assignment.layerStart).natAbs
        seqLen := (shardSeqLen cfg assignment).natAbs }
  pool : sh.pool = env.pool
  state : sh.state = RunState.blank
  layers :
    sh.layerEnd ≤ 256 → ∀ l, l < sh.layerEnd - sh.layerStart →
        ∃ before segment,
          (List.range 9).foldlM
              (loadTensor file (geometryOf cfg) (sh.layerStart + l)
                (env.transfers (sh.layerStart + l)))
              before =
            some segment ∧
          sh.layers l = segmentLayer (geometryOf cfg) segment

theorem shardLoad_some {F : Type u} [FloatOps F] {file : List UInt8}
    {cfg : Config} {assignment : AssignLayers} {env : LoadEnv} {sh : ShardT F}
    (loaded : shardLoad file cfg assignment env = some sh) :
    sh.LoadedFrom file cfg assignment env := by
  rw [shardLoad] at loaded
  split_ifs at loaded with inRange
  dsimp only at loaded
  obtain ⟨segments, isLoaded, allocated⟩ := Option.bind_eq_some_iff.mp loaded
  obtain ⟨state, isState, rfl⟩ := Option.map_eq_some_iff.mp allocated
  have bounds := inRange
  rw [shardRangeOk, decide_eq_true_iff] at bounds
  refine ⟨inRange, by dsimp only, by dsimp only, by simp only [geometryOf], by dsimp only, ?_, ?_⟩
  · rw [mallocRunState] at isState
    split_ifs at isState
    exact (Option.some.inj isState).symm
  · intro small l isLayer
    dsimp only at small isLayer ⊢
    obtain ⟨before, isSegment⟩ := loadLayers_some (by omega) isLoaded (show l < _ by omega)
    exact ⟨before, _, isSegment, rfl⟩

/-- A file that has all layers can be loaded where nothing fails. -/
theorem shardLoad_isSome {F : Type u} [FloatOps F] {file : List UInt8}
    {cfg : Config} {assignment : AssignLayers} {env : LoadEnv} (accepted : cfg.isPlausible = true)
    (inRange : shardRangeOk cfg assignment = true)
    (whole : ckptHeaderBytes + (weightOffsets (geometryOf cfg)).rmsFinalWeight * 4 ≤ file.length)
    (small : file.length < 2 ^ 32) (attaches : ∀ l, env.attaches l = true)
    (transfers : ∀ l i, env.transfers l i = true)
    (memory : (mallocRunState (F := F)
      { cfg with
        nLayers := asInt assignment.layerEnd - asInt assignment.layerStart
        seqLen := shardSeqLen cfg assignment } env.memory).isSome) :
    ∃ sh : ShardT F, shardLoad file cfg assignment env = some sh := by
  have isPlausible := geometryOf_isPlausible accepted
  have bounds := inRange
  rw [shardRangeOk, decide_eq_true_iff] at bounds
  have isLayers : (geometryOf cfg).nLayers = cfg.nLayers.natAbs := rfl
  have fetched : ((List.range' (asInt assignment.layerStart).toNat
      (asInt assignment.layerEnd - asInt assignment.layerStart).toNat).foldlM
        (loadLayer file (geometryOf cfg) env) env.segments).isSome := by
    refine foldlM_isSome ?_ env.segments
    intro l isLayer segments
    rw [List.mem_range'_1] at isLayer
    rw [loadLayer, if_neg (not_not.mpr (attaches l)), Option.isSome_map]
    refine foldlM_isSome ?_ _
    intro i isTensor segment
    rw [List.mem_range] at isTensor
    have isModelLayer : l < (geometryOf cfg).nLayers := by
      clear small whole
      omega
    have ends := ckptBase_add_le isPlausible.heads isTensor isModelLayer
    exact loadTensor_isSome (isPlausible.ckptStride_pos isTensor)
      ((Nat.add_le_add_left (Nat.mul_le_mul_right 4 ends) _).trans whole) small (transfers l i)
  obtain ⟨segments, isSegments⟩ := Option.isSome_iff_exists.mp fetched
  obtain ⟨state, isState⟩ := Option.isSome_iff_exists.mp memory
  rw [shardLoad, if_neg (not_not.mpr inRange)]
  dsimp only
  rw [isSegments, Option.bind_some, isState]
  exact ⟨_, rfl⟩

end LlmRuntime.LlamaCore
