import LlmRuntime.Library.MachineInt
import LlmRuntime.Llama.Checkpoint

/-!
# The layout of a checkpoint, in the arithmetic of the machine

`memory_map_weights`, `ckpt_geometry` and `llama_head_tail_offsets` walk over a
checkpoint and mix 32-bit and 64-bit integers.  The last skips the rotation
tables with a product that is not rounded, where the first rounds two halves
down.
-/

namespace LlmRuntime.LlamaCore

open DistInf MachineInt

/-- The pointers of `TransformerWeights`, as byte addresses. -/
structure WeightPointers where
  tokenEmbeddingTable : Int
  rmsAttWeight : Int
  wq : Int
  wk : Int
  wv : Int
  wo : Int
  rmsFfnWeight : Int
  w1 : Int
  w2 : Int
  w3 : Int
  rmsFinalWeight : Int
  wcls : Int
  deriving DecidableEq

/-- A `float *` moved by `count` elements. -/
def pointerAdd (ptr count : Int) : Int := uint64 (ptr + 4 * count)

def memoryMapPointers (p : Config) (ptr : Int) (sharedWeights : Bool) : WeightPointers :=
  let headSize := Int.tdiv p.dim p.nHeads
  let nLayers := uint64 p.nLayers
  let rmsAttWeight := pointerAdd ptr (int32 (p.vocabSize * p.dim))
  let wq := pointerAdd rmsAttWeight (uint64 (nLayers * p.dim))
  let wk := pointerAdd wq (uint64 (uint64 (nLayers * p.dim) * int32 (p.nHeads * headSize)))
  let wv := pointerAdd wk (uint64 (uint64 (nLayers * p.dim) * int32 (p.nKvHeads * headSize)))
  let wo := pointerAdd wv (uint64 (uint64 (nLayers * p.dim) * int32 (p.nKvHeads * headSize)))
  let rmsFfnWeight :=
    pointerAdd wo (uint64 (uint64 (nLayers * int32 (p.nHeads * headSize)) * p.dim))
  let w1 := pointerAdd rmsFfnWeight (uint64 (nLayers * p.dim))
  let w2 := pointerAdd w1 (uint64 (uint64 (nLayers * p.dim) * p.hiddenDim))
  let w3 := pointerAdd w2 (uint64 (uint64 (nLayers * p.hiddenDim) * p.dim))
  let rmsFinalWeight := pointerAdd w3 (uint64 (uint64 (nLayers * p.dim) * p.hiddenDim))
  -- the tables of the rotation are skipped
  let real := pointerAdd rmsFinalWeight p.dim
  let imag := pointerAdd real (Int.tdiv (int32 (p.seqLen * headSize)) 2)
  let tail := pointerAdd imag (Int.tdiv (int32 (p.seqLen * headSize)) 2)
  { tokenEmbeddingTable := ptr
    rmsAttWeight := rmsAttWeight
    wq := wq
    wk := wk
    wv := wv
    wo := wo
    rmsFfnWeight := rmsFfnWeight
    w1 := w1
    w2 := w2
    w3 := w3
    rmsFinalWeight := rmsFinalWeight
    wcls := if sharedWeights then ptr else tail }

def llamaLayerPointers (w : WeightPointers) (p : Config) (l : Int) : List Int :=
  let kvDim := Int.tdiv (int32 (p.dim * p.nKvHeads)) p.nHeads
  let ll := uint64 l
  [pointerAdd w.rmsAttWeight (uint64 (ll * p.dim)),
    pointerAdd w.wq (uint64 (uint64 (ll * p.dim) * p.dim)),
    pointerAdd w.wk (uint64 (uint64 (ll * p.dim) * kvDim)),
    pointerAdd w.wv (uint64 (uint64 (ll * p.dim) * kvDim)),
    pointerAdd w.wo (uint64 (uint64 (ll * p.dim) * p.dim)),
    pointerAdd w.rmsFfnWeight (uint64 (ll * p.dim)),
    pointerAdd w.w1 (uint64 (uint64 (ll * p.dim) * p.hiddenDim)),
    pointerAdd w.w2 (uint64 (uint64 (ll * p.dim) * p.hiddenDim)),
    pointerAdd w.w3 (uint64 (uint64 (ll * p.dim) * p.hiddenDim))]

/-- The floats that the kernels read behind these pointers: a vector of
`rmsnorm`, or `n * d` of a `matmul`. -/
def layerTensorFloats (p : Config) : List Int :=
  let kvDim := Int.tdiv (int32 (p.dim * p.nKvHeads)) p.nHeads
  [p.dim, p.dim * p.dim, p.dim * kvDim, p.dim * kvDim, p.dim * p.dim, p.dim,
    p.dim * p.hiddenDim, p.hiddenDim * p.dim, p.dim * p.hiddenDim]

/-- `ckpt_geom_t`. -/
structure CkptGeom where
  base : List Int
  stride : List Int

def ckptGeometry (p : Config) : CkptGeom :=
  let dim := uint64 p.dim
  let hidden := uint64 p.hiddenDim
  let nLayers := uint64 p.nLayers
  let headSize := dim / uint64 p.nHeads
  let kvDim := uint64 (headSize * p.nKvHeads)
  let vocab := uint64 (if p.vocabSize < 0 then int32 (-p.vocabSize) else p.vocabSize)
  let rmsAtt := uint64 (vocab * dim)
  let wq := uint64 (rmsAtt + uint64 (nLayers * dim))
  let wk := uint64 (wq + uint64 (uint64 (nLayers * dim) * dim))
  let wv := uint64 (wk + uint64 (uint64 (nLayers * dim) * kvDim))
  let wo := uint64 (wv + uint64 (uint64 (nLayers * dim) * kvDim))
  let rmsFfn := uint64 (wo + uint64 (uint64 (nLayers * dim) * dim))
  let w1 := uint64 (rmsFfn + uint64 (nLayers * dim))
  let w2 := uint64 (w1 + uint64 (uint64 (nLayers * dim) * hidden))
  let w3 := uint64 (w2 + uint64 (uint64 (nLayers * hidden) * dim))
  { base := [rmsAtt, wq, wk, wv, wo, rmsFfn, w1, w2, w3]
    stride :=
      [dim, uint64 (dim * dim), uint64 (dim * kvDim), uint64 (dim * kvDim),
        uint64 (dim * dim), dim, uint64 (dim * hidden),
        uint64 (hidden * dim), uint64 (dim * hidden)] }

/-- A range of bytes of the file. -/
structure ByteRange where
  start : Nat
  length : Nat
  deriving DecidableEq, Repr

namespace ByteRange

def stop (range : ByteRange) : Nat := range.start + range.length

def Disjoint (left right : ByteRange) : Prop := left.stop ≤ right.start ∨ right.stop ≤ left.start

end ByteRange

/-- The range that `shard_load` asks for, after its casts. -/
def fetchedRange (cfg : Config) (l i : Nat) : ByteRange :=
  let g := ckptGeometry cfg
  let elems := g.stride.getD i 0
  let srcOff :=
    uint64 (ckptHeaderBytes + uint64 (uint64 (g.base.getD i 0 + uint64 (l * elems)) * 4))
  { start := (UInt32.ofInt srcOff).toNat
    length := (UInt32.ofInt (uint64 (elems * 4))).toNat }

/-- The header with the absolute value of `vocab_size`. -/
def absVocab (cfg : Config) : Config :=
  { cfg with vocabSize := cfg.vocabSize.natAbs }

/-- The range that a layer of the mapped file has for a tensor. -/
def mappedRange (cfg : Config) (l i : Nat) : ByteRange :=
  let p := absVocab cfg
  let w := memoryMapPointers p ckptHeaderBytes (decide (cfg.vocabSize > 0))
  { start := ((llamaLayerPointers w p l).getD i 0).toNat
    length := 4 * ((layerTensorFloats p).getD i 0).toNat }

def checkpointBytes (cfg : Config) (sharedWeights : Bool) : Nat :=
  ckptHeaderBytes + 4 * checkpointFloats (geometryOf cfg) sharedWeights

structure HeadTail where
  embedOff : Int
  embedBytes : Int
  finalOff : Int
  finalBytes : Int
  wclsOff : Int
  wclsBytes : Int
  deriving DecidableEq

def llamaHeadTailOffsets (p : Config) (sharedWeights : Bool) : HeadTail :=
  let headSize := Int.tdiv p.dim p.nHeads
  let nLayers := uint64 p.nLayers
  let vocab := uint64 (if p.vocabSize < 0 then int32 (-p.vocabSize) else p.vocabSize)
  let rmsAtt := uint64 (vocab * p.dim)
  let wq := uint64 (rmsAtt + uint64 (nLayers * p.dim))
  let wk := uint64 (wq + uint64 (uint64 (nLayers * p.dim) * int32 (p.nHeads * headSize)))
  let wv := uint64 (wk + uint64 (uint64 (nLayers * p.dim) * int32 (p.nKvHeads * headSize)))
  let wo := uint64 (wv + uint64 (uint64 (nLayers * p.dim) * int32 (p.nKvHeads * headSize)))
  let rmsFfn := uint64 (wo + uint64 (uint64 (nLayers * int32 (p.nHeads * headSize)) * p.dim))
  let w1 := uint64 (rmsFfn + uint64 (nLayers * p.dim))
  let w2 := uint64 (w1 + uint64 (uint64 (nLayers * p.dim) * p.hiddenDim))
  let w3 := uint64 (w2 + uint64 (uint64 (nLayers * p.hiddenDim) * p.dim))
  let final := uint64 (w3 + uint64 (uint64 (nLayers * p.dim) * p.hiddenDim))
  let tables := uint64 (final + p.dim)
  let wcls := uint64 (tables + uint64 (uint64 p.seqLen * headSize))
  let embedOff := uint64 (ckptHeaderBytes + uint64 (0 * 4))
  let embedBytes := uint64 (uint64 (vocab * p.dim) * 4)
  { embedOff := embedOff
    embedBytes := embedBytes
    finalOff := uint64 (ckptHeaderBytes + uint64 (final * 4))
    finalBytes := uint64 (uint64 p.dim * 4)
    wclsOff :=
      if sharedWeights then embedOff
      else uint64 (ckptHeaderBytes + uint64 (wcls * 4))
    wclsBytes :=
      if sharedWeights then embedBytes
      else uint64 (uint64 (vocab * p.dim) * 4) }

def intConfig (p : Geometry) : Config where
  dim := p.dim
  hiddenDim := p.hiddenDim
  nLayers := p.nLayers
  nHeads := p.nHeads
  nKvHeads := p.nKvHeads
  vocabSize := p.vocabSize
  seqLen := p.seqLen

theorem absVocab_eq {cfg : Config} (accepted : cfg.isPlausible = true) :
    absVocab cfg = intConfig (geometryOf cfg) := by
  rw [Config.isPlausible, decide_eq_true_iff] at accepted
  obtain ⟨dim, hiddenDim, nLayers, nHeads, nKvHeads, -, seqLen, -⟩ := accepted
  simp only [absVocab, intConfig, geometryOf, Config.mk.injEq]
  refine ⟨?_, ?_, ?_, ?_, ?_, trivial, ?_⟩
  all_goals omega

def elementAddr (offset : Nat) : Int := ((ckptHeaderBytes + 4 * offset : Nat) : Int)

theorem pointerAdd_elementAddr {offset count : Nat} (small : offset + count < 2 ^ 32) :
    pointerAdd (elementAddr offset) (count : Int) = elementAddr (offset + count) := by
  have header : ckptHeaderBytes = 28 := rfl
  unfold pointerAdd elementAddr uint64
  rw [header]
  omega

/-- An accepted header whose checkpoint is shorter than `2 ^ 32` bytes. -/
structure Geometry.Mappable (p : Geometry) : Prop where
  isPlausible : p.Plausible
  tail : ckptHeaderBytes + 4 * (weightOffsets p).tail < 2 ^ 32

/-- The steps of the walk of `memory_map_weights` and the offsets between
them. -/
structure Geometry.StepsSmall (p : Geometry) : Prop where
  embedding : p.vocabSize * p.dim < 2 ^ 30
  vectors : p.nLayers * p.dim < 2 ^ 30
  query : p.nLayers * p.dim * (p.nHeads * p.headSize) < 2 ^ 30
  keys : p.nLayers * p.dim * (p.nKvHeads * p.headSize) < 2 ^ 30
  output : p.nLayers * (p.nHeads * p.headSize) * p.dim < 2 ^ 30
  up : p.nLayers * p.dim * p.hiddenDim < 2 ^ 30
  down : p.nLayers * p.hiddenDim * p.dim < 2 ^ 30
  tables : p.seqLen * p.headSize < 2 ^ 31
  tail : (weightOffsets p).tail < 2 ^ 30

theorem Geometry.headSize_cast (p : Geometry) :
    Int.tdiv (p.dim : Int) (p.nHeads : Int) = (p.headSize : Int) :=
  (Int.ofNat_tdiv p.dim p.nHeads).symm

namespace Geometry.Mappable

variable {p : Geometry} (mappable : p.Mappable)

include mappable

theorem stepsSmall : p.StepsSmall := by
  have total := mappable.tail
  have tail : (weightOffsets p).tail < 2 ^ 30 := by omega
  simp only [weightOffsets] at total
  constructor
  all_goals omega

theorem factors :
    p.nLayers < 2 ^ 30 ∧ p.dim < 2 ^ 30 ∧
      p.nHeads * p.headSize < 2 ^ 30 ∧
      p.nKvHeads * p.headSize < 2 ^ 30 ∧
      p.nLayers * (p.nHeads * p.headSize) < 2 ^ 30 ∧
      p.nLayers * p.hiddenDim < 2 ^ 30 := by
  have steps := mappable.stepsSmall
  have dim := mappable.isPlausible.dim
  have layers := mappable.isPlausible.nLayers
  have vectors : 0 < p.nLayers * p.dim := Nat.mul_pos layers dim
  refine ⟨?_, ?_, ?_, ?_, ?_, ?_⟩
  · exact (Nat.le_mul_of_pos_right _ dim).trans_lt steps.vectors
  · exact (Nat.le_mul_of_pos_left _ layers).trans_lt steps.vectors
  · exact (Nat.le_mul_of_pos_left _ vectors).trans_lt steps.query
  · exact (Nat.le_mul_of_pos_left _ vectors).trans_lt steps.keys
  · exact (Nat.le_mul_of_pos_right _ dim).trans_lt steps.output
  · exact (Nat.le_mul_of_pos_right _ dim).trans_lt steps.down

/-- `memory_map_weights` finds the tensors where `weightOffsets` says. -/
theorem memoryMapPointers_eq (sharedWeights : Bool) :
    memoryMapPointers (intConfig p) ckptHeaderBytes sharedWeights =
      { tokenEmbeddingTable :=
          elementAddr (weightOffsets p).tokenEmbeddingTable
        rmsAttWeight := elementAddr (weightOffsets p).rmsAttWeight
        wq := elementAddr (weightOffsets p).wq
        wk := elementAddr (weightOffsets p).wk
        wv := elementAddr (weightOffsets p).wv
        wo := elementAddr (weightOffsets p).wo
        rmsFfnWeight := elementAddr (weightOffsets p).rmsFfnWeight
        w1 := elementAddr (weightOffsets p).w1
        w2 := elementAddr (weightOffsets p).w2
        w3 := elementAddr (weightOffsets p).w3
        rmsFinalWeight := elementAddr (weightOffsets p).rmsFinalWeight
        wcls :=
          if sharedWeights then elementAddr (weightOffsets p).tokenEmbeddingTable
          else elementAddr (weightOffsets p).tail } := by
  obtain ⟨embedding, vectors, query, keys, output, up, down, tables, tail⟩ := mappable.stepsSmall
  obtain ⟨layers, dim, heads, kvHeads, rows, hidden⟩ := mappable.factors
  have base : (ckptHeaderBytes : Int) = elementAddr 0 := rfl
  have halves :
      Int.tdiv ((p.seqLen * p.headSize : Nat) : Int) 2 =
        ((p.seqLen * p.headSize / 2 : Nat) : Int) :=
    (Int.ofNat_tdiv _ 2).symm
  simp only [weightOffsets] at tail ⊢
  simp (disch := omega) only [memoryMapPointers, intConfig,
    p.headSize_cast, uint64_natCast, uint64_mul, int32_mul, halves, base]
  -- the walk is about the lengths of its steps only
  clear embedding vectors query keys output up down tables halves
  clear layers dim heads kvHeads rows hidden
  generalize p.vocabSize * p.dim = embedding at tail ⊢
  generalize p.nLayers * p.dim * (p.nHeads * p.headSize) = query at tail ⊢
  generalize p.nLayers * p.dim * (p.nKvHeads * p.headSize) = keys at tail ⊢
  generalize p.nLayers * (p.nHeads * p.headSize) * p.dim = output at tail ⊢
  generalize p.nLayers * p.dim * p.hiddenDim = up at tail ⊢
  generalize p.nLayers * p.hiddenDim * p.dim = down at tail ⊢
  generalize p.nLayers * p.dim = vectors at tail ⊢
  generalize p.seqLen * p.headSize / 2 = table at tail ⊢
  simp (disch := omega) only [pointerAdd_elementAddr, Nat.zero_add]

theorem layerOffsets_eq :
    [(weightOffsets p).rmsAttWeight, (weightOffsets p).wq,
        (weightOffsets p).wk, (weightOffsets p).wv, (weightOffsets p).wo,
        (weightOffsets p).rmsFfnWeight, (weightOffsets p).w1,
        (weightOffsets p).w2, (weightOffsets p).w3] =
      (List.range 9).map (ckptBase p) :=
  congrArg (List.take 9) (weightOffsets_eq mappable.isPlausible.heads)

theorem vocab_cast {cfg : Config} (isVocab : cfg.vocabSize.natAbs = p.vocabSize) :
    uint64
        (if cfg.vocabSize < 0 then int32 (-cfg.vocabSize)
          else cfg.vocabSize) =
      (p.vocabSize : Int) := by
  have small : p.vocabSize < 2 ^ 30 :=
    (Nat.le_mul_of_pos_right _ mappable.isPlausible.dim).trans_lt mappable.stepsSmall.embedding
  have isAbs :
      (if cfg.vocabSize < 0 then int32 (-cfg.vocabSize)
        else cfg.vocabSize) = (p.vocabSize : Int) := by
    split_ifs with negative
    · have opposite : -cfg.vocabSize = (p.vocabSize : Int) := by omega
      rw [opposite, int32_natCast (by omega)]
    · omega
  rw [isAbs, uint64_natCast (by omega)]

/-- `ckpt_geometry` finds the tensors of the layers at the same elements. -/
theorem ckptGeometry_eq {cfg : Config} (isConfig : absVocab cfg = intConfig p) :
    (ckptGeometry cfg).base = ((List.range 9).map (ckptBase p)).map (Nat.cast : Nat → Int) ∧
      (ckptGeometry cfg).stride = (ckptStrides p).map (Nat.cast : Nat → Int) := by
  simp only [absVocab, intConfig, Config.mk.injEq] at isConfig
  obtain ⟨isDim, isHidden, isLayers, isHeads, isKv, isVocab, -⟩ := isConfig
  have vocab := mappable.vocab_cast (Int.natCast_inj.mp isVocab)
  have perHead : (p.dim : Int) / (p.nHeads : Int) = (p.headSize : Int) :=
    (Int.natCast_ediv p.dim p.nHeads).symm
  have heads := mappable.isPlausible.heads
  have kvWidth : p.nKvHeads * p.headSize = p.headSize * p.nKvHeads := Nat.mul_comm _ _
  obtain ⟨embedding, vectors, query, keys, -, up, down, -, tail⟩ := mappable.stepsSmall
  obtain ⟨layers, dim, -, kvHeads, -, hidden⟩ := mappable.factors
  rw [heads] at query
  rw [kvWidth] at keys kvHeads
  have positive := mappable.isPlausible.nLayers
  have square : p.dim * p.dim < 2 ^ 30 := by
    rw [Nat.mul_assoc] at query
    exact (Nat.le_mul_of_pos_left _ positive).trans_lt query
  have keyRows : p.dim * (p.headSize * p.nKvHeads) < 2 ^ 30 := by
    rw [Nat.mul_assoc] at keys
    exact (Nat.le_mul_of_pos_left _ positive).trans_lt keys
  have upRows : p.dim * p.hiddenDim < 2 ^ 30 := by
    rw [Nat.mul_assoc] at up
    exact (Nat.le_mul_of_pos_left _ positive).trans_lt up
  have downRows : p.hiddenDim * p.dim < 2 ^ 30 := by
    rw [Nat.mul_comm]
    exact upRows
  have hiddenDim : p.hiddenDim < 2 ^ 30 := (Nat.le_mul_of_pos_left _ positive).trans_lt hidden
  have nHeads : p.nHeads < 2 ^ 30 :=
    (Nat.le_of_dvd mappable.isPlausible.dim mappable.isPlausible.divides).trans_lt dim
  have offsets := mappable.layerOffsets_eq
  simp only [weightOffsets, heads, kvWidth] at tail offsets
  rw [← offsets]
  simp (disch := omega) only [ckptGeometry, isDim, isHidden, isLayers,
    isHeads, isKv, vocab, perHead, uint64_natCast, uint64_mul]
  refine ⟨?_, rfl⟩
  clear offsets embedding vectors query keys up down layers dim kvHeads hidden
  clear square keyRows upRows downRows hiddenDim nHeads
  generalize p.vocabSize * p.dim = embedding at tail ⊢
  generalize p.nLayers * p.dim * (p.headSize * p.nKvHeads) = keys at tail ⊢
  generalize p.nLayers * p.dim * p.hiddenDim = up at tail ⊢
  generalize p.nLayers * p.hiddenDim * p.dim = down at tail ⊢
  generalize p.nLayers * p.dim * p.dim = query at tail ⊢
  generalize p.nLayers * p.dim = vectors at tail ⊢
  simp (disch := omega) only [uint64_add]
  rfl

/-! ## The range of a tensor -/

theorem element_lt {l i : Nat} (isLayer : l < p.nLayers) (isTensor : i < 9) :
    ckptBase p i + l * ckptStride p i + ckptStride p i ≤ (weightOffsets p).tail := by
  have ends := ckptBase_add_le mappable.isPlausible.heads isTensor isLayer
  have within := rmsFinalWeight_le p true
  rw [checkpointFloats, if_pos rfl, Nat.add_zero] at within
  exact ends.trans within

theorem fetchedRange_eq {cfg : Config} (isConfig : absVocab cfg = intConfig p)
    {l i : Nat} (isLayer : l < p.nLayers) (isTensor : i < 9) :
    fetchedRange cfg l i =
      { start :=
          ckptHeaderBytes + 4 * (ckptBase p i + l * ckptStride p i)
        length := 4 * ckptStride p i } := by
  obtain ⟨isBase, isStride⟩ := mappable.ckptGeometry_eq isConfig
  have base : (ckptGeometry cfg).base.getD i 0 = (ckptBase p i : Int) := by
    rw [isBase, List.getD_eq_getElem?_getD, List.getElem?_map,
      List.getElem?_map, List.getElem?_range isTensor]
    rfl
  have stride : (ckptGeometry cfg).stride.getD i 0 = (ckptStride p i : Int) := by
    rw [isStride, ckptStride]
    exact List.getD_map (ckptStrides p) 0 (Nat.cast : Nat → Int)
  have header : ckptHeaderBytes = 28 := rfl
  have ends := mappable.element_lt isLayer isTensor
  have total := mappable.tail
  rw [header] at total
  have four : (4 : Int) = ((4 : Nat) : Int) := rfl
  simp (disch := omega) only [fetchedRange, base, stride, header, four,
    uint64_mul, uint64_add, uint32_natCast, ByteRange.mk.injEq]
  exact ⟨by omega, Nat.mul_comm _ _⟩

theorem kvDim_cast :
    Int.tdiv (int32 ((p.dim : Int) * (p.nKvHeads : Int))) (p.nHeads : Int) = (p.kvDim : Int) := by
  have keys := mappable.stepsSmall.keys
  have headSize := mappable.isPlausible.headSize_pos
  have small : p.dim * p.nKvHeads < 2 ^ 31 := by
    have step : p.dim * p.nKvHeads ≤ p.nLayers * p.dim * (p.nKvHeads * p.headSize) :=
      Nat.mul_le_mul (Nat.le_mul_of_pos_left _ mappable.isPlausible.nLayers)
        (Nat.le_mul_of_pos_right _ headSize)
    omega
  rw [int32_mul small, ← Int.ofNat_tdiv]
  rfl

theorem llamaLayerPointers_eq (sharedWeights : Bool) {l : Nat} (isLayer : l < p.nLayers) :
    llamaLayerPointers (memoryMapPointers (intConfig p) ckptHeaderBytes sharedWeights)
        (intConfig p) l =
      (List.range 9).map (fun i => elementAddr (ckptBase p i + l * ckptStride p i)) := by
  have kvDim := mappable.kvDim_cast
  have isKvDim := mappable.isPlausible.kvDim_eq
  have small := mappable.stepsSmall.tail
  have bound : ∀ i, i < 9 → ckptBase p i + l * ckptStride p i < 2 ^ 30 := by
    intro i isTensor
    have ends := mappable.element_lt isLayer isTensor
    omega
  -- the strides in the form that `llama_layer_at` multiplies them out
  have square : l * p.dim * p.dim = l * ckptStride p 1 := Nat.mul_assoc _ _ _
  have keys : l * p.dim * p.kvDim = l * ckptStride p 2 := by
    rw [← isKvDim]
    exact Nat.mul_assoc _ _ _
  have up : l * p.dim * p.hiddenDim = l * ckptStride p 6 := Nat.mul_assoc _ _ _
  have swapped : ckptStride p 7 = ckptStride p 6 := Nat.mul_comm _ _
  have vectorSmall : ckptBase p 0 + l * p.dim < 2 ^ 30 := bound 0 (by decide)
  have querySmall := bound 1 (by decide)
  have keySmall := bound 2 (by decide)
  have valueSmall : ckptBase p 3 + l * ckptStride p 2 < 2 ^ 30 := bound 3 (by decide)
  have outputSmall : ckptBase p 4 + l * ckptStride p 1 < 2 ^ 30 := bound 4 (by decide)
  have ffnSmall : ckptBase p 5 + l * p.dim < 2 ^ 30 := bound 5 (by decide)
  have upSmall := bound 6 (by decide)
  have downSmall := bound 7 (by decide)
  have gateSmall : ckptBase p 8 + l * ckptStride p 6 < 2 ^ 30 := bound 8 (by decide)
  rw [swapped] at downSmall
  have layer : l < 2 ^ 30 := isLayer.trans mappable.factors.1
  have offsets := mappable.layerOffsets_eq
  have unroll (addr : Nat → Int) :
      (List.range 9).map addr =
        [addr 0, addr 1, addr 2, addr 3, addr 4, addr 5, addr 6, addr 7, addr 8] :=
    rfl
  simp only [List.range_succ, List.range_zero, List.nil_append, List.cons_append, List.map_cons,
    List.map_nil, List.cons.injEq, and_true] at offsets
  obtain ⟨at0, at1, at2, at3, at4, at5, at6, at7, at8⟩ := offsets
  rw [mappable.memoryMapPointers_eq sharedWeights, unroll]
  simp (disch := omega) only [llamaLayerPointers, intConfig, kvDim, uint64_natCast, uint64_mul,
    pointerAdd_elementAddr, square, keys, up, swapped, at0, at1, at2, at3, at4, at5, at6, at7, at8]
  rfl

theorem mappedRange_eq {cfg : Config} (isConfig : absVocab cfg = intConfig p)
    {l i : Nat} (isLayer : l < p.nLayers) (isTensor : i < 9) :
    mappedRange cfg l i =
      { start :=
          ckptHeaderBytes + 4 * (ckptBase p i + l * ckptStride p i)
        length := 4 * ckptStride p i } := by
  have pointer :
      ((List.range 9).map
          fun i => elementAddr (ckptBase p i + l * ckptStride p i)).getD
          i 0 =
        elementAddr (ckptBase p i + l * ckptStride p i) := by
    rw [List.getD_eq_getElem?_getD, List.getElem?_map, List.getElem?_range isTensor]
    rfl
  have floats : layerTensorFloats (intConfig p) = (ckptStrides p).map (Nat.cast : Nat → Int) := by
    simp only [layerTensorFloats, intConfig, mappable.kvDim_cast, ckptStrides,
      mappable.isPlausible.kvDim_eq, List.map_cons, List.map_nil, Int.natCast_mul]
  have stride : ((ckptStrides p).map (Nat.cast : Nat → Int)).getD i 0 = (ckptStride p i : Int) :=
    List.getD_map (ckptStrides p) 0 (Nat.cast : Nat → Int)
  simp only [mappedRange, isConfig, mappable.llamaLayerPointers_eq _ isLayer,
    pointer, floats, stride]
  rfl

/-- `llama_head_tail_offsets` skips the tables of the rotation without rounding
them. -/
theorem llamaHeadTailOffsets_eq {cfg : Config}
    (isConfig : absVocab cfg = intConfig p) (sharedWeights : Bool) :
    llamaHeadTailOffsets cfg sharedWeights =
      { embedOff := elementAddr (weightOffsets p).tokenEmbeddingTable
        embedBytes := ((p.vocabSize * p.dim * 4 : Nat) : Int)
        finalOff := elementAddr (weightOffsets p).rmsFinalWeight
        finalBytes := ((p.dim * 4 : Nat) : Int)
        wclsOff :=
          if sharedWeights then elementAddr (weightOffsets p).tokenEmbeddingTable
          else elementAddr ((weightOffsets p).rmsFinalWeight + p.dim + p.seqLen * p.headSize)
        wclsBytes := ((p.vocabSize * p.dim * 4 : Nat) : Int) } := by
  simp only [absVocab, intConfig, Config.mk.injEq] at isConfig
  obtain ⟨isDim, isHidden, isLayers, isHeads, isKv, isVocab, isSeq⟩ := isConfig
  have vocab := mappable.vocab_cast (Int.natCast_inj.mp isVocab)
  obtain ⟨embedding, vectors, query, keys, output, up, down, tables, tail⟩ := mappable.stepsSmall
  obtain ⟨layers, dim, heads, kvHeads, rows, hidden⟩ := mappable.factors
  have seqLen : p.seqLen < 2 ^ 31 :=
    (Nat.le_mul_of_pos_right _ mappable.isPlausible.headSize_pos).trans_lt tables
  have header : (ckptHeaderBytes : Int) = ((28 : Nat) : Int) := rfl
  have four : (4 : Int) = ((4 : Nat) : Int) := rfl
  have embed : uint64 (((28 : Nat) : Int) + uint64 (0 * ((4 : Nat) : Int))) = elementAddr 0 := by
    decide
  have element (offset : Nat) : ((28 + offset * 4 : Nat) : Int) = elementAddr offset := by
    rw [Nat.mul_comm]
    rfl
  have bytes : p.vocabSize * p.dim * 4 < 2 ^ 64 := by omega
  simp only [weightOffsets] at tail
  simp (disch := omega) only [llamaHeadTailOffsets, isDim, isHidden, isLayers, isHeads, isKv, isSeq,
    vocab, p.headSize_cast, header, four, uint64_natCast, uint64_mul, int32_mul, weightOffsets]
  clear embedding vectors query keys output up down
  clear layers heads kvHeads rows hidden seqLen
  generalize p.vocabSize * p.dim = embedding at tail bytes ⊢
  generalize p.nLayers * p.dim * (p.nHeads * p.headSize) = query at tail ⊢
  generalize p.nLayers * p.dim * (p.nKvHeads * p.headSize) = keys at tail ⊢
  generalize p.nLayers * (p.nHeads * p.headSize) * p.dim = output at tail ⊢
  generalize p.nLayers * p.dim * p.hiddenDim = up at tail ⊢
  generalize p.nLayers * p.hiddenDim * p.dim = down at tail ⊢
  generalize p.nLayers * p.dim = vectors at tail ⊢
  generalize p.seqLen * p.headSize = table at tables tail ⊢
  simp (disch := omega) only [uint64_add, uint64_mul, embed, element, ite_self]

end Geometry.Mappable

theorem geometryOf_mappable {cfg : Config} (accepted : cfg.isPlausible = true)
    {sharedWeights : Bool} (short : checkpointBytes cfg sharedWeights < 2 ^ 32) :
    (geometryOf cfg).Mappable := by
  refine ⟨geometryOf_isPlausible accepted, ?_⟩
  rw [checkpointBytes, checkpointFloats] at short
  omega

/-- The tensors that a shard fetches against those of the mapped file. -/
structure LayoutMatches (cfg : Config) : Prop where
  same : ∀ l i : Nat, (l : Int) < cfg.nLayers → i < 9 → fetchedRange cfg l i = mappedRange cfg l i
  inside : ∀ l i : Nat, (l : Int) < cfg.nLayers → i < 9 →
    (fetchedRange cfg l i).stop ≤ checkpointBytes cfg (decide (cfg.vocabSize > 0))
  disjoint : ∀ l i l' i' : Nat, (l : Int) < cfg.nLayers → i < 9 →
    (l' : Int) < cfg.nLayers → i' < 9 → (l, i) ≠ (l', i') →
      (fetchedRange cfg l i).Disjoint (fetchedRange cfg l' i')
  adjacent : ∀ l i : Nat, ((l + 1 : Nat) : Int) < cfg.nLayers → i < 9 →
    (fetchedRange cfg l i).stop = (fetchedRange cfg (l + 1) i).start

theorem elements_disjoint (p : Geometry) {l i l' i' : Nat}
    (isLayer : l < p.nLayers) (isTensor : i < 9) (isLayer' : l' < p.nLayers)
    (isTensor' : i' < 9) (different : (l, i) ≠ (l', i')) :
    ckptBase p i + l * ckptStride p i + ckptStride p i ≤ ckptBase p i' + l' * ckptStride p i' ∨
      ckptBase p i' + l' * ckptStride p i' + ckptStride p i' ≤
        ckptBase p i + l * ckptStride p i := by
  have earlier (m n : Nat) (ordered : m < n) :
      m * ckptStride p i + ckptStride p i ≤ n * ckptStride p i := by
    rw [← Nat.succ_mul]
    exact Nat.mul_le_mul_right _ ordered
  rcases lt_trichotomy i i' with before | rfl | after
  · have ends := ckptBase_add_le_of_lt before isTensor'.le isLayer
    omega
  · rcases lt_trichotomy l l' with before | rfl | after
    · have ends := earlier l l' before
      omega
    · exact absurd rfl different
    · have ends := earlier l' l after
      omega
  · have ends := ckptBase_add_le_of_lt after isTensor.le isLayer'
    omega

/-- A shard fetches every tensor from the bytes at which the mapped file has
it. -/
theorem shard_layout_matches (cfg : Config) (accepted : cfg.isPlausible = true)
    (short : checkpointBytes cfg (decide (cfg.vocabSize > 0)) < 2 ^ 32) :
    LayoutMatches cfg := by
  have mappable := geometryOf_mappable accepted short
  have isConfig := absVocab_eq accepted
  have layer {l : Nat} (isLayer : (l : Int) < cfg.nLayers) : l < (geometryOf cfg).nLayers := by
    change l < cfg.nLayers.natAbs
    omega
  have fetched {l i : Nat} (isLayer : (l : Int) < cfg.nLayers) (isTensor : i < 9) :=
    mappable.fetchedRange_eq isConfig (layer isLayer) isTensor
  constructor
  · intro l i isLayer isTensor
    rw [fetched isLayer isTensor]
    exact (mappable.mappedRange_eq isConfig (layer isLayer) isTensor).symm
  · intro l i isLayer isTensor
    have ends := ckptBase_add_le mappable.isPlausible.heads isTensor (layer isLayer)
    have within := rmsFinalWeight_le (geometryOf cfg) (decide (cfg.vocabSize > 0))
    rw [fetched isLayer isTensor, checkpointBytes]
    simp only [ByteRange.stop]
    omega
  · intro l i l' i' isLayer isTensor isLayer' isTensor' different
    have apart :=
      elements_disjoint (geometryOf cfg) (layer isLayer) isTensor
        (layer isLayer') isTensor' different
    rw [fetched isLayer isTensor, fetched isLayer' isTensor']
    simp only [ByteRange.Disjoint, ByteRange.stop]
    omega
  · intro l i isLayer isTensor
    have next :
        (l + 1) * ckptStride (geometryOf cfg) i =
          l * ckptStride (geometryOf cfg) i + ckptStride (geometryOf cfg) i :=
      Nat.succ_mul _ _
    rw [fetched isLayer isTensor, fetched (by omega) isTensor]
    simp only [ByteRange.stop]
    omega

/-- A header with an odd number of rotated pairs. -/
def oddHeader : Config where
  dim := 3
  hiddenDim := 2
  nLayers := 2
  nHeads := 1
  nKvHeads := 1
  vocabSize := -5
  seqLen := 1

theorem shard_layout_matches_oddHeader :
    (oddHeader.isPlausible = true ∧ checkpointBytes oddHeader false < 2 ^ 32) ∧
      LayoutMatches oddHeader :=
  ⟨⟨by decide, by decide⟩, shard_layout_matches oddHeader (by decide) (by decide)⟩

/-- The head and the tail that the master fetches against those of the mapped
file. -/
structure HeadTailMatches (cfg : Config) (sharedWeights : Bool) : Prop where
  embedding :
    (llamaHeadTailOffsets cfg sharedWeights).embedOff =
      (memoryMapPointers (absVocab cfg) ckptHeaderBytes sharedWeights).tokenEmbeddingTable
  embeddingBytes :
    (llamaHeadTailOffsets cfg sharedWeights).embedBytes = 4 * (cfg.vocabSize.natAbs * cfg.dim)
  final :
    (llamaHeadTailOffsets cfg sharedWeights).finalOff =
      (memoryMapPointers (absVocab cfg) ckptHeaderBytes sharedWeights).rmsFinalWeight
  finalBytes : (llamaHeadTailOffsets cfg sharedWeights).finalBytes = 4 * cfg.dim
  classifier :
    (llamaHeadTailOffsets cfg sharedWeights).wclsOff =
      (memoryMapPointers (absVocab cfg) ckptHeaderBytes sharedWeights).wcls
  classifierBytes :
    (llamaHeadTailOffsets cfg sharedWeights).wclsBytes = 4 * (cfg.vocabSize.natAbs * cfg.dim)

/-- The two walks end at one place if the tables of the rotation have an even
number of floats, and a shared classifier does not depend on it. -/
theorem head_tail_matches_iff (cfg : Config) (sharedWeights : Bool)
    (accepted : cfg.isPlausible = true) (short : checkpointBytes cfg sharedWeights < 2 ^ 32) :
    HeadTailMatches cfg sharedWeights ↔
      sharedWeights = true ∨ 2 ∣ cfg.seqLen * (cfg.dim / cfg.nHeads) := by
  have mappable := geometryOf_mappable accepted short
  have isConfig := absVocab_eq accepted
  have isDim : cfg.dim = ((geometryOf cfg).dim : Int) := congrArg Config.dim isConfig
  have isHeads : cfg.nHeads = ((geometryOf cfg).nHeads : Int) := congrArg Config.nHeads isConfig
  have isSeq : cfg.seqLen = ((geometryOf cfg).seqLen : Int) := congrArg Config.seqLen isConfig
  have isVocab : cfg.vocabSize.natAbs = (geometryOf cfg).vocabSize := rfl
  have offsets := mappable.llamaHeadTailOffsets_eq isConfig sharedWeights
  have pointers := mappable.memoryMapPointers_eq sharedWeights
  rw [← isConfig] at pointers
  have tables :
      cfg.seqLen * (cfg.dim / cfg.nHeads) =
        (((geometryOf cfg).seqLen * (geometryOf cfg).headSize : Nat) : Int) := by
    rw [isDim, isHeads, isSeq, ← Int.natCast_ediv, ← Int.natCast_mul]
    rfl
  have even :
      (2 : Int) ∣ cfg.seqLen * (cfg.dim / cfg.nHeads) ↔
        2 ∣ (geometryOf cfg).seqLen * (geometryOf cfg).headSize := by
    rw [tables]
    exact Int.natCast_dvd_natCast
  have tail :
      (weightOffsets (geometryOf cfg)).tail =
        (weightOffsets (geometryOf cfg)).rmsFinalWeight +
          (geometryOf cfg).dim +
          (geometryOf cfg).seqLen * (geometryOf cfg).headSize / 2 +
          (geometryOf cfg).seqLen * (geometryOf cfg).headSize / 2 :=
    rfl
  rw [even]
  constructor
  · intro matching
    have classifier := matching.classifier
    rw [offsets, pointers] at classifier
    cases sharedWeights with
    | true => exact Or.inl rfl
    | false =>
      right
      simp only [elementAddr, Bool.false_eq_true, if_false] at classifier
      omega
  · intro ends
    constructor
    · rw [offsets, pointers]
    · rw [offsets, isVocab, isDim]
      push_cast
      ring
    · rw [offsets, pointers]
    · rw [offsets, isDim]
      push_cast
      ring
    · rw [offsets, pointers]
      rcases ends with shared | even
      · rw [shared]
        rfl
      · have whole :
            (weightOffsets (geometryOf cfg)).rmsFinalWeight +
                (geometryOf cfg).dim +
                (geometryOf cfg).seqLen * (geometryOf cfg).headSize =
              (weightOffsets (geometryOf cfg)).tail := by
          omega
        rw [whole]
    · rw [offsets, isVocab, isDim]
      push_cast
      ring

theorem head_tail_matches_evenHeader : HeadTailMatches { oddHeader with seqLen := 2 } false :=
  (head_tail_matches_iff { oddHeader with seqLen := 2 } false (by decide)
    (by decide)).mpr (Or.inr (by decide))

/-- With one position of three floats the master reads the classifier one
float too late. -/
theorem head_tail_differs_oddHeader :
    oddHeader.isPlausible = true ∧ checkpointBytes oddHeader false < 2 ^ 32 ∧
      (llamaHeadTailOffsets oddHeader false).wclsOff =
        (memoryMapPointers (absVocab oddHeader) ckptHeaderBytes false).wcls + 4 ∧
      ¬ HeadTailMatches oddHeader false := by
  have apart :
      (llamaHeadTailOffsets oddHeader false).wclsOff =
        (memoryMapPointers (absVocab oddHeader) ckptHeaderBytes false).wcls + 4 := by
    decide
  refine ⟨by decide, by decide, apart, ?_⟩
  intro matching
  have classifier := matching.classifier
  omega

end LlmRuntime.LlamaCore
