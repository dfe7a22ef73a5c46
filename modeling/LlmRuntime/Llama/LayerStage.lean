import LlmRuntime.Library.Pipeline
import LlmRuntime.Llama.Kernels

/-!
# What a layer computes

A layer as a stage of a pipeline, without scratch buffers and cache.  Sums are
taken in the order of the kernels.
-/

namespace LlmRuntime.LlamaCore

open Buffer

universe u

/-- The key and the value of a position. -/
structure KvRow (F : Type u) where
  key : Nat → F
  value : Nat → F

section Stage

variable {F : Type u} [FloatOps F]

def rowAt (rows : List (KvRow F)) (t : Nat) : KvRow F :=
  rows.getD t ⟨fun _ => FloatOps.zero, fun _ => FloatOps.zero⟩

def normalized (weight x : Nat → F) (size : Nat) : Nat → F :=
  fun j => weight j * (rmsScale x size * x j)

/-- The product of a matrix of `d` rows with a vector. -/
def linear (pool : Pool) (w x : Nat → F) (n d : Nat) : Nat → F :=
  fun i => rowDot (pool.takes d) (fun j => w (i * n + j)) x n

/-- The cells `2 m` and `2 m + 1` turned by the angle of their pair. -/
def rotated (p : Geometry) (pos : Nat) (vec : Nat → F) : Nat → F :=
  fun i =>
    let first := 2 * (i / 2)
    let angle := ropeAngle p pos first
    if i = first then vec first * FloatOps.cosf angle - vec (first + 1) * FloatOps.sinf angle
    else vec first * FloatOps.sinf angle + vec (first + 1) * FloatOps.cosf angle

/-- How much a head makes of each position. -/
def attentionWeights (p : Geometry) (q : Nat → F) (rows : List (KvRow F)) (h : Nat) : Nat → F :=
  softmax
    (fun t =>
      dotProductUnrolled (fun i => q (h * p.headSize + i))
          (fun i => (rowAt rows t).key (p.kvHead h + i)) p.headSize /
        FloatOps.sqrtf (FloatOps.ofInt p.headSize))
    rows.length

def attendedCell (p : Geometry) (q : Nat → F) (rows : List (KvRow F)) (h i : Nat) : F :=
  (List.range rows.length).foldl
    (fun sum t =>
      sum + attentionWeights p q rows h t * (rowAt rows t).value (p.kvHead h + i))
    FloatOps.zero

/-- The outputs of all heads, side by side. -/
def attended (p : Geometry) (q : Nat → F) (rows : List (KvRow F)) : Nat → F :=
  fun m => attendedCell p q rows (m / p.headSize) (m % p.headSize)

/-- The activation after the feed-forward part. -/
def fedForward (pool : Pool) (p : Geometry) (layer : LlamaLayer F) (x : Nat → F) : Nat → F :=
  let xb := normalized layer.rmsFfn x p.dim
  let hb := fun i =>
    swiglu (linear pool layer.w1 xb p.dim p.hiddenDim i)
      (linear pool layer.w3 xb p.dim p.hiddenDim i)
  fun i => x i + linear pool layer.w2 hb p.hiddenDim p.dim i

def layerStage (pool : Pool) (p : Geometry) (layer : LlamaLayer F) :
    Pipeline.Stage (Nat → F) (KvRow F) :=
  fun x pos rows =>
    let xb := normalized layer.rmsAtt x p.dim
    let q := rotated p pos (linear pool layer.wq xb p.dim p.dim)
    let row : KvRow F :=
      { key := rotated p pos (linear pool layer.wk xb p.dim p.kvDim)
        value := linear pool layer.wv xb p.dim p.kvDim }
    let mixed := attended p q (rows ++ [row])
    let x := fun i => x i + linear pool layer.wo mixed p.dim p.dim i
    (fedForward pool p layer x, row)

end Stage

end LlmRuntime.LlamaCore
