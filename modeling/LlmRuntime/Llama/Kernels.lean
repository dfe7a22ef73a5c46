import LlmRuntime.Library.Buffer
import LlmRuntime.Llama.ThreadPool

/-!
# The transformer kernels

The kernels of `user/llama_core.c`, loop by loop over buffers that are written
in place.  Nothing is assumed of the operations on floats.  Sizes and indices
are natural numbers, and the items for the thread pool are run one after the
other: they write different cells.
-/

namespace LlmRuntime.LlamaCore

open Buffer Function

universe u

/-- The float operations that the kernels use.  `ofBytes` is what the four bytes
of a float mean, and `ofInt` the conversion from `int`. -/
class FloatOps (F : Type u) extends Add F, Sub F, Mul F, Div F, Neg F where
  ofBytes : UInt8 → UInt8 → UInt8 → UInt8 → F
  ofInt : Nat → F
  zero : F
  one : F
  epsilon : F
  ropeBase : F
  greater : F → F → Bool
  sqrtf : F → F
  expf : F → F
  powf : F → F → F
  cosf : F → F
  sinf : F → F

/-- The fields of a `Config` that has passed the check of its header, with
`vocab_size` by its absolute value. -/
structure Geometry where
  dim : Nat
  hiddenDim : Nat
  nLayers : Nat
  nHeads : Nat
  nKvHeads : Nat
  vocabSize : Nat
  seqLen : Nat
  deriving DecidableEq, Repr

namespace Geometry

def headSize (p : Geometry) : Nat := p.dim / p.nHeads

def kvDim (p : Geometry) : Nat := (p.dim * p.nKvHeads) / p.nHeads

def kvMul (p : Geometry) : Nat := p.nHeads / p.nKvHeads

/-- Where the key and the value of a position are in the caches. -/
def kvRow (p : Geometry) (kvLayer pos : Nat) : Nat := kvLayer * p.seqLen * p.kvDim + pos * p.kvDim

/-- Where the head finds its part of a key or value. -/
def kvHead (p : Geometry) (h : Nat) : Nat := h / p.kvMul * p.headSize

end Geometry

/-- The thread pool of a process. -/
structure Pool where
  initialized : Bool
  threads : Nat
  positive : 0 < threads

/-- The items of a kernel that cuts `total` units of work into blocks of `size`,
as the interval of each. -/
def Pool.handOut (pool : Pool) (total size : Nat) : List (Nat × Nat) :=
  let active := min (Llama.partsOf total size) pool.threads
  ((List.range active).map fun t =>
    (t * size, min (t * size + size) total)).takeWhile fun item =>
      item.1 < total

section Kernels

variable {F : Type u} [FloatOps F]

/-- `1 / sqrt` of the mean square of a vector. -/
def rmsScale (x : Nat → F) (size : Nat) : F :=
  let ss := (List.range size).foldl (fun ss j => ss + x j * x j) FloatOps.zero
  let ss := ss / FloatOps.ofInt size
  let ss := ss + FloatOps.epsilon
  FloatOps.one / FloatOps.sqrtf ss

def rmsnorm (o x weight : Nat → F) (size : Nat) : Nat → F :=
  replaceEach (List.range size) (fun j _ => weight j * (rmsScale x size * x j)) o

/-- `rmsnorm` with the same buffer for input and output. -/
def rmsnormInPlace (x weight : Nat → F) (size : Nat) : Nat → F :=
  replaceEach (List.range size) (fun j value => weight j * (rmsScale x size * value)) x

/-- The sum in the order of the indices. -/
def dotProduct (wRow x : Nat → F) (n : Nat) : F :=
  (List.range n).foldl (fun val j => val + wRow j * x j) FloatOps.zero

/-- Eight sums over every eighth index, and one over the tail. -/
def dotProductUnrolled (wRow x : Nat → F) (n : Nat) : F :=
  let n8 := n / 8 * 8
  let sum (lane : Nat) : F :=
    (List.range (n / 8)).foldl
      (fun sum k => sum + wRow (8 * k + lane) * x (8 * k + lane))
      FloatOps.zero
  let tail := (List.range' n8 (n - n8)).foldl (fun sum j => sum + wRow j * x j) FloatOps.zero
  (sum 0 + sum 1 + sum 2 + sum 3) + (sum 4 + sum 5 + sum 6 + sum 7) + tail

/-- Whether `matmul` gives `d` rows to the pool. -/
def Pool.takes (pool : Pool) (d : Nat) : Bool := ¬ (d < 128 ∨ ¬ pool.initialized)

/-- A row of a product, in the order of summation of its path. -/
def rowDot (pooled : Bool) (wRow x : Nat → F) (n : Nat) : F :=
  if pooled then dotProductUnrolled wRow x n else dotProduct wRow x n

def matmul (pool : Pool) (xout x w : Nat → F) (n d : Nat) : Nat → F :=
  let row (pooled : Bool) (i : Nat) (_ : F) : F := rowDot pooled (fun j => w (i * n + j)) x n
  if pool.takes d then
    (pool.handOut d (Llama.rowsPerThread pool.threads d)).foldl
      (fun xout item =>
        replaceEach (List.range' item.1 (item.2 - item.1)) (row true) xout)
      xout
  else replaceEach (List.range d) (row false) xout

def softmax (x : Nat → F) (size : Nat) : Nat → F :=
  let maxVal :=
    (List.range' 1 (size - 1)).foldl
      (fun maxVal i => if FloatOps.greater (x i) maxVal then x i else maxVal)
      (x 0)
  let (x, sum) :=
    (List.range size).foldl
      (fun (x, sum) i =>
        let x := update x i (FloatOps.expf (x i - maxVal))
        (x, sum + x i))
      (x, FloatOps.zero)
  replaceEach (List.range size) (fun _ value => value / sum) x

/-- The buffers of a process.  `s->k` and `s->v` point into the caches. -/
structure RunState (F : Type u) where
  x : Nat → F
  xb : Nat → F
  xb2 : Nat → F
  hb : Nat → F
  hb2 : Nat → F
  q : Nat → F
  att : Nat → F
  logits : Nat → F
  keyCache : Nat → F
  valueCache : Nat → F

/-- The buffers as `calloc` gives them. -/
def RunState.blank : RunState F where
  x := fun _ => FloatOps.zero
  xb := fun _ => FloatOps.zero
  xb2 := fun _ => FloatOps.zero
  hb := fun _ => FloatOps.zero
  hb2 := fun _ => FloatOps.zero
  q := fun _ => FloatOps.zero
  att := fun _ => FloatOps.zero
  logits := fun _ => FloatOps.zero
  keyCache := fun _ => FloatOps.zero
  valueCache := fun _ => FloatOps.zero

/-- The scores of a head, made into weights in its part of `att`. -/
def headWeights (p : Geometry) (q keys : Nat → F) (pos : Nat) (att : Nat → F) : Nat → F :=
  let scored :=
    replaceEach (List.range (pos + 1))
      (fun t _ =>
        dotProductUnrolled q (fun i => keys (t * p.kvDim + i)) p.headSize /
          FloatOps.sqrtf (FloatOps.ofInt p.headSize))
      att
  softmax scored (pos + 1)

def headSum (p : Geometry) (att values : Nat → F) (pos : Nat) (xb : Nat → F) : Nat → F :=
  let cleared := replaceEach (List.range p.headSize) (fun _ _ => FloatOps.zero) xb
  (List.range (pos + 1)).foldl
    (fun xb t =>
      replaceEach (List.range p.headSize)
        (fun i value => value + att t * values (t * p.kvDim + i)) xb)
    cleared

/-- One head of `worker_do_attention`. -/
def attentionHead (p : Geometry) (layer pos : Nat) (s : RunState F) (h : Nat) : RunState F :=
  let loff := layer * p.seqLen * p.kvDim
  let q := fun i => s.q (h * p.headSize + i)
  let keys := fun i => s.keyCache (loff + p.kvHead h + i)
  let values := fun i => s.valueCache (loff + p.kvHead h + i)
  let att := fromOffset (h * p.seqLen) (headWeights p q keys pos) s.att
  let weights := fun t => att (h * p.seqLen + t)
  { s with
    att := att
    xb := fromOffset (h * p.headSize) (headSum p weights values pos) s.xb }

def workerDoAttention (p : Geometry) (layer pos : Nat) (s : RunState F)
    (item : Nat × Nat) : RunState F :=
  (List.range' item.1 (item.2 - item.1)).foldl (attentionHead p layer pos) s

def multiheadAttention (pool : Pool) (p : Geometry) (layer pos : Nat) (s : RunState F) :
    RunState F :=
  if pos < 32 ∨ ¬ pool.initialized then workerDoAttention p layer pos s (0, p.nHeads)
  else
    (pool.handOut p.nHeads (Llama.partsOf p.nHeads pool.threads)).foldl
      (workerDoAttention p layer pos) s

/-- The nine tensors of a layer. -/
structure LlamaLayer (F : Type u) where
  rmsAtt : Nat → F
  wq : Nat → F
  wk : Nat → F
  wv : Nat → F
  wo : Nat → F
  rmsFfn : Nat → F
  w1 : Nat → F
  w2 : Nat → F
  w3 : Nat → F

/-- The first part of `llama_block`: `q`, and the key and value of the
position in the caches. -/
def projectQkv (pool : Pool) (layer : LlamaLayer F) (p : Geometry) (s : RunState F)
    (x : Nat → F) (row : Nat) : RunState F :=
  let xb := rmsnorm s.xb x layer.rmsAtt p.dim
  { s with
    xb := xb
    q := matmul pool s.q xb layer.wq p.dim p.dim
    keyCache := fromOffset row (fun k => matmul pool k xb layer.wk p.dim p.kvDim) s.keyCache
    valueCache := fromOffset row (fun v => matmul pool v xb layer.wv p.dim p.kvDim) s.valueCache }

def ropeAngle (p : Geometry) (pos i : Nat) : F :=
  let headDim := i % p.headSize
  let freq :=
    FloatOps.one /
      FloatOps.powf FloatOps.ropeBase (FloatOps.ofInt headDim / FloatOps.ofInt p.headSize)
  FloatOps.ofInt pos * freq

def rotatePair (angle : F) (i : Nat) (vec : Nat → F) : Nat → F :=
  let fcr := FloatOps.cosf angle
  let fci := FloatOps.sinf angle
  let v0 := vec i
  let v1 := vec (i + 1)
  update (update vec i (v0 * fcr - v1 * fci)) (i + 1) (v0 * fci + v1 * fcr)

/-- The rotation of `q` and of the key of the position, pair by pair. -/
def rope (p : Geometry) (row pos : Nat) (s : RunState F) : RunState F :=
  (List.range ((p.dim + 1) / 2)).foldl
    (fun s m =>
      let i := 2 * m
      let turn := rotatePair (ropeAngle p pos i) i
      { s with
        q := turn s.q
        keyCache :=
          if i < p.kvDim then fromOffset row turn s.keyCache
          else s.keyCache })
    s

def residual (dim : Nat) (added x : Nat → F) : Nat → F :=
  replaceEach (List.range dim) (fun i value => value + added i) x

def swiglu (val gate : F) : F := val * (FloatOps.one / (FloatOps.one + FloatOps.expf (-val))) * gate

/-- The second part of `llama_block`. -/
def feedForward (pool : Pool) (layer : LlamaLayer F) (p : Geometry) (s : RunState F)
    (x : Nat → F) : RunState F × (Nat → F) :=
  let xb := rmsnorm s.xb x layer.rmsFfn p.dim
  let hb := matmul pool s.hb xb layer.w1 p.dim p.hiddenDim
  let hb2 := matmul pool s.hb2 xb layer.w3 p.dim p.hiddenDim
  let hb := replaceEach (List.range p.hiddenDim) (fun i val => swiglu val (hb2 i)) hb
  let xb := matmul pool xb hb layer.w2 p.hiddenDim p.dim
  ({ s with xb := xb, hb := hb, hb2 := hb2 }, residual p.dim xb x)

def llamaBlock (pool : Pool) (layer : LlamaLayer F) (p : Geometry) (s : RunState F)
    (x : Nat → F) (kvLayer pos : Nat) : RunState F × (Nat → F) :=
  let row := p.kvRow kvLayer pos
  let s := projectQkv pool layer p s x row
  let s := rope p row pos s
  let s := multiheadAttention pool p kvLayer pos s
  let s := { s with xb2 := matmul pool s.xb2 s.xb layer.wo p.dim p.dim }
  feedForward pool layer p s (residual p.dim s.xb2 x)

/-- The loop over the layers that a process holds, each with its index among
them. -/
def runLayers (pool : Pool) (layers : Nat → LlamaLayer F) (p : Geometry)
    (count pos : Nat) (state : RunState F × (Nat → F)) :
    RunState F × (Nat → F) :=
  (List.range count).foldl
    (fun state l =>
      llamaBlock pool (layers l) p state.1 state.2 l pos)
    state

structure TransformerWeights (F : Type u) where
  tokenEmbeddingTable : Nat → F
  rmsAttWeight : Nat → F
  rmsFfnWeight : Nat → F
  wq : Nat → F
  wk : Nat → F
  wv : Nat → F
  wo : Nat → F
  w1 : Nat → F
  w2 : Nat → F
  w3 : Nat → F
  rmsFinalWeight : Nat → F
  wcls : Nat → F

def llamaLayerAt (w : TransformerWeights F) (p : Geometry) (l : Nat) : LlamaLayer F where
  rmsAtt := fun i => w.rmsAttWeight (l * p.dim + i)
  wq := fun i => w.wq (l * p.dim * p.dim + i)
  wk := fun i => w.wk (l * p.dim * p.kvDim + i)
  wv := fun i => w.wv (l * p.dim * p.kvDim + i)
  wo := fun i => w.wo (l * p.dim * p.dim + i)
  rmsFfn := fun i => w.rmsFfnWeight (l * p.dim + i)
  w1 := fun i => w.w1 (l * p.dim * p.hiddenDim + i)
  w2 := fun i => w.w2 (l * p.dim * p.hiddenDim + i)
  w3 := fun i => w.w3 (l * p.dim * p.hiddenDim + i)

def llamaEmbed (w : TransformerWeights F) (p : Geometry) (x : Nat → F) (token : Nat) : Nat → F :=
  replaceEach (List.range p.dim) (fun i _ => w.tokenEmbeddingTable (token * p.dim + i)) x

def llamaHead (pool : Pool) (w : TransformerWeights F) (p : Geometry) (s : RunState F)
    (x : Nat → F) : RunState F × (Nat → F) :=
  let x := rmsnormInPlace x w.rmsFinalWeight p.dim
  ({ s with logits := matmul pool s.logits x w.wcls p.dim p.vocabSize }, x)

structure Transformer (F : Type u) where
  config : Geometry
  weights : TransformerWeights F
  state : RunState F

/-- The activation is `s->x`, which the kernels reach only through their
argument. -/
def forward (pool : Pool) (transformer : Transformer F) (token pos : Nat) : Transformer F :=
  let p := transformer.config
  let w := transformer.weights
  let x := llamaEmbed w p transformer.state.x token
  let (s, x) := runLayers pool (llamaLayerAt w p) p p.nLayers pos (transformer.state, x)
  let (s, x) := llamaHead pool w p s x
  { transformer with state := { s with x := x } }

end Kernels

end LlmRuntime.LlamaCore
