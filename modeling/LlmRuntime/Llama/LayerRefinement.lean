import LlmRuntime.Llama.KernelSpecs

/-!
# Layers refine their stages

A process that holds some consecutive layers takes an activation through their
stages, whatever the indices of the layers in its caches and the length of the
sequence it has room for.
-/

namespace LlmRuntime.LlamaCore

open Buffer Function

universe u

/-- Both pools sum up the rows of every product in the same order. -/
structure SameOrder (p : Geometry) (pool reference : Pool) : Prop where
  dim : pool.takes p.dim = reference.takes p.dim
  kvDim : pool.takes p.kvDim = reference.takes p.kvDim
  hiddenDim : pool.takes p.hiddenDim = reference.takes p.hiddenDim
  vocabSize : pool.takes p.vocabSize = reference.takes p.vocabSize

variable {F : Type u} [FloatOps F]

/-- The same tensors, as far as the kernels read them. -/
structure LlamaLayer.Agrees (p : Geometry) (layer given : LlamaLayer F) : Prop where
  rmsAtt : Agree p.dim layer.rmsAtt given.rmsAtt
  wq : Agree (p.dim * p.dim) layer.wq given.wq
  wk : Agree (p.kvDim * p.dim) layer.wk given.wk
  wv : Agree (p.kvDim * p.dim) layer.wv given.wv
  wo : Agree (p.dim * p.dim) layer.wo given.wo
  rmsFfn : Agree p.dim layer.rmsFfn given.rmsFfn
  w1 : Agree (p.hiddenDim * p.dim) layer.w1 given.w1
  w2 : Agree (p.dim * p.hiddenDim) layer.w2 given.w2
  w3 : Agree (p.hiddenDim * p.dim) layer.w3 given.w3

/-- The caches hold the rows of a layer. -/
def HoldsRows (p : Geometry) (s : RunState F) (layer : Nat) (rows : List (KvRow F)) : Prop :=
  RowsAgree p (cachedRows p layer s rows.length) rows

theorem rowAt_append_of_lt {rows : List (KvRow F)} {t : Nat} (inside : t < rows.length)
    (row : KvRow F) : rowAt (rows ++ [row]) t = rowAt rows t := by
  rw [rowAt, rowAt, List.getD_append _ _ _ _ inside]

theorem rowAt_append_length (rows : List (KvRow F)) (row : KvRow F) :
    rowAt (rows ++ [row]) rows.length = row := by
  simp [rowAt]

theorem HoldsRows.kept {p : Geometry} {s later : RunState F} {layer : Nat}
    {rows : List (KvRow F)} (holds : HoldsRows p s layer rows) (kept : ∀ t, t < rows.length →
        (cachedRow p layer later t).Agrees p (cachedRow p layer s t)) :
    HoldsRows p later layer rows := by
  constructor
  · exact cachedRows_length p layer later rows.length
  · intro t isRow
    have held := holds.row t (by rwa [cachedRows_length] at isRow ⊢)
    rw [cachedRows_length] at isRow
    rw [rowAt_cachedRows p layer s isRow] at held
    rw [rowAt_cachedRows p layer later isRow]
    exact (kept t isRow).trans held

theorem HoldsRows.append {p : Geometry} {s later : RunState F} {layer : Nat} {rows : List (KvRow F)}
    (holds : HoldsRows p s layer rows) (kept : ∀ t, t < rows.length →
        (cachedRow p layer later t).Agrees p (cachedRow p layer s t))
    {row : KvRow F} (isNew : (cachedRow p layer later rows.length).Agrees p row) :
    HoldsRows p later layer (rows ++ [row]) := by
  have isLength : (rows ++ [row]).length = rows.length + 1 := by simp
  rw [HoldsRows, isLength]
  constructor
  · rw [cachedRows_length, isLength]
  · intro t isRow
    rw [cachedRows_length] at isRow
    rw [rowAt_cachedRows p layer later isRow]
    rcases Nat.lt_succ_iff_lt_or_eq.mp isRow with earlier | isLast
    · have held := (holds.kept kept).row t (by rwa [cachedRows_length])
      rw [rowAt_cachedRows p layer later earlier] at held
      rw [rowAt_append_of_lt earlier]
      exact held
    · rw [isLast, rowAt_append_length]
      exact isNew

section Parts

variable {p : Geometry} {pool reference : Pool} {layer given : LlamaLayer F} {x other : Nat → F}

section Projections

variable (s : RunState F) (row : Nat)

theorem projectQkv_q (order : SameOrder p pool reference)
    (weights : layer.Agrees p given) (same : Agree p.dim x other) :
    Agree p.dim (projectQkv pool layer p s x row).q
      (linear reference given.wq (normalized given.rmsAtt other p.dim) p.dim p.dim) :=
  matmul_agree order.dim (rmsnorm_agree same weights.rmsAtt s.xb) weights.wq s.q

theorem projectQkv_key (order : SameOrder p pool reference)
    (weights : layer.Agrees p given) (same : Agree p.dim x other) :
    Agree p.kvDim (fun j => (projectQkv pool layer p s x row).keyCache (row + j))
      (linear reference given.wk (normalized given.rmsAtt other p.dim) p.dim p.kvDim) := by
  intro j inside
  rw [projectQkv]
  dsimp only
  rw [fromOffset_add]
  exact matmul_agree order.kvDim (rmsnorm_agree same weights.rmsAtt s.xb) weights.wk _ j inside

theorem projectQkv_value (order : SameOrder p pool reference)
    (weights : layer.Agrees p given) (same : Agree p.dim x other) :
    Agree p.kvDim (fun j => (projectQkv pool layer p s x row).valueCache (row + j))
      (linear reference given.wv (normalized given.rmsAtt other p.dim) p.dim p.kvDim) := by
  intro j inside
  rw [projectQkv]
  dsimp only
  rw [fromOffset_add]
  exact matmul_agree order.kvDim (rmsnorm_agree same weights.rmsAtt s.xb) weights.wv _ j inside

theorem projectQkv_outside (pool : Pool) (layer : LlamaLayer F) (x : Nat → F)
    {i : Nat} (outside : i < row ∨ row + p.kvDim ≤ i) :
    (projectQkv pool layer p s x row).keyCache i = s.keyCache i ∧
      (projectQkv pool layer p s x row).valueCache i = s.valueCache i := by
  rw [projectQkv]
  dsimp only
  constructor <;>
  · apply fromOffset_outside _ outside
    intro j behind
    exact matmul_outside behind _ _ _

end Projections

theorem residual_agree {added amount : Nat → F} {dim : Nat}
    (same : Agree dim x other) (sameAdded : Agree dim added amount) :
    Agree dim (residual dim added x) fun i => other i + amount i := by
  intro i inside
  rw [residual, replaceEach_range inside, same i inside, sameAdded i inside]

theorem feedForward_agree (order : SameOrder p pool reference) (weights : layer.Agrees p given)
    (same : Agree p.dim x other) (s : RunState F) :
    Agree p.dim (feedForward pool layer p s x).2 (fedForward reference p given other) := by
  have sameNorm := rmsnorm_agree same weights.rmsFfn s.xb
  have sameGate := matmul_agree order.hiddenDim sameNorm weights.w1 s.hb
  have sameUp := matmul_agree order.hiddenDim sameNorm weights.w3 s.hb2
  rw [feedForward, fedForward]
  dsimp only
  apply residual_agree same
  apply matmul_agree order.dim _ weights.w2
  intro i inside
  rw [replaceEach_range inside, sameGate i inside, sameUp i inside]

section Block

variable (s : RunState F) (kvLayer pos : Nat)

/-- The run state when the heads start: the query and the row of the position
are there. -/
def beforeHeads (pool : Pool) (layer : LlamaLayer F) (p : Geometry) (s : RunState F)
    (x : Nat → F) (kvLayer pos : Nat) : RunState F :=
  rope p (p.kvRow kvLayer pos) pos (projectQkv pool layer p s x (p.kvRow kvLayer pos))

theorem beforeHeads_q (fit : p.RowsFit) (order : SameOrder p pool reference)
    (weights : layer.Agrees p given) (same : Agree p.dim x other) :
    Agree p.dim (beforeHeads pool layer p s x kvLayer pos).q
      (rotated p pos
        (linear reference given.wq (normalized given.rmsAtt other p.dim) p.dim p.dim)) := by
  have projected := projectQkv_q s (p.kvRow kvLayer pos) order weights same
  intro i inside
  rw [beforeHeads, rope_q, rotatePairs_inside p pos (by omega)]
  exact rotated_congr fit.dim_even projected i inside

theorem beforeHeads_row (fit : p.RowsFit) (order : SameOrder p pool reference)
    (weights : layer.Agrees p given) (same : Agree p.dim x other) (rows : List (KvRow F)) :
    (cachedRow p kvLayer (beforeHeads pool layer p s x kvLayer pos)
      pos).Agrees p (layerStage reference p given other pos rows).2 := by
  have projected := projectQkv_key s (p.kvRow kvLayer pos) order weights same
  constructor
  · intro j inside
    have even := fit.kvDim_even
    rw [cachedRow]
    dsimp only
    rw [beforeHeads, rope_keyCache _ _ _ fit.kvDim_even fit.kvDim_le,
      fromOffset_add, rotatePairs_inside p pos (by omega)]
    exact rotated_congr fit.kvDim_even projected j inside
  · intro j inside
    rw [cachedRow]
    dsimp only
    rw [beforeHeads, rope_valueCache]
    exact projectQkv_value s (p.kvRow kvLayer pos) order weights same j inside

theorem beforeHeads_outside (fit : p.RowsFit) (pool : Pool) (layer : LlamaLayer F) (x : Nat → F)
    {i : Nat} (outside : i < p.kvRow kvLayer pos ∨ p.kvRow kvLayer pos + p.kvDim ≤ i) :
    (beforeHeads pool layer p s x kvLayer pos).keyCache i = s.keyCache i ∧
      (beforeHeads pool layer p s x kvLayer pos).valueCache i = s.valueCache i := by
  have projected := projectQkv_outside s (p.kvRow kvLayer pos) pool layer x outside
  rw [beforeHeads, rope_keyCache _ _ _ fit.kvDim_even fit.kvDim_le, rope_valueCache, ← projected.1]
  refine ⟨?_, projected.2⟩
  apply fromOffset_outside _ outside
  intro j behind
  exact rotatePairs_outside p pos (by omega) _

theorem llamaBlock_caches (pool : Pool) (layer : LlamaLayer F) (p : Geometry) (x : Nat → F) :
    (llamaBlock pool layer p s x kvLayer pos).1.keyCache =
        (beforeHeads pool layer p s x kvLayer pos).keyCache ∧
      (llamaBlock pool layer p s x kvLayer pos).1.valueCache =
        (beforeHeads pool layer p s x kvLayer pos).valueCache := by
  have kept :=
    foldl_attentionHead_keeps p kvLayer pos (List.range p.nHeads)
      (beforeHeads pool layer p s x kvLayer pos)
  rw [← multiheadAttention_eq p kvLayer pos pool] at kept
  exact kept.2

theorem holdsRows_llamaBlock (pool : Pool) (layer : LlamaLayer F) (p : Geometry)
    (x : Nat → F) (otherLayer : Nat) (rows : List (KvRow F)) :
    HoldsRows p (llamaBlock pool layer p s x kvLayer pos).1 otherLayer rows ↔
      HoldsRows p (beforeHeads pool layer p s x kvLayer pos) otherLayer rows := by
  obtain ⟨keys, values⟩ := llamaBlock_caches s kvLayer pos pool layer p x
  have sameRow :
      cachedRow p otherLayer (llamaBlock pool layer p s x kvLayer pos).1 =
        cachedRow p otherLayer (beforeHeads pool layer p s x kvLayer pos) := by
    funext t
    rw [cachedRow, cachedRow, keys, values]
  rw [HoldsRows, HoldsRows, cachedRows, cachedRows, sameRow]

end Block

theorem kvRow_lt_of_lt (p : Geometry) (layer : Nat) {t pos : Nat} (earlier : t < pos) :
    p.kvRow layer t + p.kvDim ≤ p.kvRow layer pos := by
  have steps := Nat.mul_le_mul_right p.kvDim earlier
  rw [Nat.succ_mul] at steps
  rw [Geometry.kvRow, Geometry.kvRow]
  omega

theorem kvRow_lt_of_layer_lt (p : Geometry) {layer later t : Nat}
    (before : layer < later) (inside : t < p.seqLen) (pos : Nat) :
    p.kvRow layer t + p.kvDim ≤ p.kvRow later pos := by
  have steps := Nat.mul_le_mul_right p.kvDim inside
  have layers := Nat.mul_le_mul_right p.kvDim (Nat.mul_le_mul_right p.seqLen before)
  rw [Nat.succ_mul] at steps
  rw [Nat.succ_mul, Nat.add_mul] at layers
  rw [Geometry.kvRow, Geometry.kvRow]
  omega

section Block

variable {s : RunState F} {kvLayer : Nat} {rows : List (KvRow F)}

theorem beforeHeads_cachedRow (fit : p.RowsFit) (pool : Pool)
    (layer : LlamaLayer F) (x : Nat → F) {pos otherLayer t : Nat}
    (apart : p.kvRow otherLayer t + p.kvDim ≤ p.kvRow kvLayer pos ∨
        p.kvRow kvLayer pos + p.kvDim ≤ p.kvRow otherLayer t) :
    (cachedRow p otherLayer (beforeHeads pool layer p s x kvLayer pos)
      t).Agrees p (cachedRow p otherLayer s t) := by
  have outside (j : Nat) (inside : j < p.kvDim) :=
    beforeHeads_outside s kvLayer pos fit pool layer x
      (show p.kvRow otherLayer t + j < p.kvRow kvLayer pos ∨
        p.kvRow kvLayer pos + p.kvDim ≤ p.kvRow otherLayer t + j by omega)
  exact ⟨fun j inside => (outside j inside).1, fun j inside => (outside j inside).2⟩

theorem beforeHeads_holdsRows (fit : p.RowsFit)
    (order : SameOrder p pool reference) (weights : layer.Agrees p given)
    (same : Agree p.dim x other) (holds : HoldsRows p s kvLayer rows) :
    HoldsRows p (beforeHeads pool layer p s x kvLayer rows.length) kvLayer
      (rows ++ [(layerStage reference p given other rows.length rows).2]) := by
  apply holds.append
  · intro t earlier
    exact beforeHeads_cachedRow fit pool layer x (.inl (kvRow_lt_of_lt p kvLayer earlier))
  · exact beforeHeads_row s kvLayer rows.length fit order weights same rows

theorem llamaBlock_holdsRows (fit : p.RowsFit)
    (order : SameOrder p pool reference) (weights : layer.Agrees p given)
    (same : Agree p.dim x other) (holds : HoldsRows p s kvLayer rows) :
    HoldsRows p (llamaBlock pool layer p s x kvLayer rows.length).1 kvLayer
      (rows ++ [(layerStage reference p given other rows.length rows).2]) := by
  rw [holdsRows_llamaBlock]
  exact beforeHeads_holdsRows fit order weights same holds

theorem llamaBlock_holdsRows_other (fit : p.RowsFit) (pool : Pool)
    (layer : LlamaLayer F) (x : Nat → F) {pos otherLayer : Nat}
    (different : otherLayer ≠ kvLayer) (inside : pos < p.seqLen)
    (room : rows.length ≤ p.seqLen) (holds : HoldsRows p s otherLayer rows) :
    HoldsRows p (llamaBlock pool layer p s x kvLayer pos).1 otherLayer rows := by
  rw [holdsRows_llamaBlock]
  apply holds.kept
  intro t isRow
  apply beforeHeads_cachedRow fit pool layer x
  rcases Nat.lt_or_gt_of_ne different with before | behind
  · exact .inl (kvRow_lt_of_layer_lt p before (by omega) pos)
  · exact .inr (kvRow_lt_of_layer_lt p behind inside t)

/-- The activation goes through the stage of the layer. -/
theorem llamaBlock_agree (fit : p.RowsFit) (order : SameOrder p pool reference)
    (weights : layer.Agrees p given) (same : Agree p.dim x other)
    (holds : HoldsRows p s kvLayer rows) :
    Agree p.dim (llamaBlock pool layer p s x kvLayer rows.length).2
      (layerStage reference p given other rows.length rows).1 := by
  have query := beforeHeads_q s kvLayer rows.length fit order weights same
  have held := beforeHeads_holdsRows fit order weights same holds
  rw [HoldsRows, List.length_append, List.length_singleton] at held
  have mixed := multiheadAttention_agree fit pool kvLayer rows.length query held
  apply feedForward_agree order weights
  apply residual_agree same
  exact matmul_agree order.dim mixed weights.wo _

end Block

end Parts

/-- The caches of a process hold the rows of its layers, `first` being the
first of them. -/
def HoldsLayers (p : Geometry) (s : RunState F) (first count : Nat)
    (rows : Nat → List (KvRow F)) : Prop := ∀ l, l < count → HoldsRows p s l (rows (first + l))

section Layers

variable {p : Geometry} {pool reference : Pool}
  {layers : Nat → LlamaLayer F} {given : Nat → LlamaLayer F}
  {first count pos : Nat}

def afterLayers (reference : Pool) (p : Geometry) (given : Nat → LlamaLayer F)
    (first count pos : Nat) (state : (Nat → List (KvRow F)) × (Nat → F)) :
    (Nat → List (KvRow F)) × (Nat → F) :=
  (List.range' first count).foldl
    (Pipeline.visit (fun l => layerStage reference p (given l)) pos) state

theorem afterLayers_succ (reference : Pool) (p : Geometry) (given : Nat → LlamaLayer F)
    (first count pos : Nat) (state : (Nat → List (KvRow F)) × (Nat → F)) :
    afterLayers reference p given first (count + 1) pos state =
      Pipeline.visit (fun l => layerStage reference p (given l)) pos
        (afterLayers reference p given first count pos state)
        (first + count) := by
  rw [afterLayers, List.range'_1_concat, List.foldl_append]
  rfl

theorem afterLayers_of_notMem {l : Nat} (outside : l < first ∨ first + count ≤ l)
    (state : (Nat → List (KvRow F)) × (Nat → F)) :
    (afterLayers reference p given first count pos state).1 l = state.1 l := by
  apply Pipeline.foldl_visit_of_notMem
  rw [List.mem_range'_1]
  omega

theorem afterLayers_length {l : Nat} (inside : l < count)
    (state : (Nat → List (KvRow F)) × (Nat → F)) :
    ((afterLayers reference p given first count pos state).1
      (first + l)).length = (state.1 (first + l)).length + 1 := by
  induction count with
  | zero => omega
  | succ count ih =>
    rw [afterLayers_succ, Pipeline.visit]
    dsimp only
    by_cases isLast : l = count
    · rw [isLast, update_self, List.length_append,
        afterLayers_of_notMem (.inr le_rfl), List.length_singleton]
    · rw [update_of_ne (by omega), ih (by omega)]

theorem runLayers_succ (pool : Pool) (layers : Nat → LlamaLayer F)
    (p : Geometry) (count pos : Nat) (state : RunState F × (Nat → F)) :
    runLayers pool layers p (count + 1) pos state =
      llamaBlock pool (layers count) p (runLayers pool layers p count pos state).1
        (runLayers pool layers p count pos state).2 count pos := by
  rw [runLayers, List.range_succ, List.foldl_append]
  rfl

/-- A process takes the activation through the stages of its layers, and its
caches then hold their rows. -/
theorem runLayers_refines (fit : p.RowsFit) (order : SameOrder p pool reference)
    (weights : ∀ l, l < count → (layers l).Agrees p (given (first + l))) (inside : pos < p.seqLen)
    {s : RunState F} {x other : Nat → F} {rows : Nat → List (KvRow F)} (same : Agree p.dim x other)
    (lengths : ∀ l, l < count → (rows (first + l)).length = pos)
    (holds : HoldsLayers p s first count rows) :
    Agree p.dim (runLayers pool layers p count pos (s, x)).2
        (afterLayers reference p given first count pos (rows, other)).2 ∧
      HoldsLayers p (runLayers pool layers p count pos (s, x)).1 first count
        (afterLayers reference p given first count pos (rows, other)).1 := by
  -- after `done` layers the rows of the others are still those of before
  have upTo (done : Nat) (within : done ≤ count) :
      Agree p.dim (runLayers pool layers p done pos (s, x)).2
          (afterLayers reference p given first done pos (rows, other)).2 ∧
        HoldsLayers p (runLayers pool layers p done pos (s, x)).1 first
          count
          (afterLayers reference p given first done pos (rows, other)).1 := by
    induction done with
    | zero => exact ⟨same, holds⟩
    | succ done ih =>
      obtain ⟨agree, held⟩ := ih (by omega)
      generalize isNow : runLayers pool layers p done pos (s, x) = now at agree held
      generalize isState :
        afterLayers reference p given first done pos (rows, other) = state at agree held
      have isNext :
          runLayers pool layers p (done + 1) pos (s, x) =
            llamaBlock pool (layers done) p now.1 now.2 done pos := by
        rw [runLayers_succ, isNow]
      have isLength : (state.1 (first + done)).length = pos := by
        rw [← isState, afterLayers_of_notMem (.inr le_rfl)]
        exact lengths done (by omega)
      have room (l : Nat) (isLayer : l < count) : (state.1 (first + l)).length ≤ p.seqLen := by
        have isInitial := lengths l isLayer
        rw [← isState]
        by_cases isDone : l < done
        · rw [afterLayers_length isDone, isInitial]
          exact inside
        · rw [afterLayers_of_notMem (.inr (by omega)), isInitial]
          exact inside.le
      have weightsHere := weights done (by omega)
      have holdsHere := held done (by omega)
      rw [isNext, afterLayers_succ, isState, Pipeline.visit, ← isLength]
      dsimp only
      refine ⟨llamaBlock_agree fit order weightsHere agree holdsHere, ?_⟩
      intro l isLayer
      by_cases isThis : l = done
      · rw [isThis, update_self]
        exact llamaBlock_holdsRows fit order weightsHere agree holdsHere
      · rw [update_of_ne (by omega)]
        apply llamaBlock_holdsRows_other fit pool _ _ isThis
        · omega
        · exact room l isLayer
        · exact held l isLayer
  exact upTo count le_rfl

end Layers

end LlmRuntime.LlamaCore
