import LlmRuntime.Llama.HeaderSafety
import LlmRuntime.Llama.ShardedModel

/-!
# A position that is processed twice

The master sends the activation of a token again when it does not return in
time, so a shard may run the same position twice.
-/

namespace LlmRuntime.LlamaCore

open Buffer DistInf

universe u

variable {F : Type u} [FloatOps F]

/-- The cell belongs to the row of the position in none of the layers. -/
def OutsideRows (p : Geometry) (count pos i : Nat) : Prop :=
  ∀ l, l < count → i < p.kvRow l pos ∨ p.kvRow l pos + p.kvDim ≤ i

variable {pos count i : Nat} {p : Geometry} {s given : RunState F}

theorem llamaBlock_outside (fit : p.RowsFit) (pool : Pool)
    (layer : LlamaLayer F) (s : RunState F) (x : Nat → F) {kvLayer : Nat}
    (outside : i < p.kvRow kvLayer pos ∨ p.kvRow kvLayer pos + p.kvDim ≤ i) :
    (llamaBlock pool layer p s x kvLayer pos).1.keyCache i = s.keyCache i ∧
      (llamaBlock pool layer p s x kvLayer pos).1.valueCache i = s.valueCache i := by
  obtain ⟨keys, values⟩ := llamaBlock_caches s kvLayer pos pool layer p x
  rw [keys, values]
  exact beforeHeads_outside s kvLayer pos fit pool layer x outside

theorem runLayers_outside (fit : p.RowsFit) (pool : Pool) (layers : Nat → LlamaLayer F)
    (s : RunState F) (x : Nat → F) (outside : OutsideRows p count pos i) :
    (runLayers pool layers p count pos (s, x)).1.keyCache i = s.keyCache i ∧
      (runLayers pool layers p count pos (s, x)).1.valueCache i = s.valueCache i := by
  induction count with
  | zero => exact ⟨rfl, rfl⟩
  | succ count ih =>
    have earlier := ih fun l isLayer => outside l (by omega)
    have here :=
      llamaBlock_outside fit pool (layers count) (runLayers pool layers p count pos (s, x)).1
        (runLayers pool layers p count pos (s, x)).2
        (outside count (Nat.lt_add_one count))
    rw [runLayers_succ]
    exact ⟨here.1.trans earlier.1, here.2.trans earlier.2⟩

theorem llamaBlock_activation_outside (pool : Pool) (layer : LlamaLayer F) (p : Geometry)
    (s : RunState F) (x : Nat → F) (kvLayer pos : Nat) (behind : p.dim ≤ i) :
    (llamaBlock pool layer p s x kvLayer pos).2 i = x i := by
  rw [llamaBlock, feedForward]
  dsimp only
  rw [residual, replaceEach_range_outside behind, residual, replaceEach_range_outside behind]

theorem runLayers_activation_outside (pool : Pool) (layers : Nat → LlamaLayer F) (p : Geometry)
    (count pos : Nat) (s : RunState F) (x : Nat → F) (behind : p.dim ≤ i) :
    (runLayers pool layers p count pos (s, x)).2 i = x i := by
  induction count with
  | zero => rfl
  | succ count ih => rw [runLayers_succ, llamaBlock_activation_outside _ _ _ _ _ _ _ behind, ih]

/-- The caches have the same rows of the earlier positions. -/
def SameBelow (p : Geometry) (count pos : Nat) (s given : RunState F) : Prop :=
  ∀ l, l < count → ∀ t, t < pos → (cachedRow p l s t).Agrees p (cachedRow p l given t)

omit [FloatOps F] in
theorem KvRow.Agrees.symm {row other : KvRow F} (same : row.Agrees p other) : other.Agrees p row :=
  ⟨same.key.symm, same.value.symm⟩

theorem SameBelow.holdsLayers (same : SameBelow p count pos s given) :
    HoldsLayers p s 0 count fun l => cachedRows p l given pos := by
  intro l isLayer
  rw [HoldsRows, cachedRows_length, Nat.zero_add]
  constructor
  · rw [cachedRows_length, cachedRows_length]
  · intro t isRow
    rw [cachedRows_length] at isRow
    rw [rowAt_cachedRows p l s isRow, rowAt_cachedRows p l given isRow]
    exact same l isLayer t isRow

omit [FloatOps F] in
theorem SameBelow.refl (p : Geometry) (count pos : Nat) (s : RunState F) :
    SameBelow p count pos s s :=
  fun _ _ _ _ => ⟨Agree.refl _ _, Agree.refl _ _⟩

theorem HoldsLayers.row {rows : Nat → List (KvRow F)} (holds : HoldsLayers p s 0 count rows)
    {l : Nat} (isLayer : l < count) (inside : pos < (rows l).length) :
    (cachedRow p l s pos).Agrees p (rowAt (rows l) pos) := by
  have held := holds l isLayer
  rw [Nat.zero_add] at held
  have row := held.row pos (by rwa [cachedRows_length])
  rw [rowAt_cachedRows p l s inside] at row
  exact row

/-- The pipeline of the layers, with the rows that a run state has below the
position. -/
def stagesFrom (pool : Pool) (layers : Nat → LlamaLayer F) (p : Geometry)
    (count pos : Nat) (given : RunState F) (other : Nat → F) :
    (Nat → List (KvRow F)) × (Nat → F) :=
  afterLayers pool p layers 0 count pos (fun l => cachedRows p l given pos, other)

theorem stagesFrom_length (pool : Pool) (layers : Nat → LlamaLayer F) (p : Geometry) {l : Nat}
    (given : RunState F) (other : Nat → F) (isLayer : l < count) :
    ((stagesFrom pool layers p count pos given other).1 l).length = pos + 1 := by
  have grown :
      ((stagesFrom pool layers p count pos given other).1 (0 + l)).length =
        (cachedRows p (0 + l) given pos).length + 1 :=
    afterLayers_length isLayer _
  rw [Nat.zero_add, cachedRows_length] at grown
  exact grown

theorem SameBelow.refines (fit : p.RowsFit) (pool : Pool)
    (layers : Nat → LlamaLayer F) (inside : pos < p.seqLen) {x other : Nat → F}
    (sameRows : SameBelow p count pos s given) (same : Agree p.dim x other) :
    Agree p.dim (runLayers pool layers p count pos (s, x)).2
        (stagesFrom pool layers p count pos given other).2 ∧
      HoldsLayers p (runLayers pool layers p count pos (s, x)).1 0 count
        (stagesFrom pool layers p count pos given other).1 := by
  have order : SameOrder p pool pool := ⟨rfl, rfl, rfl, rfl⟩
  apply runLayers_refines fit order _ inside same _ sameRows.holdsLayers
  · intro l _
    rw [Nat.zero_add]
    exact LlamaLayer.Agrees.refl p (layers l)
  · intro l _
    exact cachedRows_length p (0 + l) given pos

/-- The result and the new rows depend on the activation and on the rows
below. -/
theorem runLayers_congr (fit : p.RowsFit) (pool : Pool)
    (layers : Nat → LlamaLayer F) (inside : pos < p.seqLen) {x other : Nat → F}
    (sameRows : SameBelow p count pos s given) (same : Agree p.dim x other) :
    Agree p.dim (runLayers pool layers p count pos (s, x)).2
        (runLayers pool layers p count pos (given, other)).2 ∧
      ∀ l, l < count →
        (cachedRow p l (runLayers pool layers p count pos (s, x)).1
          pos).Agrees p
          (cachedRow p l (runLayers pool layers p count pos (given, other)).1 pos) := by
  obtain ⟨result, held⟩ := sameRows.refines fit pool layers inside same
  obtain ⟨givenResult, givenHeld⟩ :=
    (SameBelow.refl p count pos given).refines fit pool layers inside (Agree.refl p.dim other)
  refine ⟨result.trans givenResult.symm, ?_⟩
  intro l isLayer
  have hasRow : pos < ((stagesFrom pool layers p count pos given other).1 l).length := by
    rw [stagesFrom_length pool layers p given other isLayer]
    exact Nat.lt_add_one pos
  exact (held.row isLayer hasRow).trans (givenHeld.row isLayer hasRow).symm

def ShardT.withState (sh : ShardT F) (s : RunState F) : ShardT F :=
  { sh with state := s }

/-- A call of `shard_forward` on any run state: what it writes, what it depends
on and what the same call gives the next time. -/
structure ForwardLocal (sh : ShardT F) (s : RunState F) (x : Nat → F) (pos : Nat)
    (after : RunState F) (y : Nat → F) : Prop where
  result : shardForward (sh.withState s) x pos = some (sh.withState after, y)
  frame :
    ∀ i, OutsideRows sh.own (sh.layerEnd - sh.layerStart) pos i →
      after.keyCache i = s.keyCache i ∧ after.valueCache i = s.valueCache i
  depends :
    ∀ given other, Agree sh.own.dim x other →
      SameBelow sh.own (sh.layerEnd - sh.layerStart) pos s given →
        ∃ givenAfter z,
          shardForward (sh.withState given) other pos = some (sh.withState givenAfter, z) ∧
            Agree sh.own.dim y z ∧
            ∀ l, l < sh.layerEnd - sh.layerStart →
              (cachedRow sh.own l after pos).Agrees sh.own (cachedRow sh.own l givenAfter pos)
  again :
    ∃ repeated,
      shardForward (sh.withState after) x pos = some (sh.withState repeated, y) ∧
        repeated.keyCache = after.keyCache ∧
        repeated.valueCache = after.valueCache

theorem shardForward_withState (sh : ShardT F) (s : RunState F) (x : Nat → F)
    (inside : pos < sh.own.seqLen) :
    shardForward (sh.withState s) x pos =
      some
        (sh.withState
          (runLayers sh.pool sh.layers sh.own (sh.layerEnd - sh.layerStart) pos (s, x)).1,
          (runLayers sh.pool sh.layers sh.own (sh.layerEnd - sh.layerStart) pos (s, x)).2) :=
  if_neg (Nat.not_le_of_lt inside)

theorem outsideRows_below (p : Geometry) {l t j : Nat} (earlier : t < pos)
    (inside : pos < p.seqLen) (isCell : j < p.kvDim) :
    OutsideRows p count pos (p.kvRow l t + j) := by
  intro other _
  rcases Nat.lt_trichotomy l other with before | isSame | behind
  · have ends := kvRow_lt_of_layer_lt p before (earlier.trans inside) pos
    omega
  · have ends := kvRow_lt_of_lt p other earlier
    rw [isSame]
    omega
  · have ends := kvRow_lt_of_layer_lt p behind inside t
    omega

theorem runLayers_sameBelow (fit : p.RowsFit) (pool : Pool) (layers : Nat → LlamaLayer F)
    (s : RunState F) (x : Nat → F) (count : Nat) (inside : pos < p.seqLen) :
    SameBelow p count pos (runLayers pool layers p count pos (s, x)).1 s := by
  intro l isLayer t earlier
  have outside (j : Nat) (isCell : j < p.kvDim) : OutsideRows p count pos (p.kvRow l t + j) :=
    outsideRows_below p earlier inside isCell
  have kept (j : Nat) (isCell : j < p.kvDim) :=
    runLayers_outside fit pool layers s x (outside j isCell)
  exact ⟨fun j isCell => (kept j isCell).1, fun j isCell => (kept j isCell).2⟩

theorem runLayers_again_activation (fit : p.RowsFit) (pool : Pool) (layers : Nat → LlamaLayer F)
    (s : RunState F) (x : Nat → F) (inside : pos < p.seqLen) :
    (runLayers pool layers p count pos
        ((runLayers pool layers p count pos (s, x)).1, x)).2 =
      (runLayers pool layers p count pos (s, x)).2 := by
  have same :=
    (runLayers_congr fit pool layers inside
      (runLayers_sameBelow fit pool layers s x count inside)
      (Agree.refl p.dim x)).1
  funext i
  by_cases isCell : i < p.dim
  · exact same i isCell
  · rw [runLayers_activation_outside _ _ _ _ _ _ _ (Nat.le_of_not_lt isCell),
      runLayers_activation_outside _ _ _ _ _ _ _ (Nat.le_of_not_lt isCell)]

/-- The second run leaves the caches as the first did. -/
theorem runLayers_again_caches (fit : p.RowsFit) (pool : Pool) (layers : Nat → LlamaLayer F)
    (s : RunState F) (x : Nat → F) (inside : pos < p.seqLen) (i : Nat) :
    (runLayers pool layers p count pos
          ((runLayers pool layers p count pos (s, x)).1, x)).1.keyCache i =
        (runLayers pool layers p count pos (s, x)).1.keyCache i ∧
      (runLayers pool layers p count pos
          ((runLayers pool layers p count pos (s, x)).1, x)).1.valueCache i =
        (runLayers pool layers p count pos (s, x)).1.valueCache i := by
  by_cases outside : OutsideRows p count pos i
  · exact runLayers_outside fit pool layers _ x outside
  · simp only [OutsideRows, not_forall, not_or, Nat.not_lt, Nat.not_le] at outside
    obtain ⟨l, isLayer, starts, ends⟩ := outside
    obtain ⟨j, rfl⟩ := Nat.exists_eq_add_of_le starts
    have sameRow :=
      (runLayers_congr fit pool layers inside
        (runLayers_sameBelow fit pool layers s x count inside)
        (Agree.refl p.dim x)).2 l isLayer
    exact ⟨sameRow.key j (by omega), sameRow.value j (by omega)⟩

theorem ShardT.LoadedFrom.own_isPlausible
    {file : List UInt8} {cfg : Config} {assignment : AssignLayers} {env : LoadEnv} {sh : ShardT F}
    (loaded : sh.LoadedFrom file cfg assignment env)
    (accepted : cfg.isPlausible = true) : sh.own.Plausible := by
  have isOwn : sh.own = geometryOf (shardLocal cfg assignment) := by
    rw [loaded.own, shardLocal, geometryOf, geometryOf]
  rw [isOwn]
  exact geometryOf_isPlausible (shardLocal_isPlausible accepted loaded.range)

/-- A shard can process a position any number of times. -/
theorem shard_forward_local {cfg : Config} (accepted : cfg.isPlausible = true) {file : List UInt8}
    {assignment : AssignLayers} {env : LoadEnv} {sh : ShardT F}
    (loaded : shardLoad file cfg assignment env = some sh) (inRange : KernelsInRange sh.own)
    (s : RunState F) (x : Nat → F) {pos : Nat} (inside : pos < sh.own.seqLen) :
    ∃ after y, ForwardLocal sh s x pos after y := by
  have fit := inRange.rowsFit ((shardLoad_some loaded).own_isPlausible accepted)
  refine ⟨_, _, shardForward_withState sh s x inside, ?_, ?_, ?_⟩
  · intro i outside
    exact runLayers_outside fit sh.pool sh.layers s x outside
  · intro given other same sameRows
    exact ⟨_, _, shardForward_withState sh given other inside,
      runLayers_congr fit sh.pool sh.layers inside sameRows same⟩
  · have second := shardForward_withState sh
      (runLayers sh.pool sh.layers sh.own (sh.layerEnd - sh.layerStart) pos (s, x)).1 x inside
    rw [runLayers_again_activation fit sh.pool sh.layers s x inside] at second
    refine ⟨_, second, ?_, ?_⟩
    · funext i
      exact (runLayers_again_caches fit sh.pool sh.layers s x inside i).1
    · funext i
      exact (runLayers_again_caches fit sh.pool sh.layers s x inside i).2

section TwoShards

attribute [local instance] integerOps

/-- The first of two workers processes the second position. -/
theorem shard_forward_local_first :
    ∃ sh : ShardT Int, ∃ after y, ForwardLocal sh RunState.blank (fun i => i) 1 after y := by
  obtain ⟨sh, loaded⟩ := twoLayers_loads 0
  have own := (shardLoad_some loaded).own
  have inRange : KernelsInRange sh.own := by
    rw [own]
    apply Geometry.RowsFit.kernelsInRange
    · constructor <;> decide
    · decide
  have inside : 1 < sh.own.seqLen := by
    rw [own]
    decide
  exact ⟨sh, shard_forward_local (by decide) loaded inRange _ _ inside⟩

end TwoShards

end LlmRuntime.LlamaCore
