import LlmRuntime.DistInf.Payloads

/-!
# The shard of a worker

The layer range a worker holds, how it is loaded for an assignment and how an
activation passes through it.  The arithmetic of a layer is a parameter.
-/

namespace LlmRuntime.DistInf

universe u

/-- A word read as a C `int`. -/
def asInt (word : UInt32) : Int := Int.bmod word.toNat (2 ^ 32)

theorem asInt_of_nonneg {word : UInt32} (nonneg : 0 ≤ asInt word) : asInt word = word.toNat := by
  have bound := word.toNat_lt
  unfold asInt Int.bmod at nonneg ⊢
  dsimp only at nonneg ⊢
  split_ifs at nonneg ⊢ <;> omega

/-- The fields of the checkpoint header that the loader looks at. -/
structure Config where
  dim : Int
  hiddenDim : Int
  nLayers : Int
  nHeads : Int
  nKvHeads : Int
  vocabSize : Int
  seqLen : Int
  deriving DecidableEq, Repr

/-- The header check of `shard_fetch_config`. -/
def Config.isPlausible (cfg : Config) : Bool :=
  cfg.dim > 0 ∧ cfg.hiddenDim > 0 ∧ cfg.nLayers > 0 ∧ cfg.nHeads > 0 ∧
    cfg.nKvHeads > 0 ∧ cfg.vocabSize ≠ 0 ∧ cfg.seqLen > 0 ∧
    Int.tmod cfg.dim cfg.nHeads = 0

/-- What the weight server gives the inference thread: the header, if it
arrives, and whether every segment and tensor of the range can be had. -/
structure Fetch where
  header : Option Config
  tensors : Bool
  deriving DecidableEq, Repr

def shardMaxLayers : Int := 16
def shardDefaultMaxSeq : Int := 256

/-- The range check at the head of `shard_load`. -/
def shardRangeOk (cfg : Config) (assignment : AssignLayers) : Bool :=
  let l0 := asInt assignment.layerStart
  let l1 := asInt assignment.layerEnd
  ¬ (l0 < 0 ∨ l1 > cfg.nLayers ∨ l0 ≥ l1) ∧ l1 - l0 ≤ shardMaxLayers

/-- The header agrees with the geometry the master asserted. -/
def geometryAgrees (cfg : Config) (assignment : AssignLayers) : Bool :=
  cfg.dim = asInt assignment.dim ∧
    cfg.nLayers = asInt assignment.nLayersTotal ∧
    cfg.hiddenDim = asInt assignment.hiddenDim ∧
    cfg.nHeads = asInt assignment.nHeads

/-- `local.seq_len`: the number of positions the cache has room for. -/
def shardSeqLen (cfg : Config) (assignment : AssignLayers) : Int :=
  let maxSeq :=
    if asInt assignment.maxSeq ≤ 0 then shardDefaultMaxSeq
    else asInt assignment.maxSeq
  if maxSeq > cfg.seqLen then cfg.seqLen else maxSeq

/-- A shard that is resident, with the assignment it was loaded for. -/
structure Shard (Row : Type u) where
  assignment : AssignLayers
  seqLen : Int
  kv : Nat → Row

/-- The arithmetic of a worker. `tamper` is what it does to a result before it
reports it, and the identity on an honest worker. -/
structure Kernel (Row : Type u) where
  block : AssignLayers → Activation → Nat → List Row → Activation × Row
  blank : Row
  tamper : Activation → Activation

variable {Row : Type u}

def rowsBelow (kv : Nat → Row) (pos : Nat) : List Row := (List.range pos).map kv

/-- `shard_forward` on a resident shard. -/
def shardForward (kernel : Kernel Row) (shard : Shard Row) (x : Activation)
    (pos : UInt32) : Option (Activation × Shard Row) :=
  if asInt pos < 0 ∨ asInt pos ≥ shard.seqLen then none
  else
    let (result, row) := kernel.block shard.assignment x pos.toNat (rowsBelow shard.kv pos.toNat)
    some (result, { shard with kv := Function.update shard.kv pos.toNat row })

/-- A pass that succeeds is inside the cache; it writes one row and nothing
else of the shard. -/
theorem shardForward_some {kernel : Kernel Row} {shard after : Shard Row} {x result : Activation}
    {pos : UInt32} (passed : shardForward kernel shard x pos = some (result, after)) :
    (0 ≤ asInt pos ∧ asInt pos < shard.seqLen) ∧
      result = (kernel.block shard.assignment x pos.toNat (rowsBelow shard.kv pos.toNat)).1 ∧
      after =
        { shard with
          kv := Function.update shard.kv pos.toNat
            (kernel.block shard.assignment x pos.toNat (rowsBelow shard.kv pos.toNat)).2 } := by
  unfold shardForward at passed
  split_ifs at passed with outside
  have outcome := Option.some.inj passed
  have isResult := congrArg Prod.fst outcome
  have isAfter := congrArg Prod.snd outcome
  refine ⟨?_, isResult.symm, isAfter.symm⟩
  omega

/-- The status `inference_thread` reports for an assignment. -/
def loadStatus (assignment : AssignLayers) (fetch : Fetch) : UInt32 :=
  match fetch.header with
  | none => 1
  | some cfg =>
    if ¬ cfg.isPlausible then 1
    else if ¬ geometryAgrees cfg assignment then 2
    else if ¬ shardRangeOk cfg assignment ∨ ¬ fetch.tensors then 3
    else 0

/-- The shard that is resident after loading: none unless the status is 0. -/
def loadShard (kernel : Kernel Row) (assignment : AssignLayers) (fetch : Fetch) :
    Option (Shard Row) :=
  if loadStatus assignment fetch ≠ 0 then none
  else
    fetch.header.map fun cfg =>
      { assignment := assignment
        seqLen := shardSeqLen cfg assignment
        kv := fun _ => kernel.blank }

/-- The `cfg.dim` stored in the shard record, which `shard_load` overwrites once
the range check has passed and `shard_release` keeps. -/
def loadedDim (assignment : AssignLayers) (fetch : Fetch) (before : UInt32) : UInt32 :=
  match fetch.header with
  | none => before
  | some cfg =>
    if cfg.isPlausible ∧ geometryAgrees cfg assignment ∧
        shardRangeOk cfg assignment then
      assignment.dim
    else before

theorem loadShard_assignment {kernel : Kernel Row} {assignment : AssignLayers} {fetch : Fetch}
    {shard : Shard Row} (loaded : loadShard kernel assignment fetch = some shard) :
    shard.assignment = assignment := by
  unfold loadShard at loaded
  split_ifs at loaded with failed
  obtain ⟨cfg, _, isShard⟩ := Option.map_eq_some_iff.mp loaded
  rw [← isShard]

theorem loadShard_isSome (kernel : Kernel Row) {assignment : AssignLayers}
    {fetch : Fetch} (succeeded : loadStatus assignment fetch = 0) :
    (loadShard kernel assignment fetch).isSome := by
  unfold loadShard
  rw [if_neg (not_not.mpr succeeded), Option.isSome_map]
  cases header : fetch.header with
  | none =>
    have failed : loadStatus assignment fetch = 1 := by simp only [loadStatus, header]
    rw [failed] at succeeded
    exact absurd succeeded (by decide)
  | some cfg => rfl

/-- Arithmetic that passes activations on unchanged. -/
def echoKernel : Kernel Unit where
  block := fun _ x _ _ => (x, ())
  blank := ()
  tamper := id

end LlmRuntime.DistInf
