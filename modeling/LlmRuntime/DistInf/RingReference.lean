import LlmRuntime.Library.Pipeline
import LlmRuntime.DistInf.HopTracking
import LlmRuntime.DistInf.SessionIsolation

/-!
# The ring without a network

What a session computes is a pipeline: the workers are its stages, their cache
rows the rows, and the master the loop that feeds it.
-/

namespace LlmRuntime.DistInf

open Discovery Pipeline

universe u

/-- A session over the workers of `ring`, with the layers each of them has
loaded. -/
structure RingSession (ι : Type) (Row : Type u) where
  cluster : Cluster ι Row
  nonzero : cluster.plan.session ≠ 0
  ring : List ι
  distinct : ring.Nodup
  nonempty : 0 < ring.length
  layers : ι → AssignLayers

/-- `shard_forward` with what the worker does to its result. -/
def shardStage {Row : Type u} (kernel : Kernel Row) (layers : AssignLayers) :
    Stage Activation Row :=
  fun x pos rows =>
    let (result, row) := kernel.block layers x pos rows
    (kernel.tamper result, row)

namespace RingSession

variable {ι : Type} {Row : Type u} (session : RingSession ι Row)

def epoch : UInt32 := session.cluster.plan.session

/-- The session when every hop arrives once and nothing is ever sent again. -/
def loop : Loop ι Activation Row Int where
  order := session.ring
  distinct := session.distinct
  stage := fun i => shardStage (session.cluster.kernel i) (session.layers i)
  first := session.cluster.gen.prompt.headD 0
  feed := session.cluster.gen.embed
  next := nextToken session.cluster.gen

/-- Where a hop goes that has passed `k` workers: to the next one, or to the
master. -/
def stageAddr (k : Nat) : RpcAddr :=
  match session.ring[k]? with
  | some i => session.cluster.addr i
  | none => session.cluster.plan.self

variable {session}

theorem stageAddr_inj {k : Nat} {i : ι} (isAddr : session.stageAddr k = session.cluster.addr i) :
    session.ring[k]? = some i := by
  unfold stageAddr at isAddr
  cases isWorker : session.ring[k]? with
  | none =>
    rw [isWorker] at isAddr
    exact absurd isAddr.symm (session.cluster.addr_ne_master i)
  | some j =>
    rw [isWorker] at isAddr
    rw [session.cluster.addr_injective isAddr]

theorem stageAddr_master {k : Nat} (isMaster : session.stageAddr k = session.cluster.plan.self) :
    session.ring.length ≤ k := by
  unfold stageAddr at isMaster
  cases isWorker : session.ring[k]? with
  | none => exact List.getElem?_eq_none_iff.mp isWorker
  | some i =>
    rw [isWorker] at isMaster
    exact absurd isMaster (session.cluster.addr_ne_master i)

end RingSession

section Knowledge

variable {ι : Type} {Row : Type u} [DecidableEq ι]
variable (session : RingSession ι Row)

/-- The first `count` cache rows of worker `i` are those of the pipeline. -/
def RowsKnown (worker : ι → Worker Row) (i : ι) (count : Nat) : Prop :=
  ∃ shard, (worker i).shard = some shard ∧ session.loop.Agrees i shard.kv count

/-- A hop that has passed `k` workers is right.  `log` has the positions of the
attempts made so far, the first of which carried the number after `base`. -/
structure StageHop (known : ι → Nat → Prop) (base : UInt32) (log : List Nat) (k : Nat)
    (hop : InferHop) (x : Activation) : Prop where
  value : x = session.loop.carried hop.pos.toNat k
  logged : ∃ index, log[index]? = some hop.pos.toNat ∧ hop.seq = base + UInt32.ofNat (index + 1)
  reached : ∀ i ∈ session.ring, known i hop.pos.toNat
  stored : ∀ j i, j < k → session.ring[j]? = some i → known i (hop.pos.toNat + 1)
  inside : 0 < k → hop.pos.toNat < 256

def stageChecks (known : ι → Nat → Prop) (base : UInt32) (log : List Nat) (k : Nat) :
    HopChecks where
  arrived := fun _ hop x =>
    hop.sessionId = session.epoch → StageHop session known base log k hop x
  decoded := fun _ hop x =>
    hop.sessionId = session.epoch ∧ StageHop session known base log k hop x
  admitted := fun _ hop x =>
    hop.sessionId = session.epoch ∧ StageHop session known base log k hop x
  accepted := fun hop x =>
    hop.sessionId = session.epoch ∧ StageHop session known base log k hop x
  passed := fun hop x =>
    hop.sessionId = session.epoch ∧ StageHop session known base log (k + 1) hop x

/-- No hop of the session comes to a worker outside the ring. -/
def strangerChecks : HopChecks where
  arrived := fun _ hop _ => hop.sessionId ≠ session.epoch
  decoded := fun _ hop _ => hop.sessionId ≠ session.epoch
  admitted := fun _ hop _ => hop.sessionId ≠ session.epoch
  accepted := fun hop _ => hop.sessionId ≠ session.epoch
  passed := fun hop _ => hop.sessionId ≠ session.epoch

variable {session}
variable {known more : ι → Nat → Prop} {base : UInt32}
variable {log : List Nat} {k : Nat} {hop : InferHop} {x : Activation}

theorem StageHop.mono (right : StageHop session known base log k hop x)
    (grows : ∀ i ∈ session.ring, ∀ count, known i count → more i count) (extra : List Nat) :
    StageHop session more base (log ++ extra) k hop x := by
  obtain ⟨index, isPos, isSeq⟩ := right.logged
  refine ⟨right.value, ⟨index, ?_, isSeq⟩, ?_, ?_, right.inside⟩
  · have bound := (List.getElem?_eq_some_iff.mp isPos).1
    rw [List.getElem?_append_left bound]
    exact isPos
  · intro i member
    exact grows i member _ (right.reached i member)
  · intro j i before isWorker
    exact grows i (List.mem_of_getElem? isWorker) _ (right.stored j i before isWorker)

theorem HopsOk.stageMono {worker : Worker Row}
    (tracked : HopsOk (stageChecks session known base log k) worker)
    (grows : ∀ i ∈ session.ring, ∀ count, known i count → more i count) (extra : List Nat) :
    HopsOk (stageChecks session more base (log ++ extra) k) worker := by
  refine tracked.mono ?_ ?_ ?_ ?_ ?_
  · intro src hop x arrived isSession
    exact (arrived isSession).mono grows extra
  · intro src hop x decoded
    exact ⟨decoded.1, decoded.2.mono grows extra⟩
  · intro src hop x admitted
    exact ⟨admitted.1, admitted.2.mono grows extra⟩
  · intro hop x accepted
    exact ⟨accepted.1, accepted.2.mono grows extra⟩
  · intro hop x passed
    exact ⟨passed.1, passed.2.mono grows extra⟩

/-- The event brings the worker neither new layers nor new neighbours. -/
def Undisturbed : WorkerEvent → Prop
  | .deliver msg _ => msg.mtype = .call → msg.proc ≠ procAssignLayers ∧ msg.proc ≠ procSetNeighbor
  | _ => True

instance : DecidablePred Undisturbed
  | .deliver _ _ => inferInstanceAs (Decidable (_ → _))
  | .listen => inferInstanceAs (Decidable True)
  | .infer _ _ => inferInstanceAs (Decidable True)

/-- The step is a successful call of `shard_forward`. -/
structure Forwards (kernel : Kernel Row) (worker : Worker Row) (event : WorkerEvent)
    (hop : InferHop) (x : Activation) (shard after : Shard Row) (result : Activation) : Prop where
  isInfer : ∃ fetch fwdUs, event = .infer fetch fwdUs
  atPc : worker.infer = .forward hop x
  resident : worker.shard = some shard
  pass : shardForward kernel shard x hop.pos = some (result, after)

/-- Session and neighbour stay, and the shard changes in a call of
`shard_forward` only. -/
structure StepKeeps (kernel : Kernel Row) (worker later : Worker Row)
    (event : WorkerEvent) : Prop where
  session : later.session = worker.session
  next : later.next = worker.next
  shard :
    later.shard = worker.shard ∨
      ∃ hop x shard after result,
        Forwards kernel worker event hop x shard after result ∧ later.shard = some after

section Steady

variable {self : WorkerSelf} {kernel : Kernel Row} {worker : Worker Row}
variable {event : WorkerEvent}

theorem deliverStep_next {msg : RpcMsg} {src : RpcAddr}
    (undisturbed : Undisturbed (.deliver msg src)) :
    (deliverStep self worker msg src).1.next = worker.next := by
  unfold deliverStep
  split_ifs with takes
  · have notNeighbor := (undisturbed takes.2).2
    unfold receive
    rw [if_neg notNeighbor]
    split_ifs <;> rfl
  · rfl

theorem listenStep_next : (listenStep self worker).1.next = worker.next := by
  unfold listenStep
  cases worker.listen with
  | hopCommit hop staging =>
    dsimp only [commitHop]
    split_ifs <;> rfl
  | _ => rfl

theorem inferStep_keeps (settled : HoldsOnly (fun _ => False) worker)
    (fetch : Fetch) (fwdUs : UInt32) :
    StepKeeps kernel worker (inferStep self kernel worker fetch fwdUs).1 (.infer fetch fwdUs) := by
  have held := settled.infer
  unfold inferStep
  cases pc : worker.infer with
  | forward hop x =>
    dsimp only
    rcases forwardHop_cases kernel worker hop x fwdUs with
      refused | ⟨shard, result, after, resident, pass, isNext⟩
    · rw [refused]
      exact ⟨rfl, rfl, .inl rfl⟩
    · rw [isNext]
      exact ⟨rfl, rfl, .inr ⟨hop, x, shard, after, result,
        ⟨⟨fetch, fwdUs, rfl⟩, pc, resident, pass⟩, rfl⟩⟩
  | drain =>
    dsimp only [drainHop]
    split_ifs <;> exact ⟨rfl, rfl, .inl rfl⟩
  | release | load | setSession =>
    rw [pc] at held
    exact held.elim
  | _ => exact ⟨rfl, rfl, .inl rfl⟩

theorem workerStep_keeps (settled : HoldsOnly (fun _ => False) worker)
    (undisturbed : Undisturbed event) :
    StepKeeps kernel worker (workerStep self kernel worker event).1 event := by
  cases event with
  | deliver msg src =>
    have frame := deliverStep_frame self worker msg src
    exact ⟨frame.session, deliverStep_next undisturbed, .inl frame.shard⟩
  | listen =>
    have frame := listenStep_frame self worker
    exact ⟨frame.session, listenStep_next, .inl frame.shard⟩
  | infer fetch fwdUs => exact inferStep_keeps settled fetch fwdUs

theorem Forwards.workerStep_shard {hop : InferHop} {x result : Activation} {shard after : Shard Row}
    (forwards : Forwards kernel worker event hop x shard after result) :
    (workerStep self kernel worker event).1.shard = some after := by
  obtain ⟨fetch, fwdUs, isInfer⟩ := forwards.isInfer
  rw [isInfer, workerStep, inferStep, forwards.atPc]
  dsimp only [forwardHop]
  rw [forwards.resident, Option.bind_some, forwards.pass]

theorem workerStep_settled (settled : HoldsOnly (fun _ => False) worker)
    (undisturbed : Undisturbed event) :
    HoldsOnly (fun _ => False) (workerStep self kernel worker event).1 := by
  refine settled.workerStep ?_
  intro msg src isDeliver accepted
  rw [isDeliver] at undisturbed
  exact (undisturbed accepted.1).1 accepted.2.1

end Steady

/-- The shard that the session has worker `i` run. -/
structure ShardServes (session : RingSession ι Row) (i : ι) (shard : Shard Row) : Prop where
  layers : shard.assignment = session.layers i
  room : shard.seqLen ≤ shardDefaultMaxSeq

section Pass

variable {i : ι} {shard after : Shard Row} {result : Activation}

omit [DecidableEq ι] in
theorem ShardServes.forward (serves : ShardServes session i shard)
    (pass : shardForward (session.cluster.kernel i) shard x hop.pos = some (result, after)) :
    ShardServes session i after ∧ hop.pos.toNat < 256 := by
  obtain ⟨⟨nonneg, below⟩, isResult, isAfter⟩ := shardForward_some pass
  have room := serves.room
  have isPos := asInt_of_nonneg nonneg
  unfold shardDefaultMaxSeq at room
  refine ⟨?_, by omega⟩
  rw [isAfter]
  exact ⟨serves.layers, serves.room⟩

/-- On a right hop `shard_forward` computes what the pipeline does. -/
theorem StageHop.forward (right : StageHop session known base log k hop x)
    (isWorker : session.ring[k]? = some i) (serves : ShardServes session i shard)
    (agrees : session.loop.Agrees i shard.kv hop.pos.toNat)
    (pass : shardForward (session.cluster.kernel i) shard x hop.pos = some (result, after)) :
    (session.cluster.kernel i).tamper result = session.loop.carried hop.pos.toNat (k + 1) ∧
      after.kv =
        Function.update shard.kv hop.pos.toNat
          (session.loop.stage i (session.loop.carried hop.pos.toNat k)
            hop.pos.toNat (session.loop.rows hop.pos.toNat i)).2 := by
  obtain ⟨inCache, isResult, isAfter⟩ := shardForward_some pass
  have isRows : rowsBelow shard.kv hop.pos.toNat = session.loop.rows hop.pos.toNat i := agrees
  rw [isRows, serves.layers, right.value] at isResult isAfter
  have atIndex : session.loop.order[k]? = some i := isWorker
  refine ⟨?_, ?_⟩
  · rw [Loop.carried_succ _ atIndex, isResult]
    rfl
  · rw [isAfter]
    rfl

end Pass

end Knowledge

end LlmRuntime.DistInf
