import LlmRuntime.DistInf.Cluster

/-!
# Following a hop through a worker

A hop is received, decoded, tested three times, put into the mailbox, drained,
computed and sent on.  The rule below carries a predicate for each stage through
every step of both threads.
-/

namespace LlmRuntime.DistInf

open Discovery

universe u

/-- What is known of a hop at the stages of its way through a worker. -/
structure HopChecks where
  arrived : RpcAddr → InferHop → Activation → Prop
  decoded : RpcAddr → InferHop → Activation → Prop
  admitted : RpcAddr → InferHop → Activation → Prop
  accepted : InferHop → Activation → Prop
  passed : InferHop → Activation → Prop

def PayloadArrived (checks : HopChecks) (src : RpcAddr) (payload : List UInt8) : Prop :=
  ∀ dim session hop x, inferDecodeHop payload dim session = some (hop, x) → checks.arrived src hop x

def ListenHops (checks : HopChecks) : ListenPc → Prop
  | .hopReadReady src payload => PayloadArrived checks src payload
  | .hopReadDim src payload => PayloadArrived checks src payload
  | .hopDecode src payload _ => PayloadArrived checks src payload
  | .hopTestReady src hop x => checks.decoded src hop x
  | .hopTestSource src hop x => checks.admitted src hop x
  | .hopTestSeq hop x => checks.accepted hop x
  | .hopCommit hop x => checks.accepted hop x
  | _ => True

def InferHops (checks : HopChecks) : InferPc → Prop
  | .forward hop x => checks.accepted hop x
  | .send hop x _ => checks.passed hop x
  | _ => True

/-- Every hop that the worker holds is known to be what its stage says. -/
structure HopsOk {Row : Type u} (checks : HopChecks) (worker : Worker Row) : Prop where
  listen : ListenHops checks worker.listen
  mailbox : worker.haveHop = true → checks.accepted worker.hop worker.activation
  infer : InferHops checks worker.infer

/-- How the stages follow from each other in one step of a worker. -/
structure HopRules {Row : Type u} (checks : HopChecks) (node : WorkerSelf) (kernel : Kernel Row)
    (worker : Worker Row) (event : WorkerEvent) : Prop where
  delivers :
    ∀ msg src, event = .deliver msg src → msg.mtype = .call →
      msg.proc = procInferReq → PayloadArrived checks src msg.payload
  decodes :
    ∀ src payload dim hop x,
      inferDecodeHop payload dim worker.session = some (hop, x) →
        checks.arrived src hop x → checks.decoded src hop x
  admits : ∀ src hop x, worker.ready = true → checks.decoded src hop x → checks.admitted src hop x
  accepts :
    ∀ src hop x, event = .listen → worker.listen = .hopTestSource src hop x →
      src = worker.prev ∨ src = node.master →
      checks.admitted src hop x → checks.accepted hop x
  passes :
    ∀ fetch fwdUs hop x shard result after,
      event = .infer fetch fwdUs → worker.infer = .forward hop x →
      worker.shard = some shard →
      shardForward kernel shard x hop.pos = some (result, after) →
      checks.accepted hop x → checks.passed hop (kernel.tamper result)

section Steps

variable {Row : Type u} {checks later : HopChecks} {self : WorkerSelf}
variable {kernel : Kernel Row} {worker : Worker Row} {event : WorkerEvent}

theorem HopsOk.deliver {msg : RpcMsg} {src : RpcAddr} (holds : HopsOk checks worker)
    (rules : HopRules checks self kernel worker (.deliver msg src)) :
    HopsOk checks (deliverStep self worker msg src).1 := by
  rcases deliverStep_cases self worker msg src with same | neighbors | assigned | hopped
  · rw [same]
    exact holds
  · obtain ⟨prev, next, isNext⟩ := neighbors
    rw [isNext]
    exact ⟨holds.listen, holds.mailbox, holds.infer⟩
  · obtain ⟨isIdle, accepted, isNext⟩ := assigned
    rw [isNext]
    exact ⟨trivial, holds.mailbox, holds.infer⟩
  · obtain ⟨isIdle, isCall, isHop, isNext⟩ := hopped
    rw [isNext]
    exact ⟨rules.delivers msg src rfl isCall isHop, holds.mailbox, holds.infer⟩

theorem HopsOk.commit {hop : InferHop} {x : Activation}
    (holds : HopsOk checks worker) (accepted : checks.accepted hop x) :
    HopsOk checks (commitHop worker hop x) := by
  unfold commitHop
  split_ifs
  · exact ⟨trivial, holds.mailbox, holds.infer⟩
  · exact ⟨trivial, fun _ => accepted, holds.infer⟩

theorem HopsOk.listenStep (holds : HopsOk checks worker)
    (rules : HopRules checks self kernel worker .listen) :
    HopsOk checks (listenStep self worker).1 := by
  have known := holds.listen
  unfold DistInf.listenStep
  cases pc : worker.listen with
  | idle => exact holds
  | assignStore | assignClearReady | assignResetSeq | assignRaise =>
    exact ⟨trivial, holds.mailbox, holds.infer⟩
  | hopReadReady src payload =>
    rw [pc] at known
    refine ⟨?_, holds.mailbox, holds.infer⟩
    cases worker.ready <;> exact known
  | hopReadDim src payload =>
    rw [pc] at known
    exact ⟨known, holds.mailbox, holds.infer⟩
  | hopDecode src payload dim =>
    rw [pc] at known
    refine ⟨?_, holds.mailbox, holds.infer⟩
    dsimp only
    cases decoded : inferDecodeHop payload dim worker.session with
    | none => trivial
    | some result =>
      obtain ⟨hop, x⟩ := result
      exact rules.decodes src payload dim hop x decoded (known dim worker.session hop x decoded)
  | hopTestReady src hop x =>
    rw [pc] at known
    refine ⟨?_, holds.mailbox, holds.infer⟩
    dsimp only
    split_ifs with ready
    · exact rules.admits src hop x ready known
    · trivial
  | hopTestSource src hop x =>
    rw [pc] at known
    refine ⟨?_, holds.mailbox, holds.infer⟩
    dsimp only
    split_ifs with fromNeighbor
    · exact rules.accepts src hop x rfl pc fromNeighbor known
    · trivial
  | hopTestSeq hop x =>
    rw [pc] at known
    refine ⟨?_, holds.mailbox, holds.infer⟩
    dsimp only
    split_ifs with replayed
    · trivial
    · exact known
  | hopCommit hop x =>
    rw [pc] at known
    exact holds.commit known

/-- `shard_forward` refuses, or one pass is made and its result is to be
sent. -/
theorem forwardHop_cases (kernel : Kernel Row) (worker : Worker Row)
    (hop : InferHop) (x : Activation) (fwdUs : UInt32) :
    forwardHop kernel worker hop x fwdUs = { worker with infer := .top } ∨
      ∃ shard result after, worker.shard = some shard ∧
        shardForward kernel shard x hop.pos = some (result, after) ∧
        forwardHop kernel worker hop x fwdUs =
          { worker with
            shard := some after
            infer := .send hop (kernel.tamper result) fwdUs } := by
  unfold forwardHop
  split
  · exact .inl rfl
  · rename_i result after computed
    obtain ⟨shard, resident, pass⟩ := Option.bind_eq_some_iff.mp computed
    exact .inr ⟨shard, result, after, resident, pass, rfl⟩

theorem HopsOk.forward {fetch : Fetch} {fwdUs : UInt32} {hop : InferHop} {x : Activation}
    (holds : HopsOk checks worker) (rules : HopRules checks self kernel worker (.infer fetch fwdUs))
    (atPc : worker.infer = .forward hop x) :
    HopsOk checks (forwardHop kernel worker hop x fwdUs) := by
  have known := holds.infer
  rw [atPc] at known
  rcases forwardHop_cases kernel worker hop x fwdUs with
    refused | ⟨shard, result, after, resident, pass, isNext⟩
  · rw [refused]
    exact ⟨holds.listen, holds.mailbox, trivial⟩
  · rw [isNext]
    exact ⟨holds.listen, holds.mailbox,
      rules.passes fetch fwdUs hop x shard result after rfl atPc resident pass known⟩

theorem HopsOk.inferStep {fetch : Fetch} {fwdUs : UInt32} (holds : HopsOk checks worker)
    (rules : HopRules checks self kernel worker (.infer fetch fwdUs)) :
    HopsOk checks (inferStep self kernel worker fetch fwdUs).1 := by
  have quiet : ∀ pc : InferPc, InferHops checks pc → HopsOk checks { worker with infer := pc } :=
    fun pc known => ⟨holds.listen, holds.mailbox, known⟩
  unfold DistInf.inferStep
  cases pc : worker.infer with
  | top =>
    refine quiet _ ?_
    cases worker.haveAssignment <;> trivial
  | copyAssignment | clearAssignment | clearReady | release | setSession
  | setReady => exact ⟨holds.listen, holds.mailbox, trivial⟩
  | load assignment =>
    refine ⟨holds.listen, holds.mailbox, ?_⟩
    dsimp only
    split_ifs <;> trivial
  | report assignment status => exact quiet _ trivial
  | testHop =>
    refine quiet _ ?_
    cases worker.haveHop <;> trivial
  | testReady =>
    refine quiet _ ?_
    cases worker.ready <;> trivial
  | drain =>
    dsimp only [drainHop]
    split_ifs with filled
    · exact ⟨holds.listen, (fun isFull => nomatch isFull), holds.mailbox filled⟩
    · exact quiet _ trivial
  | forward hop x => exact holds.forward rules pc
  | send hop x passUs => exact quiet _ trivial

theorem HopsOk.workerStep (holds : HopsOk checks worker)
    (rules : HopRules checks self kernel worker event) :
    HopsOk checks (workerStep self kernel worker event).1 := by
  cases event with
  | deliver msg src => exact holds.deliver rules
  | listen => exact holds.listenStep rules
  | infer fetch fwdUs => exact holds.inferStep rules

theorem HopsOk.mono (holds : HopsOk checks worker)
    (arrived : ∀ src hop x, checks.arrived src hop x → later.arrived src hop x)
    (decoded : ∀ src hop x, checks.decoded src hop x → later.decoded src hop x)
    (admitted : ∀ src hop x, checks.admitted src hop x → later.admitted src hop x)
    (accepted : ∀ hop x, checks.accepted hop x → later.accepted hop x)
    (passed : ∀ hop x, checks.passed hop x → later.passed hop x) :
    HopsOk later worker := by
  have payloads :
      ∀ src payload, PayloadArrived checks src payload → PayloadArrived later src payload := by
    intro src payload known dim session hop x isHop
    exact arrived src hop x (known dim session hop x isHop)
  refine ⟨?_, ?_, ?_⟩
  · have known := holds.listen
    cases pc : worker.listen with
    | hopReadReady src payload | hopReadDim src payload
    | hopDecode src payload dim =>
      rw [pc] at known
      exact payloads src payload known
    | hopTestReady src hop x =>
      rw [pc] at known
      exact decoded src hop x known
    | hopTestSource src hop x =>
      rw [pc] at known
      exact admitted src hop x known
    | hopTestSeq hop x | hopCommit hop x =>
      rw [pc] at known
      exact accepted hop x known
    | idle | assignStore | assignClearReady | assignResetSeq
    | assignRaise => trivial
  · intro filled
    exact accepted _ _ (holds.mailbox filled)
  · have known := holds.infer
    cases pc : worker.infer <;> rw [pc] at known <;>
      first
      | trivial
      | exact accepted _ _ known
      | exact passed _ _ known

end Steps

end LlmRuntime.DistInf
