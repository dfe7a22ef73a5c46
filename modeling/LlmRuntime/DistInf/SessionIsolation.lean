import LlmRuntime.DistInf.WorkerThreads
import LlmRuntime.Library.Execution

/-!
# Session isolation on a worker

A hop is checked against the live session when it is decoded, and passes through
the shard when the inference thread drains it.  Between the two the shard can be
replaced.
-/

namespace LlmRuntime.DistInf

open Execution

universe u

variable {Row : Type u}

/-- The shard that is resident was loaded for the live session. -/
def ShardLive (worker : Worker Row) : Prop :=
  ∃ shard, worker.shard = some shard ∧ shard.assignment.sessionId = worker.session

/-- A hop is committed while the session it belongs to is the live one, and a
session goes live while the mailbox holds no hop of another one. -/
def keepsSession (worker : Worker Row) : WorkerEvent → Bool
  | .deliver _ _ => true
  | .listen =>
    match worker.listen with
    | .hopCommit hop _ => worker.haveHop || hop.sessionId == worker.session
    | _ => true
  | .infer _ _ =>
    match worker.infer with
    | .setSession assignment => !worker.haveHop || worker.hop.sessionId == assignment.sessionId
    | _ => true

variable {worker next : Worker Row}

theorem keepsSession_commit (guard : keepsSession worker .listen = true) {hop : InferHop}
    {staging : Activation} (atCommit : worker.listen = .hopCommit hop staging)
    (isEmpty : worker.haveHop = false) :
    hop.sessionId = worker.session := by
  simpa [keepsSession, atCommit, isEmpty] using guard

theorem keepsSession_goLive {fetch : Fetch} {fwdUs : UInt32}
    (guard : keepsSession worker (.infer fetch fwdUs) = true) {assignment : AssignLayers}
    (atGoLive : worker.infer = .setSession assignment) (filled : worker.haveHop = true) :
    worker.hop.sessionId = assignment.sessionId := by
  simpa [keepsSession, atGoLive, filled] using guard

/-- What holds where the inference thread stands. -/
def InferIsolated (worker : Worker Row) : Prop :=
  match worker.infer with
  | .release _ => worker.ready = false
  | .load _ => worker.ready = false
  | .setSession assignment =>
    worker.ready = false ∧ ∃ shard, worker.shard = some shard ∧ shard.assignment = assignment
  | .setReady _ => worker.ready = false ∧ ShardLive worker
  | .drain => ShardLive worker
  | .forward hop _ => ShardLive worker ∧ hop.sessionId = worker.session
  | _ => True

structure Isolated (worker : Worker Row) : Prop where
  liveShard : worker.ready = true → ShardLive worker
  mailbox : worker.haveHop = true → worker.hop.sessionId = worker.session
  inferring : InferIsolated worker

/-- What the listen thread can do to the fields the invariant is about: it
clears `ready`, and it fills an empty mailbox at its last step. -/
structure ListenFrame (worker next : Worker Row) : Prop where
  session : next.session = worker.session
  shard : next.shard = worker.shard
  infer : next.infer = worker.infer
  ready : next.ready = true → worker.ready = true
  mailbox :
    next.haveHop = true →
      (worker.haveHop = true ∧ next.hop = worker.hop) ∨
        ∃ staging, worker.listen = .hopCommit next.hop staging ∧ worker.haveHop = false

theorem ListenFrame.of_eq (session : next.session = worker.session)
    (shard : next.shard = worker.shard) (infer : next.infer = worker.infer)
    (ready : next.ready = true → worker.ready = true)
    (haveHop : next.haveHop = worker.haveHop) (hop : next.hop = worker.hop) :
    ListenFrame worker next := by
  refine ⟨session, shard, infer, ready, ?_⟩
  intro filled
  rw [haveHop] at filled
  exact Or.inl ⟨filled, hop⟩

theorem commitHop_frame {hop : InferHop} {staging : Activation}
    (atCommit : worker.listen = .hopCommit hop staging) :
    ListenFrame worker (commitHop worker hop staging) := by
  unfold commitHop
  split_ifs with busy
  · exact .of_eq rfl rfl rfl id rfl rfl
  · refine ⟨rfl, rfl, rfl, id, ?_⟩
    intro _
    exact Or.inr ⟨staging, atCommit, by simpa using busy⟩

theorem listenStep_frame (self : WorkerSelf) (worker : Worker Row) :
    ListenFrame worker (listenStep self worker).1 := by
  unfold listenStep
  cases pc : worker.listen with
  | hopCommit hop staging => exact commitHop_frame pc
  | assignClearReady src xid assignment =>
    refine .of_eq rfl rfl rfl ?_ rfl rfl
    intro contradiction
    cases contradiction
  | _ => exact .of_eq rfl rfl rfl id rfl rfl

theorem deliverStep_frame (self : WorkerSelf) (worker : Worker Row) (msg : RpcMsg) (src : RpcAddr) :
    ListenFrame worker (deliverStep self worker msg src).1 := by
  unfold deliverStep receive
  split_ifs <;> exact .of_eq rfl rfl rfl id rfl rfl

theorem ListenFrame.shardLive (frame : ListenFrame worker next)
    (live : ShardLive worker) : ShardLive next := by
  obtain ⟨shard, resident, rightSession⟩ := live
  exact ⟨shard, frame.shard.trans resident, rightSession.trans frame.session.symm⟩

theorem ListenFrame.not_ready (frame : ListenFrame worker next)
    (notReady : worker.ready = false) : next.ready = false := by
  by_contra ready
  have stillReady := frame.ready (by simpa using ready)
  rw [notReady] at stillReady
  cases stillReady

theorem ListenFrame.inferIsolated (frame : ListenFrame worker next)
    (inferring : InferIsolated worker) : InferIsolated next := by
  unfold InferIsolated at inferring ⊢
  rw [frame.infer]
  cases pc : worker.infer with
  | release | load =>
    rw [pc] at inferring
    exact frame.not_ready inferring
  | setSession assignment =>
    rw [pc] at inferring
    obtain ⟨notReady, shard, resident, loadedFor⟩ := inferring
    exact ⟨frame.not_ready notReady, shard, frame.shard.trans resident, loadedFor⟩
  | setReady assignment =>
    rw [pc] at inferring
    exact ⟨frame.not_ready inferring.1, frame.shardLive inferring.2⟩
  | drain =>
    rw [pc] at inferring
    exact frame.shardLive inferring
  | forward hop compute =>
    rw [pc] at inferring
    exact ⟨frame.shardLive inferring.1, inferring.2.trans frame.session.symm⟩
  | _ => trivial

/-- A step of the listen thread keeps the invariant when what it commits
belongs to the live session. -/
theorem ListenFrame.isolated (frame : ListenFrame worker next) (isolated : Isolated worker)
    (commitLive : ∀ hop staging, worker.listen = .hopCommit hop staging →
        worker.haveHop = false → next.haveHop = true →
        hop.sessionId = worker.session) :
    Isolated next := by
  refine ⟨?_, ?_, frame.inferIsolated isolated.inferring⟩
  · intro ready
    exact frame.shardLive (isolated.liveShard (frame.ready ready))
  · intro filled
    rw [frame.session]
    rcases frame.mailbox filled with ⟨wasFilled, sameHop⟩ | ⟨staging, atCommit, wasEmpty⟩
    · rw [sameHop]
      exact isolated.mailbox wasFilled
    · exact commitLive next.hop staging atCommit wasEmpty filled

theorem deliverStep_haveHop (self : WorkerSelf) (worker : Worker Row)
    (msg : RpcMsg) (src : RpcAddr) :
    (deliverStep self worker msg src).1.haveHop = worker.haveHop := by
  unfold deliverStep receive
  split_ifs <;> rfl

theorem forwardHop_isolated (kernel : Kernel Row) (hop : InferHop)
    (compute : Activation) (fwdUs : UInt32) (isolated : Isolated worker) :
    Isolated (forwardHop kernel worker hop compute fwdUs) := by
  unfold forwardHop
  cases passed :
      (worker.shard.bind fun shard =>
        shardForward kernel shard compute hop.pos) with
  | none => exact ⟨isolated.liveShard, isolated.mailbox, trivial⟩
  | some outcome =>
    obtain ⟨result, after⟩ := outcome
    obtain ⟨shard, resident, forwarded⟩ := Option.bind_eq_some_iff.mp passed
    have sameAssignment : after.assignment = shard.assignment := by
      rw [(shardForward_some forwarded).2.2]
    refine ⟨?_, isolated.mailbox, trivial⟩
    intro ready
    obtain ⟨live, isLive, rightSession⟩ := isolated.liveShard ready
    rw [resident] at isLive
    have sameShard : shard = live := Option.some.inj isLive
    refine ⟨after, rfl, ?_⟩
    rw [sameAssignment, sameShard]
    exact rightSession

/-- A step of the inference thread keeps the invariant when the session it
makes live fits the mailbox. -/
theorem isolated_inferStep (self : WorkerSelf) (kernel : Kernel Row)
    (fetch : Fetch) (fwdUs : UInt32) (isolated : Isolated worker)
    (mailboxFits : ∀ assignment, worker.infer = .setSession assignment → worker.haveHop = true →
        worker.hop.sessionId = assignment.sessionId) :
    Isolated (inferStep self kernel worker fetch fwdUs).1 := by
  have inferring := isolated.inferring
  unfold InferIsolated at inferring
  unfold inferStep
  cases pc : worker.infer with
  | top | testHop =>
    refine ⟨isolated.liveShard, isolated.mailbox, ?_⟩
    dsimp only [InferIsolated]
    split_ifs <;> trivial
  | copyAssignment | clearAssignment | report | send =>
    exact ⟨isolated.liveShard, isolated.mailbox, trivial⟩
  | clearReady assignment =>
    refine ⟨?_, isolated.mailbox, rfl⟩
    intro contradiction
    cases contradiction
  | release assignment =>
    rw [pc] at inferring
    refine ⟨?_, isolated.mailbox, inferring⟩
    intro ready
    rw [inferring] at ready
    cases ready
  | load assignment =>
    rw [pc] at inferring
    refine ⟨?_, isolated.mailbox, ?_⟩
    · intro ready
      rw [inferring] at ready
      cases ready
    · dsimp only [InferIsolated]
      split_ifs with succeeded
      · obtain ⟨shard, loaded⟩ := Option.isSome_iff_exists.mp (loadShard_isSome kernel succeeded)
        exact ⟨inferring, shard, loaded, loadShard_assignment loaded⟩
      · trivial
  | setSession assignment =>
    rw [pc] at inferring
    obtain ⟨notReady, shard, resident, loadedFor⟩ := inferring
    refine ⟨?_, ?_, notReady, shard, resident, ?_⟩
    · intro ready
      rw [notReady] at ready
      cases ready
    · exact mailboxFits assignment pc
    · rw [loadedFor]
  | setReady assignment =>
    rw [pc] at inferring
    exact ⟨fun _ => inferring.2, isolated.mailbox, trivial⟩
  | testReady =>
    refine ⟨isolated.liveShard, isolated.mailbox, ?_⟩
    dsimp only [InferIsolated]
    split_ifs with ready
    · exact isolated.liveShard ready
    · trivial
  | drain =>
    rw [pc] at inferring
    dsimp only [drainHop]
    split_ifs with filled
    · refine ⟨isolated.liveShard, ?_, inferring, isolated.mailbox filled⟩
      intro contradiction
      cases contradiction
    · exact ⟨isolated.liveShard, isolated.mailbox, trivial⟩
  | forward hop compute => exact forwardHop_isolated kernel hop compute fwdUs isolated

theorem isolated_workerNext (self : WorkerSelf) (kernel : Kernel Row) {event : WorkerEvent}
    (isolated : Isolated worker) (guard : keepsSession worker event = true) :
    Isolated (workerNext self kernel worker event) := by
  cases event with
  | deliver msg src =>
    refine (deliverStep_frame self worker msg src).isolated isolated ?_
    intro hop staging _ wasEmpty filled
    rw [deliverStep_haveHop, wasEmpty] at filled
    cases filled
  | listen =>
    refine (listenStep_frame self worker).isolated isolated ?_
    intro hop staging atCommit wasEmpty _
    exact keepsSession_commit guard atCommit wasEmpty
  | infer fetch fwdUs =>
    refine isolated_inferStep self kernel fetch fwdUs isolated ?_
    intro assignment atGoLive filled
    exact keepsSession_goLive guard atGoLive filled

/-- In every run that keeps the condition, whatever the inference thread passes
to `shard_forward` belongs to the session the resident shard was loaded for. -/
theorem forwarded_hop_session (self : WorkerSelf) (kernel : Kernel Row)
    (prev next : RpcAddr) (events : List WorkerEvent) (guarded : Along (workerNext self kernel)
        (fun worker event => keepsSession worker event = true)
        (Worker.init prev next) events)
    (hop : InferHop) (compute : Activation)
    (atForward : (after (workerNext self kernel) (Worker.init prev next)
        events).infer = .forward hop compute) :
    ∃ shard,
      (after (workerNext self kernel) (Worker.init prev next)
          events).shard = some shard ∧
        hop.sessionId = shard.assignment.sessionId := by
  have isolated : Isolated (after (workerNext self kernel) (Worker.init prev next) events) := by
    refine history_invariant (workerNext self kernel)
      (fun _ worker => Isolated worker) ?_ ?_ guarded
    · refine ⟨?_, ?_, trivial⟩
      · intro ready
        cases ready
      · intro filled
        cases filled
    · intro initial event isolated guard
      exact isolated_workerNext self kernel isolated guard
  have inferring := isolated.inferring
  rw [InferIsolated, atForward] at inferring
  obtain ⟨⟨shard, resident, rightSession⟩, sameSession⟩ := inferring
  exact ⟨shard, resident, sameSession.trans rightSession.symm⟩

def exampleSelf : WorkerSelf where
  workerId := 7
  master := ⟨0x0a000202, 5499⟩

/-- An assignment of all layers of a one-layer model with one float. -/
def exampleAssign (session : UInt32) : AssignLayers where
  sessionId := session
  modelId := 1
  layerStart := 0
  layerEnd := 1
  nLayersTotal := 1
  dim := 1
  hiddenDim := 1
  nHeads := 1
  nKvHeads := 1
  seqLen := 256
  vocabSize := 32
  maxSeq := 256
  weightsIp := 0
  weightsPort := 0

/-- The matching checkpoint, fetched completely. -/
def exampleFetch : Fetch where
  header := some ⟨1, 1, 1, 1, 1, 32, 256⟩
  tensors := true

def exampleHop (session seq : UInt32) : InferHop :=
  ⟨session, seq, 0, 0, 1, 0, 0⟩

/-- The master's assignment arrives and the hook handles it. -/
def assignEvents (session : UInt32) : List WorkerEvent :=
  .deliver (rpcFillCall 1 procAssignLayers (exampleAssign session).encode)
    exampleSelf.master :: List.replicate 4 .listen

/-- A hop arrives from the master and the hook handles it. -/
def hopEvents (session seq : UInt32) : List WorkerEvent :=
  .deliver (rpcFillCall 2 procInferReq (inferPayload (exampleHop session seq) [0x3f800000]))
    exampleSelf.master :: List.replicate 7 .listen

def inferEvents (count : Nat) : List WorkerEvent := List.replicate count (.infer exampleFetch 0)

/-- A shard is loaded and one hop of its session is drained. -/
def servedRun : List WorkerEvent :=
  assignEvents 1 ++ inferEvents 9 ++ hopEvents 1 1 ++ inferEvents 4

/-- The hop is still in the mailbox when the worker is assigned again. -/
def reassignedRun : List WorkerEvent :=
  assignEvents 1 ++ inferEvents 9 ++ hopEvents 1 1 ++ assignEvents 2 ++
    inferEvents 9 ++ inferEvents 4

/-- `servedRun` keeps the condition, and its hop meets a shard of its own
session. -/
theorem forwarded_hop_session_servedRun :
    ∃ shard,
      (after (workerNext exampleSelf echoKernel)
          (Worker.init exampleSelf.master exampleSelf.master)
          servedRun).shard = some shard ∧
        (exampleHop 1 1).sessionId = shard.assignment.sessionId :=
  forwarded_hop_session exampleSelf echoKernel exampleSelf.master
    exampleSelf.master servedRun (by decide +kernel) (exampleHop 1 1)
    [0x3f800000] (by decide +kernel)

/-- In `reassignedRun` a hop of session 1 is about to pass through the shard
loaded for session 2. -/
theorem reassignedRun_forwards_old_session :
    (after (workerNext exampleSelf echoKernel)
        (Worker.init exampleSelf.master exampleSelf.master)
        reassignedRun).infer =
        .forward (exampleHop 1 1) [0x3f800000] ∧
      ((after (workerNext exampleSelf echoKernel)
          (Worker.init exampleSelf.master exampleSelf.master)
          reassignedRun).shard.map fun shard =>
            shard.assignment.sessionId) = some 2 ∧
      (exampleHop 1 1).sessionId ≠ 2 := by
  decide +kernel

end LlmRuntime.DistInf
