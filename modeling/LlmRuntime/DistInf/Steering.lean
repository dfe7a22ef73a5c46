import LlmRuntime.DistInf.SessionIsolation

/-!
# Who steers a worker

`worker_inference_hook` looks at the sender of a call; the cases of
`PROC_SET_NEIGHBOR` and `PROC_EVICT` in `discovery_listen_thread` do not.
-/

namespace LlmRuntime.DistInf

open Execution Discovery

universe u

variable {Row : Type u}

/-- A worker with `needs_reregister` and the sender of the datagram that its
listen thread took last. -/
structure Listener (Row : Type u) where
  worker : Worker Row
  needsReregister : Bool
  source : RpcAddr

/-- A step of one of the two threads, or the end of a registration that the
heartbeat thread has made while the listen thread was parked. -/
inductive ListenerEvent where
  | thread (event : WorkerEvent)
  | reregistered (neighbors : SetNeighbor)

def evictFlag (flag : Bool) (msg : RpcMsg) : Bool :=
  flag || decide (msg.mtype = .call ∧ msg.proc = procEvict)

section Steps

variable (self : WorkerSelf) (kernel : Kernel Row)

def listenerNext (state : Listener Row) : ListenerEvent → Listener Row
  | .thread (.deliver msg src) =>
    if state.worker.listen = .idle then
      { worker := (deliverStep self state.worker msg src).1
        needsReregister := evictFlag state.needsReregister msg
        source := src }
    else state
  | .thread event => { state with worker := workerNext self kernel state.worker event }
  | .reregistered neighbors =>
    if state.worker.listen = .idle then
      { state with
        worker :=
          { state.worker with
            prev := neighbors.prev
            next := neighbors.next }
        needsReregister := false }
    else state

/-- What the master steers a worker by. -/
structure Steering where
  prev : RpcAddr
  next : RpcAddr
  needsReregister : Bool
  haveAssignment : Bool
  assignment : AssignLayers
  ready : Bool
  lastSeq : UInt32
  deriving DecidableEq

def Listener.steering (state : Listener Row) : Steering where
  prev := state.worker.prev
  next := state.worker.next
  needsReregister := state.needsReregister
  haveAssignment := state.worker.haveAssignment
  assignment := state.worker.assignment
  ready := state.worker.ready
  lastSeq := state.worker.lastSeq

/-- The sender of the datagram for which the listen thread makes the step. -/
def stepSource (state : Listener Row) : ListenerEvent → Option RpcAddr
  | .thread (.deliver _ src) => if state.worker.listen = .idle then some src else none
  | .thread .listen => some state.source
  | _ => none

/-- The step commits a hop of the predecessor, which advances the counter. -/
def AdvancesCounter (before after : Listener Row) (src : RpcAddr) : Prop :=
  ∃ hop staging,
    before.worker.listen = .hopCommit hop staging ∧
      src = before.worker.prev ∧ before.worker.lastSeq < hop.seq ∧
      after.steering = { before.steering with lastSeq := hop.seq }

/-- A step for a datagram of another sender than the master leaves the steering
alone, but for the counter. -/
def OnlyMasterSteers (state : Listener Row) (event : ListenerEvent) : Prop :=
  ∀ src, stepSource state event = some src → src ≠ self.master →
    (listenerNext self kernel state event).steering = state.steering ∨
      AdvancesCounter state (listenerNext self kernel state event) src

/-- A datagram of another sender is no `PROC_SET_NEIGHBOR` with other pointers,
and no `PROC_EVICT` for a worker whose flag is down. -/
def HarmlessDelivery (state : Listener Row) : ListenerEvent → Prop
  | .thread (.deliver msg src) =>
    state.worker.listen = .idle → src ≠ self.master → msg.mtype = .call →
        (msg.proc = procSetNeighbor → SetNeighbor.size ≤ msg.payload.length →
            SetNeighbor.decode msg.payload = ⟨state.worker.prev, state.worker.next⟩) ∧
          (msg.proc = procEvict → state.needsReregister = true)
  | _ => True

instance decidableHarmlessDelivery (state : Listener Row) :
    ∀ event, Decidable (HarmlessDelivery self state event)
  | .thread (.deliver msg src) =>
    inferInstanceAs
      (Decidable (state.worker.listen = .idle → src ≠ self.master → msg.mtype = .call →
            (msg.proc = procSetNeighbor → SetNeighbor.size ≤ msg.payload.length →
                SetNeighbor.decode msg.payload = ⟨state.worker.prev, state.worker.next⟩) ∧
              (msg.proc = procEvict → state.needsReregister = true)))
  | .thread .listen => isTrue trivial
  | .thread (.infer _ _) => isTrue trivial
  | .reregistered _ => isTrue trivial

end Steps

/-- The sender that the hook has looked at is the one of the datagram. -/
def SourceChecked (self : WorkerSelf) (state : Listener Row) : Prop :=
  match state.worker.listen with
  | .idle => True
  | .assignStore _ _ _ => state.source = self.master
  | .assignClearReady _ _ _ => state.source = self.master
  | .assignResetSeq _ _ _ => state.source = self.master
  | .assignRaise _ _ _ => state.source = self.master
  | .hopReadReady src _ => state.source = src
  | .hopReadDim src _ => state.source = src
  | .hopDecode src _ _ => state.source = src
  | .hopTestReady src _ _ => state.source = src
  | .hopTestSource src _ _ => state.source = src
  | .hopTestSeq _ _ => state.source = state.worker.prev ∨ state.source = self.master
  | .hopCommit hop _ =>
    (state.source = state.worker.prev ∨ state.source = self.master) ∧ state.worker.lastSeq < hop.seq

section Invariant

variable {self : WorkerSelf} {kernel : Kernel Row}

theorem inferStep_listener (self : WorkerSelf) (kernel : Kernel Row)
    (worker : Worker Row) (fetch : Fetch) (fwdUs : UInt32) :
    (inferStep self kernel worker fetch fwdUs).1.listen = worker.listen ∧
      (inferStep self kernel worker fetch fwdUs).1.prev = worker.prev ∧
      (inferStep self kernel worker fetch fwdUs).1.lastSeq = worker.lastSeq := by
  unfold inferStep
  cases worker.infer with
  | drain =>
    dsimp only [drainHop]
    refine ⟨?_, ?_, ?_⟩ <;> split_ifs <;> rfl
  | forward hop compute =>
    dsimp only [forwardHop]
    refine ⟨?_, ?_, ?_⟩ <;> split <;> rfl
  | top | copyAssignment | clearAssignment | clearReady | release | load
  | setSession | setReady | report | testHop | testReady | send => exact ⟨rfl, rfl, rfl⟩

theorem SourceChecked.congr {state after : Listener Row} (checked : SourceChecked self state)
    (listen : after.worker.listen = state.worker.listen) (source : after.source = state.source)
    (prev : after.worker.prev = state.worker.prev)
    (lastSeq : after.worker.lastSeq = state.worker.lastSeq) :
    SourceChecked self after := by
  unfold SourceChecked at checked ⊢
  rw [listen, source, prev, lastSeq]
  exact checked

theorem sourceChecked_deliver (state : Listener Row) (msg : RpcMsg)
    (src : RpcAddr) (isIdle : state.worker.listen = .idle) :
    SourceChecked self (listenerNext self kernel state (.thread (.deliver msg src))) := by
  rw [listenerNext, if_pos isIdle]
  unfold SourceChecked deliverStep receive
  dsimp only
  split_ifs <;> simp_all

theorem sourceChecked_listen {state : Listener Row} (checked : SourceChecked self state) :
    SourceChecked self (listenerNext self kernel state (.thread .listen)) := by
  unfold SourceChecked at checked
  unfold SourceChecked listenerNext workerNext workerStep listenStep
  cases pc : state.worker.listen with
  | idle => simp only [pc]
  | assignStore | assignClearReady | assignResetSeq | hopReadDim =>
    simp only [pc] at checked
    exact checked
  | assignRaise src xid assignment => trivial
  | hopReadReady src payload =>
    simp only [pc] at checked ⊢
    split_ifs <;> exact checked
  | hopDecode src payload dim =>
    simp only [pc] at checked ⊢
    cases inferDecodeHop payload dim state.worker.session with
    | none => trivial
    | some decoded => exact checked
  | hopTestReady src hop staging =>
    simp only [pc] at checked ⊢
    split_ifs
    · exact checked
    · trivial
  | hopTestSource src hop staging =>
    simp only [pc] at checked ⊢
    split_ifs with known
    · rw [checked]
      exact known
    · trivial
  | hopTestSeq hop staging =>
    simp only [pc] at checked ⊢
    split_ifs with replayed
    · trivial
    · exact ⟨checked, UInt32.not_le.mp replayed⟩
  | hopCommit hop staging =>
    dsimp only [commitHop]
    split_ifs <;> trivial

theorem sourceChecked_step (state : Listener Row) (event : ListenerEvent)
    (checked : SourceChecked self state) :
    SourceChecked self (listenerNext self kernel state event) := by
  cases event with
  | reregistered neighbors =>
    rw [listenerNext]
    split_ifs with isIdle
    · unfold SourceChecked
      dsimp only
      rw [isIdle]
      trivial
    · exact checked
  | thread event =>
    cases event with
    | deliver msg src =>
      by_cases isIdle : state.worker.listen = .idle
      · exact sourceChecked_deliver state msg src isIdle
      · rw [listenerNext, if_neg isIdle]
        exact checked
    | listen => exact sourceChecked_listen checked
    | infer fetch fwdUs =>
      obtain ⟨listen, prev, lastSeq⟩ := inferStep_listener self kernel state.worker fetch fwdUs
      exact checked.congr listen rfl prev lastSeq

end Invariant

section Single

variable {self : WorkerSelf} {kernel : Kernel Row}

/-- The thread is idle, or looks at a hop without writing anything. -/
def ListenPc.reads : ListenPc → Bool
  | .assignStore _ _ _ => false
  | .assignClearReady _ _ _ => false
  | .assignResetSeq _ _ _ => false
  | .assignRaise _ _ _ => false
  | .hopCommit _ _ => false
  | _ => true

theorem listenStep_reads (self : WorkerSelf) {worker : Worker Row}
    (reads : worker.listen.reads = true) :
    ∃ pc, (listenStep self worker).1 = { worker with listen := pc } := by
  unfold listenStep
  cases pc : worker.listen with
  | idle => exact ⟨worker.listen, rfl⟩
  | hopReadReady | hopReadDim | hopDecode | hopTestReady | hopTestSource
  | hopTestSeq => exact ⟨_, rfl⟩
  | _ =>
    rw [pc] at reads
    cases reads

/-- At every other place the hook has the datagram from the master, or is about
to commit a hop of a sender that it knows. -/
theorem SourceChecked.of_writes {state : Listener Row} (checked : SourceChecked self state)
    (writes : state.worker.listen.reads = false) :
    state.source = self.master ∨
      ∃ hop staging,
        state.worker.listen = .hopCommit hop staging ∧
          state.source = state.worker.prev ∧
          state.worker.lastSeq < hop.seq := by
  unfold SourceChecked at checked
  cases pc : state.worker.listen with
  | assignStore | assignClearReady | assignResetSeq | assignRaise =>
    rw [pc] at checked
    exact .inl checked
  | hopCommit hop staging =>
    rw [pc] at checked
    rcases checked.1 with isPrev | isMaster
    · exact .inr ⟨hop, staging, rfl, isPrev, checked.2⟩
    · exact .inl isMaster
  | _ =>
    rw [pc] at writes
    cases writes

/-- A step of the hook is made for the master, or changes nothing, or commits a
hop. -/
theorem listen_onlyMasterSteers {state : Listener Row} (checked : SourceChecked self state) :
    OnlyMasterSteers self kernel state (.thread .listen) := by
  intro src isSource stranger
  have isSrc : state.source = src := Option.some.inj isSource
  have isNext :
      (listenerNext self kernel state (.thread .listen)).worker =
        (listenStep self state.worker).1 :=
    rfl
  cases reads : state.worker.listen.reads with
  | true =>
    obtain ⟨pc, isStep⟩ := listenStep_reads self reads
    left
    unfold Listener.steering
    rw [isNext, isStep]
    rfl
  | false =>
    rcases checked.of_writes reads with isMaster | ⟨hop, staging, pc, isPrev, newer⟩
    · exact (stranger (isSrc.symm.trans isMaster)).elim
    · simp only [listenStep, pc] at isNext
      by_cases busy : state.worker.haveHop = true
      · rw [commitHop, if_pos busy] at isNext
        left
        unfold Listener.steering
        rw [isNext]
        rfl
      · rw [commitHop, if_neg busy] at isNext
        refine .inr ⟨hop, staging, pc, isSrc.symm.trans isPrev, newer, ?_⟩
        unfold Listener.steering
        rw [isNext]
        rfl

theorem evictFlag_of_other {flag : Bool} {msg : RpcMsg}
    (other : ¬ (msg.mtype = .call ∧ msg.proc = procEvict)) :
    evictFlag flag msg = flag := by
  rw [evictFlag, decide_eq_false other, Bool.or_false]

/-- The worker after a datagram of a stranger: new pointers, or the old worker
with the thread in the hook or still idle. -/
theorem deliverStep_stranger {worker : Worker Row} {msg : RpcMsg} {src : RpcAddr}
    (isIdle : worker.listen = .idle) (isCall : msg.mtype = .call) (stranger : src ≠ self.master) :
    (msg.proc = procSetNeighbor ∧ SetNeighbor.size ≤ msg.payload.length ∧
        (deliverStep self worker msg src).1 =
          { worker with
            prev := (SetNeighbor.decode msg.payload).prev
            next := (SetNeighbor.decode msg.payload).next }) ∨
      ((msg.proc ≠ procSetNeighbor ∨
          msg.payload.length < SetNeighbor.size) ∧
        ∃ pc, (deliverStep self worker msg src).1 = { worker with listen := pc }) := by
  rw [deliverStep, if_pos ⟨isIdle, isCall⟩]
  by_cases isNeighbor : msg.proc = procSetNeighbor
  · rw [receive, if_pos isNeighbor]
    split_ifs with tooShort
    · exact .inr ⟨.inr tooShort, worker.listen, rfl⟩
    · exact .inl ⟨isNeighbor, not_lt.mp tooShort, rfl⟩
  · refine .inr ⟨.inl isNeighbor, ?_⟩
    rw [receive, if_neg isNeighbor]
    split_ifs with isEvict isAssign tooShort isInfer
    · exact ⟨worker.listen, rfl⟩
    · exact ⟨worker.listen, rfl⟩
    · exact ⟨worker.listen, rfl⟩
    · exact ⟨_, rfl⟩
    · exact ⟨worker.listen, rfl⟩

theorem not_advances_of_idle {state after : Listener Row} {src : RpcAddr}
    (isIdle : state.worker.listen = .idle) :
    ¬ AdvancesCounter state after src := by
  rintro ⟨hop, staging, pc, -⟩
  rw [isIdle] at pc
  cases pc

theorem steering_deliver {state : Listener Row} {msg : RpcMsg} {src : RpcAddr}
    (isIdle : state.worker.listen = .idle) (isCall : msg.mtype = .call)
    (stranger : src ≠ self.master) :
    (listenerNext self kernel state
        (.thread (.deliver msg src))).steering = state.steering ↔
      (msg.proc = procSetNeighbor → SetNeighbor.size ≤ msg.payload.length →
          SetNeighbor.decode msg.payload = ⟨state.worker.prev, state.worker.next⟩) ∧
        (msg.proc = procEvict → state.needsReregister = true) := by
  have different : procSetNeighbor ≠ procEvict := by decide
  rw [listenerNext, if_pos isIdle]
  unfold Listener.steering
  dsimp only
  rcases deliverStep_stranger isIdle isCall stranger with
    ⟨isNeighbor, long, isNext⟩ | ⟨other, pc, isNext⟩
  · have notEvict : ¬ (msg.mtype = .call ∧ msg.proc = procEvict) := by
      rintro ⟨-, isEvict⟩
      exact different (isNeighbor.symm.trans isEvict)
    rw [isNext, evictFlag_of_other notEvict]
    constructor
    · intro same
      refine ⟨fun _ _ => ?_, fun isEvict => (notEvict ⟨isCall, isEvict⟩).elim⟩
      have samePrev := congrArg Steering.prev same
      have sameNext := congrArg Steering.next same
      dsimp only at samePrev sameNext
      rw [← samePrev, ← sameNext]
    · rintro ⟨pointers, -⟩
      rw [pointers isNeighbor long]
  · rw [isNext, evictFlag]
    constructor
    · intro same
      constructor
      · intro isNeighbor long
        rcases other with notNeighbor | tooShort
        · exact (notNeighbor isNeighbor).elim
        · exact (not_lt.mpr long tooShort).elim
      · intro isEvict
        have sameFlag := congrArg Steering.needsReregister same
        dsimp only at sameFlag
        rw [decide_eq_true ⟨isCall, isEvict⟩, Bool.or_true] at sameFlag
        exact sameFlag.symm
    · rintro ⟨-, flag⟩
      by_cases isEvict : msg.proc = procEvict
      · rw [flag isEvict, Bool.true_or]
      · rw [decide_eq_false fun evict => isEvict evict.2, Bool.or_false]

/-- A delivery leaves the steering alone exactly if it is harmless. -/
theorem deliver_onlyMasterSteers_iff (state : Listener Row) (msg : RpcMsg) (src : RpcAddr) :
    OnlyMasterSteers self kernel state (.thread (.deliver msg src)) ↔
      HarmlessDelivery self state (.thread (.deliver msg src)) := by
  constructor
  · intro steers isIdle stranger isCall
    have isSource : stepSource state (.thread (.deliver msg src)) = some src := by
      rw [stepSource, if_pos isIdle]
    have same := (steers src isSource stranger).resolve_right (not_advances_of_idle isIdle)
    exact (steering_deliver isIdle isCall stranger).mp same
  · intro harmless other isSource stranger
    left
    by_cases isIdle : state.worker.listen = .idle
    · rw [stepSource, if_pos isIdle] at isSource
      have isSrc : src = other := Option.some.inj isSource
      rw [← isSrc] at stranger
      by_cases isCall : msg.mtype = .call
      · exact (steering_deliver isIdle isCall stranger).mpr (harmless isIdle stranger isCall)
      · have notEvict : ¬ (msg.mtype = .call ∧ msg.proc = procEvict) := fun evict => isCall evict.1
        rw [listenerNext, if_pos isIdle, evictFlag_of_other notEvict,
          deliverStep, if_neg fun taken => isCall taken.2]
        rfl
    · rw [listenerNext, if_neg isIdle]

theorem onlyMasterSteers_iff (state : Listener Row) (event : ListenerEvent)
    (checked : SourceChecked self state) :
    OnlyMasterSteers self kernel state event ↔ HarmlessDelivery self state event := by
  cases event with
  | reregistered neighbors =>
    refine iff_of_true ?_ trivial
    intro src isSource
    cases isSource
  | thread event =>
    cases event with
    | deliver msg src => exact deliver_onlyMasterSteers_iff state msg src
    | listen => exact iff_of_true (listen_onlyMasterSteers checked) trivial
    | infer fetch fwdUs =>
      refine iff_of_true ?_ trivial
      intro src isSource
      cases isSource

end Single

/-- Only the master steers a worker in exactly those runs in which nobody else
sends it other pointers or evicts it. -/
theorem only_master_steers_iff (self : WorkerSelf) (kernel : Kernel Row) {start : Listener Row}
    (isIdle : start.worker.listen = .idle) (events : List ListenerEvent) :
    Along (listenerNext self kernel) (OnlyMasterSteers self kernel) start
        events ↔
      Along (listenerNext self kernel) (HarmlessDelivery self) start events := by
  have checked : SourceChecked self start := by
    unfold SourceChecked
    rw [isIdle]
    trivial
  exact along_congr_of_invariant _ (SourceChecked self)
    (fun listener event checkedNow _ =>
      sourceChecked_step listener event checkedNow)
    onlyMasterSteers_iff checked events

def strangerAddr : RpcAddr := ⟨0x0a000263, 7⟩

/-- A worker whose predecessor is that address. -/
def exampleListener : Listener Unit where
  worker := Worker.init strangerAddr exampleSelf.master
  needsReregister := false
  source := exampleSelf.master

/-- A hop of the predecessor is committed, and a short `PROC_SET_NEIGHBOR` of it
refused. -/
def predecessorEvents : List WorkerEvent :=
  .deliver (rpcFillCall 2 procInferReq (inferPayload (exampleHop 1 1) [0x3f800000]))
      strangerAddr ::
    List.replicate 7 .listen ++ [.deliver (rpcFillCall 3 procSetNeighbor [1]) strangerAddr]

def steadyRun : List ListenerEvent :=
  (assignEvents 1 ++ inferEvents 9 ++ predecessorEvents).map .thread

theorem only_master_steers_steadyRun :
    Along (listenerNext exampleSelf echoKernel)
      (OnlyMasterSteers exampleSelf echoKernel) exampleListener
      steadyRun :=
  (only_master_steers_iff exampleSelf echoKernel rfl steadyRun).mpr (by decide +kernel)

/-- The stranger gives a worker new neighbours and evicts it. -/
theorem stranger_steers :
    strangerAddr ≠ exampleSelf.master ∧
      (after (listenerNext exampleSelf echoKernel) exampleListener [.thread
              (.deliver (rpcFillCall 1 procSetNeighbor
                  (SetNeighbor.encode ⟨⟨1, 1⟩, strangerAddr⟩))
                strangerAddr),
            .thread (.deliver (rpcFillCall 2 procEvict []) strangerAddr)]).steering =
        { exampleListener.steering with
          prev := ⟨1, 1⟩
          next := strangerAddr
          needsReregister := true } := by
  decide +kernel

end LlmRuntime.DistInf
