import LlmRuntime.Library.Execution
import LlmRuntime.DistInf.DriverSteps
import LlmRuntime.DistInf.WorkerThreads

/-!
# Master, workers and the network between them

The threads of the master and of every worker take turns in any order.  `wire`
keeps every datagram ever sent: it may be delivered at any later time, any
number of times, or never.
-/

namespace LlmRuntime.DistInf

open Discovery Execution Function

universe u

/-- The nodes of a session and what they compute. -/
structure Cluster (ι : Type) (Row : Type u) where
  plan : SessionPlan
  gen : Generation
  addr : ι → RpcAddr
  workerId : ι → UInt32
  kernel : ι → Kernel Row
  addr_injective : Function.Injective addr
  addr_ne_master : ∀ i, addr i ≠ plan.self
  workerId_injective : Function.Injective workerId

/-- One successful call of `shard_forward`, with what the worker made of it. -/
structure Pass (ι : Type) where
  worker : ι
  assignment : AssignLayers
  hop : InferHop
  input : Activation
  output : Activation
  deriving DecidableEq

/-- `passes` is the history of the calls of `shard_forward`. -/
structure ClusterState (ι : Type) (Row : Type u) where
  driver : Driver
  worker : ι → Worker Row
  wire : List Datagram
  passes : List (Pass ι)

/-- One thing that happens.  `garble` brings bytes that do not decode to the
master's socket; `repoint` is a worker's heartbeat thread registering anew and
taking over the neighbours of the reply. -/
inductive ClusterEvent (ι : Type) where
  | arrive (datagram : Datagram)
  | garble (src : RpcAddr)
  | master (tick : Tick)
  | worker (i : ι) (event : WorkerEvent)
  | repoint (i : ι) (prev next : RpcAddr)

variable {ι : Type} {Row : Type u}

namespace Cluster

def workerSelf (cluster : Cluster ι Row) (i : ι) : WorkerSelf where
  workerId := cluster.workerId i
  master := cluster.plan.self

end Cluster

def passOf (kernel : Kernel Row) (i : ι) (worker : Worker Row) :
    WorkerEvent → Option (Pass ι)
  | .infer _ _ =>
    match worker.infer with
    | .forward hop compute =>
      worker.shard.bind fun shard =>
        (shardForward kernel shard compute hop.pos).map fun outcome =>
          ⟨i, shard.assignment, hop, compute, kernel.tamper outcome.1⟩
    | _ => none
  | _ => none

/-- A worker receives only what has been sent to it. -/
def Deliverable (cluster : Cluster ι Row) (state : ClusterState ι Row) (i : ι) :
    WorkerEvent → Prop
  | .deliver msg src => ⟨src, cluster.addr i, msg⟩ ∈ state.wire
  | _ => True

instance (cluster : Cluster ι Row) (state : ClusterState ι Row) (i : ι)
    (event : WorkerEvent) : Decidable (Deliverable cluster state i event) :=
  match event with
  | .deliver _ _ => inferInstanceAs (Decidable (_ ∈ _))
  | .listen => inferInstanceAs (Decidable True)
  | .infer _ _ => inferInstanceAs (Decidable True)

section Steps

variable [DecidableEq ι] (cluster : Cluster ι Row)

def workerActs (state : ClusterState ι Row) (i : ι) (event : WorkerEvent) : ClusterState ι Row :=
  { state with
    worker :=
      update state.worker i
        (workerStep (cluster.workerSelf i) (cluster.kernel i) (state.worker i) event).1
    wire :=
      state.wire ++
        (workerStep (cluster.workerSelf i) (cluster.kernel i)
          (state.worker i) event).2.map (Outgoing.datagram (cluster.addr i) 0)
    passes := state.passes ++ (passOf (cluster.kernel i) i (state.worker i) event).toList }

/-- A step of the master's thread. -/
def masterActs (state : ClusterState ι Row) (tick : Tick) : ClusterState ι Row :=
  { state with
    driver := (driverRun cluster.plan cluster.gen state.driver tick).1
    wire := state.wire ++ (driverRun cluster.plan cluster.gen state.driver tick).2 }

/-- Something reaches the master's socket. -/
def masterReceives (state : ClusterState ι Row) (received : Received) : ClusterState ι Row :=
  { state with
    driver := driverNext cluster.plan cluster.gen state.driver (.arrive received) }

def clusterNext (state : ClusterState ι Row) :
    ClusterEvent ι → ClusterState ι Row
  | .arrive datagram =>
    if datagram ∈ state.wire ∧ datagram.dst = cluster.plan.self then
      masterReceives cluster state (some datagram.msg, datagram.src)
    else state
  | .garble src => masterReceives cluster state (none, src)
  | .master tick => masterActs cluster state tick
  | .worker i event =>
    if Deliverable cluster state i event then workerActs cluster state i event
    else state
  | .repoint i prev next =>
    { state with
      worker := update state.worker i { state.worker i with prev := prev, next := next } }

/-- A property that every enabled step preserves is preserved by every
event. -/
theorem clusterNext_cases {holds : ClusterState ι Row → Prop}
    {state : ClusterState ι Row} (event : ClusterEvent ι) (same : holds state)
    (receives : ∀ received, (∀ msg, received.1 = some msg →
          ⟨received.2, cluster.plan.self, msg⟩ ∈ state.wire) →
        holds (masterReceives cluster state received))
    (acts : ∀ tick, event = .master tick → holds (masterActs cluster state tick))
    (works : ∀ i workerEvent, event = .worker i workerEvent →
        Deliverable cluster state i workerEvent →
        holds (workerActs cluster state i workerEvent))
    (repoints : ∀ i prev next, event = .repoint i prev next →
        holds
          { state with
            worker := update state.worker i { state.worker i with prev := prev, next := next } }) :
    holds (clusterNext cluster state event) := by
  cases event with
  | arrive datagram =>
    rw [clusterNext]
    split_ifs with arrives
    · refine receives _ ?_
      intro msg isMsg
      rw [← Option.some.inj isMsg, ← arrives.2]
      exact arrives.1
    · exact same
  | garble src =>
    refine receives _ ?_
    intro msg isMsg
    cases isMsg
  | master tick => exact acts tick rfl
  | worker i workerEvent =>
    rw [clusterNext]
    split_ifs with deliverable
    · exact works i workerEvent rfl deliverable
    · exact same
  | repoint i prev next => exact repoints i prev next rfl

end Steps

theorem datagram_src (sent : Outgoing) (self : RpcAddr) (xid : UInt32) :
    (sent.datagram self xid).src = self := by
  cases sent <;> rfl

theorem not_master_of_outgoing {cluster : Cluster ι Row} {i : ι} {xid : UInt32}
    {sent : Datagram} {outgoing : List Outgoing}
    (isSent : sent ∈ outgoing.map (Outgoing.datagram (cluster.addr i) xid)) :
    sent.src ≠ cluster.plan.self := by
  obtain ⟨each, _, isDatagram⟩ := List.mem_map.mp isSent
  rw [← isDatagram, datagram_src]
  exact cluster.addr_ne_master i

/-- The datagrams that a step of a worker can send. -/
inductive WorkerSends (self : WorkerSelf) (worker : Worker Row) :
    Outgoing → Prop
  | reply (dst : RpcAddr) (xid : UInt32) (stat : AcceptStat)
      (payload : List UInt8) :
      WorkerSends self worker (.reply dst xid stat payload)
  | report (assignment : AssignLayers) (status : UInt32)
      (atPc : worker.infer = .report assignment status) :
      WorkerSends self worker
        (.call self.master procShardReady (shardReport self assignment status).encode)
  | hop (hop : InferHop) (result : Activation) (fwdUs : UInt32)
      (atPc : worker.infer = .send hop result fwdUs) :
      WorkerSends self worker
        (.call worker.next procInferReq
          (inferPayload (passedHop self hop fwdUs worker.next) result))

variable {self : WorkerSelf} {worker : Worker Row} {k j : Nat} {tmpl : AssignLayers}

theorem deliverStep_sent {msg : RpcMsg} {src : RpcAddr} :
    ∀ sent ∈ (deliverStep self worker msg src).2, WorkerSends self worker sent := by
  intro sent isSent
  unfold deliverStep at isSent
  split_ifs at isSent
  · unfold receive at isSent
    dsimp only at isSent
    split_ifs at isSent
    all_goals
      first
      | cases isSent; done
      | rw [List.mem_singleton.mp isSent]
        exact .reply _ _ _ _
  · cases isSent

theorem listenStep_sent : ∀ sent ∈ (listenStep self worker).2, WorkerSends self worker sent := by
  intro sent isSent
  unfold listenStep at isSent
  split at isSent
  case h_5 =>
    rw [List.mem_singleton.mp isSent]
    exact .reply _ _ _ _
  all_goals cases isSent

theorem inferStep_sent {kernel : Kernel Row} {fetch : Fetch} {fwdUs : UInt32} :
    ∀ sent ∈ (inferStep self kernel worker fetch fwdUs).2, WorkerSends self worker sent := by
  intro sent isSent
  unfold inferStep at isSent
  split at isSent
  case h_9 assignment status atPc =>
    rw [List.mem_singleton.mp isSent]
    exact .report assignment status atPc
  case h_14 hop result passUs atPc =>
    rw [List.mem_singleton.mp isSent]
    exact .hop hop result passUs atPc
  all_goals cases isSent

theorem workerStep_sent {kernel : Kernel Row} (event : WorkerEvent) :
    ∀ sent ∈ (workerStep self kernel worker event).2, WorkerSends self worker sent := by
  cases event with
  | deliver msg src => exact deliverStep_sent
  | listen => exact listenStep_sent
  | infer fetch fwdUs => exact inferStep_sent

theorem workerActs_wire [DecidableEq ι] {cluster : Cluster ι Row} {state : ClusterState ι Row}
    {i : ι} {event : WorkerEvent} {holds : Datagram → Prop} (old : ∀ sent ∈ state.wire, holds sent)
    (new : ∀ outgoing,
        WorkerSends (cluster.workerSelf i) (state.worker i) outgoing →
          holds (outgoing.datagram (cluster.addr i) 0)) :
    ∀ sent ∈ (workerActs cluster state i event).wire, holds sent := by
  intro sent isSent
  rcases List.mem_append.mp isSent with isOld | isNew
  · exact old sent isOld
  · obtain ⟨outgoing, isOutgoing, isDatagram⟩ := List.mem_map.mp isNew
    rw [← isDatagram]
    exact new outgoing (workerStep_sent event outgoing isOutgoing)

/-! ## The assignments a worker holds -/

/-- Between the store of an assignment and the flag the listen thread holds it
in the shared field. -/
def ListenHolds (allowed : AssignLayers → Prop) (worker : Worker Row) : Prop :=
  match worker.listen with
  | .assignStore _ _ assignment => allowed assignment
  | .assignClearReady _ _ _ => allowed worker.assignment
  | .assignResetSeq _ _ _ => allowed worker.assignment
  | .assignRaise _ _ _ => allowed worker.assignment
  | _ => True

def InferHolds (allowed : AssignLayers → Prop) : InferPc → Prop
  | .clearAssignment assignment => allowed assignment
  | .clearReady assignment => allowed assignment
  | .release assignment => allowed assignment
  | .load assignment => allowed assignment
  | .setSession assignment => allowed assignment
  | .setReady assignment => allowed assignment
  | .report assignment _ => allowed assignment
  | _ => True

/-- Every assignment that a thread of the worker is going to act on is an
`allowed` one. -/
structure HoldsOnly (allowed : AssignLayers → Prop) (worker : Worker Row) : Prop where
  stored : worker.haveAssignment = true ∨ worker.infer = .copyAssignment → allowed worker.assignment
  listen : ListenHolds allowed worker
  infer : InferHolds allowed worker.infer

/-- An `ASSIGN_LAYERS` call that the hook accepts. -/
def AcceptedAssign (self : WorkerSelf) (msg : RpcMsg) (src : RpcAddr) : Prop :=
  msg.mtype = .call ∧ msg.proc = procAssignLayers ∧
    AssignLayers.size ≤ msg.payload.length ∧ src = self.master

/-- What a delivery does to a worker: new neighbours, or a hook to run. -/
theorem deliverStep_cases (self : WorkerSelf) (worker : Worker Row) (msg : RpcMsg) (src : RpcAddr) :
    (deliverStep self worker msg src).1 = worker ∨
      (∃ prev next, (deliverStep self worker msg src).1 =
          { worker with prev := prev, next := next }) ∨
      (worker.listen = .idle ∧ AcceptedAssign self msg src ∧
        (deliverStep self worker msg src).1 =
          { worker with
            listen := .assignStore src msg.xid (AssignLayers.decode msg.payload) }) ∨
      (worker.listen = .idle ∧ msg.mtype = .call ∧
        msg.proc = procInferReq ∧
        (deliverStep self worker msg src).1 =
          { worker with listen := .hopReadReady src msg.payload }) := by
  unfold deliverStep
  split_ifs with takes
  swap
  · exact .inl rfl
  unfold receive
  dsimp only
  split_ifs with isNeighbor short isEvict isAssign shortAssign otherSource isHop
  · exact .inl rfl
  · exact .inr (.inl ⟨_, _, rfl⟩)
  · exact .inl rfl
  · exact .inl rfl
  · exact .inl rfl
  · have long : AssignLayers.size ≤ msg.payload.length := Nat.not_lt.mp shortAssign
    exact .inr (.inr (.inl ⟨takes.1, ⟨takes.2, isAssign, long, not_not.mp otherSource⟩, rfl⟩))
  · exact .inr (.inr (.inr ⟨takes.1, takes.2, isHop, rfl⟩))
  · exact .inl rfl

section HoldsOnly

variable {allowed : AssignLayers → Prop} {self : WorkerSelf}
variable {worker : Worker Row}

theorem HoldsOnly.deliver (holds : HoldsOnly allowed worker) {msg : RpcMsg} {src : RpcAddr}
    (admits : AcceptedAssign self msg src → allowed (AssignLayers.decode msg.payload)) :
    HoldsOnly allowed (deliverStep self worker msg src).1 := by
  rcases deliverStep_cases self worker msg src with same | neighbors | assigned | hopped
  · rw [same]
    exact holds
  · obtain ⟨prev, next, isNext⟩ := neighbors
    rw [isNext]
    exact ⟨holds.stored, holds.listen, holds.infer⟩
  · obtain ⟨isIdle, accepted, isNext⟩ := assigned
    rw [isNext]
    exact ⟨holds.stored, admits accepted, holds.infer⟩
  · obtain ⟨isIdle, isCall, isHop, isNext⟩ := hopped
    rw [isNext]
    exact ⟨holds.stored, trivial, holds.infer⟩

theorem HoldsOnly.listenStep (holds : HoldsOnly allowed worker) :
    HoldsOnly allowed (listenStep self worker).1 := by
  have held := holds.listen
  unfold ListenHolds at held
  unfold DistInf.listenStep
  cases pc : worker.listen with
  | idle => exact holds
  | assignStore src xid assignment =>
    rw [pc] at held
    exact ⟨fun _ => held, held, holds.infer⟩
  | assignClearReady | assignResetSeq =>
    rw [pc] at held
    exact ⟨holds.stored, held, holds.infer⟩
  | assignRaise src xid assignment =>
    rw [pc] at held
    exact ⟨fun _ => held, trivial, holds.infer⟩
  | hopReadReady | hopTestReady | hopTestSource | hopTestSeq =>
    refine ⟨holds.stored, ?_, holds.infer⟩
    dsimp only [ListenHolds]
    split_ifs <;> trivial
  | hopReadDim src payload => exact ⟨holds.stored, trivial, holds.infer⟩
  | hopDecode src payload dim =>
    refine ⟨holds.stored, ?_, holds.infer⟩
    dsimp only [ListenHolds]
    cases inferDecodeHop payload dim worker.session <;> trivial
  | hopCommit hop staging =>
    dsimp only [commitHop]
    split_ifs <;> exact ⟨holds.stored, trivial, holds.infer⟩

theorem HoldsOnly.move (holds : HoldsOnly allowed worker) {later : Worker Row}
    (sameListen : later.listen = worker.listen)
    (sameAssignment : later.assignment = worker.assignment)
    (flag : later.haveAssignment = true → worker.haveAssignment = true)
    (copies : later.infer = .copyAssignment → worker.haveAssignment = true)
    (held : InferHolds allowed later.infer) :
    HoldsOnly allowed later := by
  refine ⟨?_, ?_, held⟩
  · intro pending
    rw [sameAssignment]
    rcases pending with isFlag | isCopy
    · exact holds.stored (.inl (flag isFlag))
    · exact holds.stored (.inl (copies isCopy))
  · have listening := holds.listen
    unfold ListenHolds at listening ⊢
    rw [sameListen, sameAssignment]
    exact listening

theorem HoldsOnly.inferStep {kernel : Kernel Row}
    (holds : HoldsOnly allowed worker) (fetch : Fetch) (fwdUs : UInt32) :
    HoldsOnly allowed (inferStep self kernel worker fetch fwdUs).1 := by
  have held := holds.infer
  -- every step but the first leaves the shared assignment alone
  have quiet {later : Worker Row}
      (sameListen : later.listen = worker.listen)
      (sameAssignment : later.assignment = worker.assignment)
      (flag : later.haveAssignment = true → worker.haveAssignment = true)
      (away : later.infer ≠ .copyAssignment)
      (known : InferHolds allowed later.infer) : HoldsOnly allowed later :=
    holds.move sameListen sameAssignment flag (fun isCopy => absurd isCopy away) known
  unfold DistInf.inferStep
  cases pc : worker.infer with
  | top =>
    dsimp only
    cases flag : worker.haveAssignment with
    | true => exact holds.move rfl rfl (fun _ => flag) (fun _ => flag) trivial
    | false => exact quiet rfl rfl nofun nofun trivial
  | copyAssignment => exact quiet rfl rfl id nofun (holds.stored (.inr pc))
  | clearAssignment assignment =>
    rw [pc] at held
    exact quiet rfl rfl nofun nofun held
  | clearReady | release | setSession | setReady =>
    rw [pc] at held
    exact quiet rfl rfl id nofun held
  | load assignment =>
    rw [pc] at held
    dsimp only
    split_ifs <;> exact quiet rfl rfl id nofun held
  | report | send => exact quiet rfl rfl id nofun trivial
  | testHop | testReady =>
    dsimp only
    split_ifs <;> exact quiet rfl rfl id nofun trivial
  | drain =>
    dsimp only [drainHop]
    split <;> exact quiet rfl rfl id nofun trivial
  | forward hop compute =>
    dsimp only [forwardHop]
    split <;> exact quiet rfl rfl id nofun trivial

theorem HoldsOnly.workerStep {kernel : Kernel Row}
    (holds : HoldsOnly allowed worker) {event : WorkerEvent} (admits :
      ∀ msg src, event = .deliver msg src → AcceptedAssign self msg src →
        allowed (AssignLayers.decode msg.payload)) :
    HoldsOnly allowed (workerStep self kernel worker event).1 := by
  cases event with
  | deliver msg src => exact holds.deliver (admits msg src rfl)
  | listen => exact holds.listenStep
  | infer fetch fwdUs => exact holds.inferStep fetch fwdUs

end HoldsOnly

theorem index_unique {ring : List ι} (distinct : ring.Nodup) {i : ι}
    (first : ring[j]? = some i) (second : ring[k]? = some i) : j = k := by
  have bound : j < ring.length := by
    by_contra outside
    rw [List.getElem?_eq_none (Nat.not_lt.mp outside)] at first
    cases first
  exact (List.getElem?_inj bound distinct).mp (first.trans second.symm)

/-- The plan is made for the workers of `ring`, in this order. -/
structure SessionOver (cluster : Cluster ι Row) (ring : List ι) (tmpl : AssignLayers) : Prop where
  size : cluster.plan.slots.length = ring.length
  notifies : ∀ request, SetupOp.notify request ∈ cluster.plan.ops → request.proc = procSetNeighbor
  assigns :
    ∀ request, SetupOp.assign request ∈ cluster.plan.ops →
      ∃ k i, ring[k]? = some i ∧
        request = ⟨cluster.addr i, procAssignLayers, (assignedLayers tmpl ring.length k).encode⟩

/-- The session `run_generation_session` forms over the active workers, with
the worker that sits behind each slot. -/
structure SessionStart (cluster : Cluster ι Row) (ring : List ι) (tmpl : AssignLayers)
    (driver : Driver) : Prop where
  begun :
    ∃ before drawn now,
      startSession cluster.plan.self before tmpl drawn now = some (cluster.plan, driver)
  members :
    cluster.plan.slots.map (fun slot => (driver.discovery.registry slot).info.addr) =
      ring.map cluster.addr

theorem mem_setupOps_notify {registry : Registry} {slots : List Slot} {request : RpcRequest}
    (isOp : SetupOp.notify request ∈ setupOps registry slots tmpl) :
    ∃ slot ∈ slots, request = notifyRequest registry slot := by
  unfold setupOps at isOp
  rcases List.mem_append.mp isOp with isNotify | isLater
  · obtain ⟨slot, isSlot, isRequest⟩ := List.mem_map.mp isNotify
    injection isRequest with isRequest
    exact ⟨slot, isSlot, isRequest.symm⟩
  · rcases List.mem_cons.mp isLater with isReset | isAssign
    · cases isReset
    · split_ifs at isAssign
      · cases List.mem_singleton.mp isAssign
      · obtain ⟨k, bound, isRequest⟩ := List.mem_mapIdx.mp isAssign
        cases isRequest

theorem mem_setupOps_assign {registry : Registry} {slots : List Slot} {request : RpcRequest}
    (isOp : SetupOp.assign request ∈ setupOps registry slots tmpl) :
    ∃ k slot, slots[k]? = some slot ∧
      request = assignRequest registry slot (assignedLayers tmpl slots.length k) := by
  unfold setupOps at isOp
  rcases List.mem_append.mp isOp with isNotify | isLater
  · obtain ⟨slot, isSlot, isRequest⟩ := List.mem_map.mp isNotify
    cases isRequest
  · rcases List.mem_cons.mp isLater with isReset | isAssign
    · cases isReset
    · split_ifs at isAssign
      · cases List.mem_singleton.mp isAssign
      · obtain ⟨k, bound, isRequest⟩ := List.mem_mapIdx.mp isAssign
        injection isRequest with isRequest
        exact ⟨k, slots[k], List.getElem?_eq_getElem bound, isRequest.symm⟩

theorem SessionStart.planned {cluster : Cluster ι Row} {ring : List ι}
    {driver : Driver} (start : SessionStart cluster ring tmpl driver) :
    SessionOver cluster ring { tmpl with sessionId := cluster.plan.session } := by
  obtain ⟨before, drawn, now, started⟩ := start.begun
  have isPlan := (startSession_plan started).1
  have isOps :
      cluster.plan.ops =
        setupOps driver.discovery.registry cluster.plan.slots
          { tmpl with sessionId := cluster.plan.session } := by
    rw [isPlan]
    rfl
  have size : cluster.plan.slots.length = ring.length := by
    have lengths := congrArg List.length start.members
    rwa [List.length_map, List.length_map] at lengths
  refine ⟨size, ?_, ?_⟩
  · intro request isOp
    rw [isOps] at isOp
    obtain ⟨slot, isSlot, isRequest⟩ := mem_setupOps_notify isOp
    rw [isRequest]
    rfl
  · intro request isOp
    rw [isOps] at isOp
    obtain ⟨k, slot, isSlot, isRequest⟩ := mem_setupOps_assign isOp
    have atK := congrArg (fun addrs => addrs[k]?) start.members
    simp only [List.getElem?_map, isSlot, Option.map_some] at atK
    cases isWorker : ring[k]? with
    | none =>
      rw [isWorker] at atK
      cases atK
    | some i =>
      rw [isWorker] at atK
      refine ⟨k, i, isWorker, ?_⟩
      rw [isRequest, assignRequest, Option.some.inj atK, size]

theorem ringAddr_inj (small : j < 16) (small' : k < 16)
    (same : ringAddr j = ringAddr k) : j = k := by
  have ports := congrArg (fun addr => addr.port.toNat) same
  simp only [ringAddr, UInt16.toNat_add, UInt16.toNat_ofNat, UInt16.toNat_ofNat'] at ports
  omega

theorem ringAddr_ne_master (small : k < 16) : ringAddr k ≠ ringMaster := by
  intro same
  have ports := congrArg (fun addr => addr.port.toNat) same
  simp only [ringAddr, ringMaster, UInt16.toNat_add, UInt16.toNat_ofNat,
    UInt16.toNat_ofNat'] at ports
  omega

theorem ringId_inj (small : j < 16) (small' : k < 16) (same : ringId j = ringId k) : j = k := by
  have ids := congrArg (fun id => id.toNat) same
  simp only [ringId, UInt32.toNat_add, UInt32.toNat_ofNat, UInt32.toNat_ofNat'] at ids
  omega

/-- Honest workers behind the slots of the small ring. -/
def ringCluster (n : Nat) (small : n ≤ 16) : Cluster (Fin n) Unit where
  plan := ringPlan n
  gen := ringGeneration
  addr := fun i => ringAddr i.val
  workerId := fun i => ringId i.val
  kernel := fun _ => echoKernel
  addr_injective := by
    intro i j same
    exact Fin.ext (ringAddr_inj (by omega) (by omega) same)
  addr_ne_master := fun i => ringAddr_ne_master (by omega)
  workerId_injective := by
    intro i j same
    exact Fin.ext (ringId_inj (by omega) (by omega) same)

/-- The workers have just registered, with the given neighbours, and nothing
has been sent. -/
def ringInit (n : Nat) (prev next : Fin n → RpcAddr) : ClusterState (Fin n) Unit where
  driver := ringStart n
  worker := fun i => Worker.init (prev i) (next i)
  wire := []
  passes := []

section SmallRing

variable {n : Nat}

/-- The layer that worker `k` of the small ring gets. -/
def ringAssignment (n : Nat) (k : Fin n) : AssignLayers :=
  assignedLayers { ringTemplate (UInt32.ofNat n) with sessionId := 1 } n k.val

/-- The checkpoint of the small ring's model. -/
def ringFetch (n : Nat) : Fetch where
  header := some ⟨1, 1, n, 1, 1, 32, 256⟩
  tensors := true

def masterRuns (n count : Nat) : List (ClusterEvent (Fin n)) :=
  List.replicate count (.master quietTick)

def callLost (n : Nat) : List (ClusterEvent (Fin n)) :=
  masterRuns n 2 ++ [.master timeoutTick] ++
    masterRuns n 1 ++ [.master timeoutTick] ++
    masterRuns n 1 ++ [.master timeoutTick] ++ masterRuns n 1

/-- The assignment reaches worker `k` and its hook runs. -/
def assignDelivered (k : Fin n) (xid : UInt32) : List (ClusterEvent (Fin n)) :=
  .worker k
      (.deliver (rpcFillCall xid procAssignLayers (ringAssignment n k).encode) ringMaster) ::
    List.replicate 4 (.worker k .listen)

/-- Worker `k` answers the call `xid` of the master. -/
def replyReceived (k : Fin n) (xid : UInt32) : List (ClusterEvent (Fin n)) :=
  .arrive ⟨ringAddr k.val, ringMaster, rpcReply xid .success []⟩ :: masterRuns n 1

def assignAccepted (k : Fin n) (xid : UInt32) : List (ClusterEvent (Fin n)) :=
  masterRuns n 2 ++ assignDelivered k xid ++ replyReceived k xid

/-- The inference thread of worker `k` takes an assignment and reports. -/
def shardLoaded (k : Fin n) : List (ClusterEvent (Fin n)) :=
  List.replicate 9 (.worker k (.infer (ringFetch n) 0))

/-- The wait takes the report of worker `k`. -/
def reportTaken (k : Fin n) : List (ClusterEvent (Fin n)) :=
  masterRuns n 1 ++
    [.arrive ⟨ringAddr k.val, ringMaster, rpcFillCall 0 procShardReady
          (shardReport ⟨ringId k.val, ringMaster⟩ (ringAssignment n k) 0).encode⟩] ++
    masterRuns n 2

/-- The first hop of the small ring's only token, after some workers. -/
def ringHop (n : Nat) (passed flags : UInt32) : InferHop :=
  { firstHop (ringPlan n) ringGeneration 1 0 with
    hop := passed
    flags := flags }

def ringHopMsg (n : Nat) (xid passed flags : UInt32) : RpcMsg :=
  rpcFillCall xid procInferReq (inferPayload (ringHop n passed flags) [0])

/-- A hop from `src` reaches worker `k`, which runs its shard and passes it
on. -/
def hopPassed (k : Fin n) (src : RpcAddr) (xid passed : UInt32) : List (ClusterEvent (Fin n)) :=
  .worker k (.deliver (ringHopMsg n xid passed 0) src) ::
    List.replicate 7 (.worker k .listen) ++
    List.replicate 6 (.worker k (.infer (ringFetch n) 0))

/-- The master takes the final that worker `k` has sent. -/
def finalTaken (k : Fin n) (passed : UInt32) : List (ClusterEvent (Fin n)) :=
  .arrive ⟨ringAddr k.val, ringMaster, ringHopMsg n 0 passed inferFlagFinal⟩ :: masterRuns n 2

end SmallRing

end LlmRuntime.DistInf
