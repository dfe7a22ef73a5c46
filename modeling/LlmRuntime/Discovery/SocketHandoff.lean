import LlmRuntime.Library.Execution
import LlmRuntime.Discovery.Registry

/-!
# Handing the worker's socket over

The listen thread of a worker is the only caller of `rpc_recv`, except while the
heartbeat thread registers again.  Each read and each write of one of the three
flags between them is a step.
-/

namespace LlmRuntime.Discovery

/-- What one `rpc_recv` of the listen thread gives: nothing it handles, one of
the two calls handled at once, or a call for the inference hook. -/
inductive Received where
  | nothing
  | setNeighbor (neighbors : SetNeighbor)
  | evict
  | inference
  deriving DecidableEq, Repr

/-- The next access of `discovery_listen_thread`. -/
inductive ReceiverPc where
  | top
  | suspend
  | parked
  | resume
  | receiving
  | markEvicted
  deriving DecidableEq, Repr

/-- The next access of `heartbeat_thread`. -/
inductive HeartbeatPc where
  | tickWait
  | testNeeded
  | raise
  | awaitPark
  | registering
  | refresh (neighbors : SetNeighbor)
  | clearNeeded
  | release
  | testAgain
  | beat
  deriving DecidableEq, Repr

/-- The shared flags, the ring pointers both threads write, and the two
program counters. -/
structure Handoff where
  needsReregister : Bool
  reregistering : Bool
  listenSuspended : Bool
  prev : RpcAddr
  next : RpcAddr
  receiver : ReceiverPc
  heartbeat : HeartbeatPc
  deriving DecidableEq, Repr

/-- `listen` carries what `rpc_recv` returns, should the step leave it;
`heartbeat` carries what `discovery_register` returns. -/
inductive HandoffEvent where
  | listen (received : Received)
  | heartbeat (registered : Option SetNeighbor)
  deriving DecidableEq, Repr

/-- Both threads as `distinf.c` starts them, after the first registration. -/
def Handoff.init (prev next : RpcAddr) : Handoff where
  needsReregister := false
  reregistering := false
  listenSuspended := false
  prev := prev
  next := next
  receiver := .top
  heartbeat := .tickWait

/-- The switch of the listen thread on a received call. -/
def Handoff.handle (state : Handoff) : Received → Handoff
  | .nothing => { state with receiver := .top }
  | .setNeighbor neighbors =>
    { state with
      prev := neighbors.prev
      next := neighbors.next
      receiver := .top }
  | .evict => { state with receiver := .markEvicted }
  | .inference => { state with receiver := .top }

/-- One access of `discovery_listen_thread`. -/
def Handoff.listenStep (state : Handoff) (received : Received) : Handoff :=
  match state.receiver with
  | .top =>
    { state with
      receiver := if state.reregistering then .suspend else .receiving }
  | .suspend => { state with listenSuspended := true, receiver := .parked }
  | .parked =>
    { state with
      receiver := if state.reregistering then .parked else .resume }
  | .resume => { state with listenSuspended := false, receiver := .top }
  | .receiving => state.handle received
  | .markEvicted => { state with needsReregister := true, receiver := .top }

def Handoff.heartbeatStep (state : Handoff) (registered : Option SetNeighbor) : Handoff :=
  match state.heartbeat with
  | .tickWait => { state with heartbeat := .testNeeded }
  | .testNeeded =>
    { state with
      heartbeat := if state.needsReregister then .raise else .beat }
  | .raise => { state with reregistering := true, heartbeat := .awaitPark }
  | .awaitPark =>
    { state with
      heartbeat :=
        if state.listenSuspended then .registering else .awaitPark }
  | .registering =>
    { state with
      heartbeat :=
        match registered with
        | some neighbors => .refresh neighbors
        | none => .release }
  | .refresh neighbors =>
    { state with
      prev := neighbors.prev
      next := neighbors.next
      heartbeat := .clearNeeded }
  | .clearNeeded => { state with needsReregister := false, heartbeat := .release }
  | .release => { state with reregistering := false, heartbeat := .testAgain }
  | .testAgain =>
    { state with
      heartbeat := if state.needsReregister then .tickWait else .beat }
  | .beat => { state with heartbeat := .tickWait }

def handoffNext (state : Handoff) : HandoffEvent → Handoff
  | .listen received => state.listenStep received
  | .heartbeat registered => state.heartbeatStep registered

/-- The stretch of the listen thread in which `listen_suspended` is raised. -/
def ReceiverPc.isSuspended : ReceiverPc → Bool
  | .parked => true
  | .resume => true
  | _ => false

/-- The program points at which the listen thread holds no datagram and is
not about to receive one without reading `reregistering` again. -/
def ReceiverPc.isAway : ReceiverPc → Bool
  | .receiving => false
  | .markEvicted => false
  | _ => true

/-- The stretch of the heartbeat thread in which `reregistering` is raised. -/
def HeartbeatPc.hasRaised : HeartbeatPc → Bool
  | .awaitPark => true
  | .registering => true
  | .refresh _ => true
  | .clearNeeded => true
  | .release => true
  | _ => false

/-- The stretch that begins when the heartbeat thread has seen the listen
thread parked. -/
def HeartbeatPc.ownsSocket : HeartbeatPc → Bool
  | .registering => true
  | .refresh _ => true
  | .clearNeeded => true
  | .release => true
  | _ => false

theorem HeartbeatPc.hasRaised_of_ownsSocket {pc : HeartbeatPc} (owns : pc.ownsSocket = true) :
    pc.hasRaised = true := by
  cases pc <;> simp_all [ownsSocket, hasRaised]

theorem ReceiverPc.isAway_of_isSuspended {pc : ReceiverPc} (suspended : pc.isSuspended = true) :
    pc.isAway = true := by
  cases pc <;> simp_all [isSuspended, isAway]

/-- Both flags follow their writer, and the listen thread is away from the
socket for as long as the heartbeat thread owns it. -/
structure HandoffOk (state : Handoff) : Prop where
  suspended : state.listenSuspended = state.receiver.isSuspended
  raised : state.reregistering = state.heartbeat.hasRaised
  away : state.heartbeat.ownsSocket = true → state.receiver.isAway = true

theorem handoffOk_init (prev next : RpcAddr) : HandoffOk (Handoff.init prev next) := by
  constructor
  · rfl
  · rfl
  · intro owns
    cases owns

theorem HandoffOk.handle {state : Handoff} (ok : HandoffOk state)
    (receiving : state.receiver = .receiving) (received : Received) :
    HandoffOk (state.handle received) := by
  have lowered : state.listenSuspended = false := by
    rw [ok.suspended, receiving]
    rfl
  have notOwned : ¬ state.heartbeat.ownsSocket = true := by
    intro owns
    have away := ok.away owns
    rw [receiving] at away
    cases away
  cases received with
  | nothing | setNeighbor | inference => exact ⟨lowered, ok.raised, fun _ => rfl⟩
  | evict => exact ⟨lowered, ok.raised, fun owns => absurd owns notOwned⟩

/-- A listen thread at the top of its loop goes to the socket only if it reads
`reregistering` lowered, and then nobody owns the socket. -/
theorem HandoffOk.listenStep {state : Handoff} (ok : HandoffOk state) (received : Received) :
    HandoffOk (state.listenStep received) := by
  have suspended := ok.suspended
  cases position : state.receiver with
  | top =>
    rw [position] at suspended
    simp only [Handoff.listenStep, position]
    split_ifs with raised
    · exact ⟨suspended, ok.raised, fun _ => rfl⟩
    · refine ⟨suspended, ok.raised, fun owns => ?_⟩
      have up := HeartbeatPc.hasRaised_of_ownsSocket owns
      rw [← ok.raised] at up
      exact absurd up raised
  | suspend | resume =>
    simp only [Handoff.listenStep, position]
    exact ⟨rfl, ok.raised, fun _ => rfl⟩
  | parked =>
    rw [position] at suspended
    simp only [Handoff.listenStep, position]
    split <;> exact ⟨suspended, ok.raised, fun _ => rfl⟩
  | receiving =>
    simp only [Handoff.listenStep, position]
    exact ok.handle position received
  | markEvicted =>
    rw [position] at suspended
    simp only [Handoff.listenStep, position]
    exact ⟨suspended, ok.raised, fun _ => rfl⟩

/-- The heartbeat thread comes to own the socket only at the step that reads
`listen_suspended` raised; a flag left over from the round before still finds
the listen thread parked or on its way to the top of its loop. -/
theorem HandoffOk.heartbeatStep {state : Handoff} (ok : HandoffOk state)
    (registered : Option SetNeighbor) :
    HandoffOk (state.heartbeatStep registered) := by
  have raised := ok.raised
  have away := ok.away
  cases position : state.heartbeat with
  | tickWait | refresh | clearNeeded | beat =>
    rw [position] at raised away
    simp only [Handoff.heartbeatStep, position]
    exact ⟨ok.suspended, raised, away⟩
  | testNeeded | testAgain =>
    rw [position] at raised away
    simp only [Handoff.heartbeatStep, position]
    split <;> exact ⟨ok.suspended, raised, away⟩
  | raise =>
    rw [position] at away
    simp only [Handoff.heartbeatStep, position]
    exact ⟨ok.suspended, rfl, away⟩
  | awaitPark =>
    rw [position] at raised away
    simp only [Handoff.heartbeatStep, position]
    split_ifs with parked
    · refine ⟨ok.suspended, raised, fun _ => ?_⟩
      apply ReceiverPc.isAway_of_isSuspended
      rw [← ok.suspended, parked]
    · exact ⟨ok.suspended, raised, away⟩
  | registering =>
    rw [position] at raised away
    simp only [Handoff.heartbeatStep, position]
    cases registered with
    | none | some => exact ⟨ok.suspended, raised, away⟩
  | release =>
    simp only [Handoff.heartbeatStep, position]
    exact ⟨ok.suspended, rfl, fun owns => by cases owns⟩

theorem HandoffOk.step {state : Handoff} (ok : HandoffOk state) (event : HandoffEvent) :
    HandoffOk (handoffNext state event) := by
  cases event with
  | listen received => exact ok.listenStep received
  | heartbeat registered => exact ok.heartbeatStep registered

theorem handoffOk_run (prev next : RpcAddr) (events : List HandoffEvent) :
    HandoffOk (Execution.after handoffNext (Handoff.init prev next) events) :=
  Execution.invariant_after handoffNext HandoffOk (handoffOk_init prev next)
    (fun _ event ok => ok.step event) events

/-- Whatever eviction notices arrive and however registrations end, the two
threads are never both receiving on the socket. -/
theorem single_receiver (prev next : RpcAddr) (events : List HandoffEvent) :
    let state := Execution.after handoffNext (Handoff.init prev next) events
    ¬ (state.receiver = .receiving ∧ state.heartbeat = .registering) := by
  intro state
  rintro ⟨receiving, registering⟩
  have ok : HandoffOk state := handoffOk_run prev next events
  have away : state.receiver.isAway = true := by
    apply ok.away
    rw [registering]
    rfl
  rw [receiving] at away
  cases away

/-- Steps of its own the listen thread is away from being parked, while
`reregistering` is raised. -/
def ReceiverPc.parkDistance : ReceiverPc → Nat
  | .parked => 0
  | .suspend => 1
  | .top => 2
  | .resume => 3
  | .markEvicted => 3
  | .receiving => 4

theorem ReceiverPc.eq_parked_of_parkDistance
    {pc : ReceiverPc} (arrived : pc.parkDistance = 0) : pc = .parked := by
  cases pc <;> simp_all [parkDistance]

theorem ReceiverPc.parkDistance_le (pc : ReceiverPc) : pc.parkDistance ≤ 4 := by
  cases pc <;> simp [parkDistance]

theorem listenStep_parkDistance {state : Handoff}
    (raised : state.reregistering = true) (received : Received) :
    (state.listenStep received).receiver.parkDistance ≤ state.receiver.parkDistance - 1 := by
  cases position : state.receiver with
  | receiving =>
    cases received <;> simp [Handoff.listenStep, Handoff.handle, position, ReceiverPc.parkDistance]
  | _ => simp [Handoff.listenStep, position, raised, ReceiverPc.parkDistance]

theorem listenStep_heartbeat (state : Handoff) (received : Received) :
    (state.listenStep received).heartbeat = state.heartbeat := by
  cases position : state.receiver with
  | receiving => cases received <;> simp [Handoff.listenStep, Handoff.handle, position]
  | _ => simp [Handoff.listenStep, position]

def HandoffEvent.isListen : HandoffEvent → Bool
  | .listen _ => true
  | .heartbeat _ => false

/-- The heartbeat thread has read `listen_suspended` raised and goes on to
register. -/
def Handoff.LetIn (state : Handoff) : Prop :=
  state.heartbeat = .registering ∧ state.listenSuspended = true

/-- A step of the waiting heartbeat thread lets it in, or changes nothing. -/
theorem heartbeatStep_awaitPark {state : Handoff} (waiting : state.heartbeat = .awaitPark)
    (registered : Option SetNeighbor) :
    (state.heartbeatStep registered).LetIn ∨
      state.listenSuspended = false ∧ state.heartbeatStep registered = state := by
  simp only [Handoff.heartbeatStep, waiting]
  cases suspended : state.listenSuspended with
  | true => exact .inl ⟨rfl, rfl⟩
  | false =>
    refine .inr ⟨rfl, ?_⟩
    rw [if_neg Bool.false_ne_true, ← waiting, ← suspended]

/-- Steps of the listen thread bring it nearer to being parked, and steps of the
heartbeat thread in between do not hinder it. -/
theorem HandoffOk.letIn {state : Handoff} (ok : HandoffOk state)
    (waiting : state.heartbeat = .awaitPark) {interleaved : List HandoffEvent}
    (enough : state.receiver.parkDistance ≤ interleaved.countP HandoffEvent.isListen)
    (registered : Option SetNeighbor) :
    ∃ taken, taken <+: interleaved ++ [.heartbeat registered] ∧
      (Execution.after handoffNext state taken).LetIn := by
  induction interleaved generalizing state with
  | nil =>
    have parked := ReceiverPc.eq_parked_of_parkDistance (Nat.le_zero.mp enough)
    refine ⟨[.heartbeat registered], List.prefix_rfl, ?_⟩
    rcases heartbeatStep_awaitPark waiting registered with letIn | ⟨lowered, -⟩
    · exact letIn
    · rw [ok.suspended, parked] at lowered
      cases lowered
  | cons event rest ih =>
    cases event with
    | listen received =>
      have raised : state.reregistering = true := by
        rw [ok.raised, waiting]
        rfl
      have nearer := listenStep_parkDistance raised received
      rw [List.countP_cons_of_pos (by rfl)] at enough
      obtain ⟨taken, isPrefix, letIn⟩ :=
        ih (ok.listenStep received) ((listenStep_heartbeat state received).trans waiting) (by omega)
      refine ⟨.listen received :: taken, (List.prefix_cons_inj _).mpr isPrefix, ?_⟩
      rw [Execution.after_cons]
      exact letIn
    | heartbeat other =>
      rcases heartbeatStep_awaitPark waiting other with letIn | ⟨-, same⟩
      · exact ⟨[.heartbeat other], List.prefix_append [_] _, letIn⟩
      · rw [List.countP_cons_of_neg (by simp [HandoffEvent.isListen])] at enough
        obtain ⟨taken, isPrefix, letIn⟩ := ih ok waiting enough
        refine ⟨.heartbeat other :: taken, (List.prefix_cons_inj _).mpr isPrefix, ?_⟩
        rw [Execution.after_cons, handoffNext, same]
        exact letIn

/-- A heartbeat thread that waits to register again is let in, however the two
threads go on, once the listen thread has made four accesses and the heartbeat
thread reads the flag again. -/
theorem waiting_heartbeat_let_in (prev next : RpcAddr) (events interleaved : List HandoffEvent)
    (waiting :
      (Execution.after handoffNext (Handoff.init prev next) events).heartbeat = .awaitPark)
    (accesses : 4 ≤ interleaved.countP HandoffEvent.isListen) (registered : Option SetNeighbor) :
    ∃ taken, taken <+: interleaved ++ [.heartbeat registered] ∧
      (Execution.after handoffNext (Handoff.init prev next) (events ++ taken)).LetIn := by
  obtain ⟨taken, isPrefix, letIn⟩ :=
    (handoffOk_run prev next events).letIn waiting
      ((ReceiverPc.parkDistance_le _).trans accesses) registered
  rw [← Execution.after_append] at letIn
  exact ⟨taken, isPrefix, letIn⟩

/-- The listen thread has been evicted, and has gone back to the socket when the
flag is raised. -/
theorem evicted_heartbeat_let_in :
    ∃ taken,
      taken <+: [.listen .nothing, .heartbeat none, .listen .inference, .listen .nothing,
          .heartbeat none, .listen .nothing] ++ [HandoffEvent.heartbeat none] ∧
        (Execution.after handoffNext (Handoff.init ⟨0, 0⟩ ⟨0, 0⟩)
          ([.listen .nothing, .listen .evict, .listen .nothing, .heartbeat none, .heartbeat none,
            .listen .nothing, .heartbeat none] ++ taken)).LetIn :=
  waiting_heartbeat_let_in _ _ _ _ (by decide) (by decide) none

end LlmRuntime.Discovery
