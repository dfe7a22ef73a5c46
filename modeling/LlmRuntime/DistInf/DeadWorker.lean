import LlmRuntime.Discovery.RingStitch
import LlmRuntime.Discovery.Silence
import LlmRuntime.DistInf.TokenLoop

/-!
# A dead worker when its token fails

`master_run_token` gives up after three attempts of 75 pumps, whatever time they
take: a pump that receives a datagram returns at once and is still counted as
200 ms.
-/

namespace LlmRuntime.DistInf

open Bytes Discovery Execution

/-- The call that `master_pump` hands on to `discovery_handle_call`. -/
def handedOn (tick : Tick) : Received → Option Discovery.MasterEvent
  | (none, _) => none
  | (some msg, src) =>
    if msg.mtype ≠ .call then none
    else if msg.proc = procShardReady then none
    else if msg.proc = procInferReq then none
    else some (.call msg src tick.now tick.entropy)

/-- What a step of the thread does to the registry: a call handed on, an expiry
pass, or nothing. -/
def registryEvent (driver : Driver) :
    DriverEvent → Option Discovery.MasterEvent
  | .arrive _ => none
  | .run tick =>
    match driver.pc with
    | .pump _ => driver.queue.head?.bind (handedOn tick)
    | .pumpExpire _ => some (.expire tick.now)
    | _ => none

section Registry

variable (plan : SessionPlan) (gen : Generation)

theorem pumpDispatch_discovery (driver : Driver) (caller : PumpCaller)
    (received : Received) (tick : Tick) :
    (pumpDispatch plan gen driver caller received tick).1.discovery =
      (handedOn tick received).elim driver.discovery
        (Discovery.masterNext plan.self driver.discovery) := by
  obtain ⟨decoded, src⟩ := received
  cases decoded with
  | none => rfl
  | some msg =>
    unfold pumpDispatch handedOn
    dsimp only
    by_cases notCall : msg.mtype ≠ .call
    · rw [if_pos notCall, if_pos notCall]
      rfl
    rw [if_neg notCall, if_neg notCall]
    by_cases isReport : msg.proc = procShardReady
    · rw [if_pos isReport, if_pos isReport]
      obtain ⟨_, _, _, counted⟩ := masterHandleShardReady_frame plan.session driver msg.payload
      rw [counted]
      rfl
    rw [if_neg isReport, if_neg isReport]
    by_cases isHop : msg.proc = procInferReq
    · rw [if_pos isHop, if_pos isHop]
      obtain ⟨_, _, stored⟩ := masterHandleFinal_frame plan gen driver msg.payload src
      rw [stored]
      rfl
    rw [if_neg isHop, if_neg isHop]
    unfold pumpDiscovery
    dsimp only
    split <;> rfl

theorem driverNext_discovery (driver : Driver) (event : DriverEvent) :
    (driverNext plan gen driver event).discovery =
      (registryEvent driver event).elim driver.discovery
        (Discovery.masterNext plan.self driver.discovery) := by
  cases event with
  | arrive received => rfl
  | run tick =>
    rw [driverNext, driverStep, registryEvent]
    have step := driverRun_step plan gen driver tick
    generalize (driverRun plan gen driver tick).2 = datagrams at step
    generalize (driverRun plan gen driver tick).1 = later at step ⊢
    cases step with
    | setup todo atPc =>
      rw [atPc]
      cases todo with
      | nil => rfl
      | cons op rest => cases op <;> rfl
    | takes caller received rest atPc isQueue =>
      rw [atPc, isQueue]
      exact pumpDispatch_discovery plan gen _ caller received tick
    | blocks caller atPc isEmpty | timesOut caller atPc isEmpty =>
      rw [atPc, isEmpty]
      rfl
    | setupPending _ _ _ _ _ atPc | setupReturned _ _ _ _ _ atPc | waits atPc
    | ready atPc | callPending _ _ _ _ _ _ atPc
    | callReturned _ _ _ _ _ _ atPc | expires _ atPc | begins _ _ atPc
    | completes _ _ atPc | sends _ atPc | givesUp _ atPc | stops _ _ atPc
    | advances _ _ atPc | pumpsAgain _ _ atPc | retries _ _ atPc
    | finished _ atPc =>
      rw [atPc]
      rfl

/-- The calls and expiry passes of a run of the thread. -/
def registryEvents (start : Driver) (events : List DriverEvent) : List Discovery.MasterEvent :=
  shownEvents (driverNext plan gen) registryEvent start events

def pumpClocks (start : Driver) (events : List DriverEvent) : List UInt32 :=
  expiryClocks (registryEvents plan gen start events)

end Registry

/-- The events take the thread through one call of `master_run_token` that
returns -1. -/
structure FailedToken (plan : SessionPlan) (gen : Generation) (start : Driver)
    (events : List DriverEvent) : Prop where
  begins : ∃ frame, start.pc = .tokenSend frame ∧ frame.attempt = 0
  noFinal : start.haveFinal = false
  within : Along (driverNext plan gen) (fun driver _ => frameOf driver.pc ≠ none) start events
  fails : (after (driverNext plan gen) start events).pc = .finished (-1)

/-- How many pumps are behind the thread, by its locals. -/
def PumpsDone (count : Nat) : DriverPc → Prop
  | .pump (.token frame waited)
  | .pumpCall (.token frame waited) _ _
  | .pumpExpire (.token frame waited) =>
    frame.attempt ≤ 2 ∧ waited < inferTokenTimeoutMs ∧
      200 * count = frame.attempt * inferTokenTimeoutMs + waited
  | .tokenTest frame waited =>
    frame.attempt ≤ 2 ∧ waited ≤ inferTokenTimeoutMs ∧
      200 * count = frame.attempt * inferTokenTimeoutMs + waited
  | .tokenSend frame => frame.attempt ≤ 3 ∧ 200 * count = frame.attempt * inferTokenTimeoutMs
  | .finished result => result = -1 → count = 225
  | _ => True

section Budget

variable {plan : SessionPlan} {gen : Generation} {driver : Driver}
variable {count : Nat}

theorem PumpsDone.goesOn {caller : PumpCaller} {pc : DriverPc}
    (goesOn : PumpGoesOn caller pc) (done : PumpsDone count (.pump caller)) :
    PumpsDone count pc := by
  rcases goesOn.2 with isExpire | ⟨call, replies, isCall⟩
  · rw [isExpire]
    cases caller <;> exact done
  · rw [isCall]
    cases caller <;> exact done

theorem PumpsDone.dispatched {caller : PumpCaller} {received : Received} {tick : Tick}
    {later : Driver} (dispatched : Dispatched plan gen driver caller received tick later)
    (done : PumpsDone count (.pump caller)) :
    PumpsDone count later.pc := by
  have expiring : PumpsDone count (.pumpExpire caller) := done.goesOn (pumpGoesOn_expire caller)
  cases dispatched with
  | ignored | report | final => exact expiring
  | discovery msg isMsg notReport notHop nextXid pc goesOn => exact done.goesOn goesOn

theorem expiryClocks_handedOn (tick : Tick) (received : Received) :
    expiryClocks (handedOn tick received).toList = [] := by
  obtain ⟨decoded, src⟩ := received
  cases decoded with
  | none => rfl
  | some msg =>
    unfold handedOn
    dsimp only
    split_ifs <;> rfl

theorem PumpsDone.next (done : PumpsDone count driver.pc)
    (inside : frameOf driver.pc ≠ none) (event : DriverEvent) :
    PumpsDone (count + (expiryClocks (registryEvent driver event).toList).length)
      (driverNext plan gen driver event).pc := by
  have ends : inferTokenTimeoutMs = 200 * 75 := rfl
  cases event with
  | arrive received => exact done
  | run tick =>
    rw [driverNext, driverStep, registryEvent]
    have step := driverRun_step plan gen driver tick
    generalize (driverRun plan gen driver tick).2 = datagrams at step
    generalize (driverRun plan gen driver tick).1 = later at step ⊢
    cases step with
    | takes caller received rest atPc isQueue =>
      rw [atPc] at done ⊢
      simp only [isQueue, List.head?_cons, Option.bind_some,
        expiryClocks_handedOn, List.length_nil, Nat.add_zero]
      exact done.dispatched (pumpDispatch_dispatched plan gen _ caller received tick)
    | blocks caller atPc isEmpty =>
      rw [atPc] at done ⊢
      rw [isEmpty]
      exact done
    | timesOut caller atPc isEmpty =>
      rw [atPc] at done ⊢
      rw [isEmpty]
      exact done.goesOn (pumpGoesOn_expire caller)
    | callPending caller _ _ _ _ _ atPc | callReturned caller _ _ _ _ _ atPc =>
      rw [atPc] at done ⊢
      cases caller <;> exact done
    | expires caller atPc =>
      rw [atPc] at done inside ⊢
      cases caller with
      | readiness => exact absurd rfl inside
      | token frame waited =>
        obtain ⟨attempts, early, counted⟩ := done
        have oneMore :
            (expiryClocks (some (Discovery.MasterEvent.expire tick.now)).toList ).length = 1 :=
          rfl
        rw [ends] at early counted
        rw [oneMore]
        refine ⟨attempts, ?_, ?_⟩
        · rw [ends]
          omega
        · rw [ends]
          omega
    | sends frame atPc within =>
      rw [atPc] at done ⊢
      refine ⟨within, by decide, ?_⟩
      rw [Nat.add_zero]
      exact done.2
    | givesUp frame atPc exhausted =>
      rw [atPc] at done ⊢
      obtain ⟨attempts, counted⟩ := done
      intro _
      have last : frame.attempt = 3 := Nat.le_antisymm attempts (Nat.not_le.mp exhausted)
      rw [last, ends] at counted
      change count = 225
      omega
    | stops frame waited atPc accepted isEnd =>
      intro impossible
      exact absurd impossible (by decide)
    | advances frame waited atPc accepted goesOn => exact trivial
    | pumpsAgain frame waited atPc early =>
      rw [atPc] at done ⊢
      exact ⟨done.1, early, done.2.2⟩
    | retries frame waited atPc noFinal late =>
      rw [atPc] at done ⊢
      obtain ⟨attempts, early, counted⟩ := done
      have isEnd : waited = inferTokenTimeoutMs := by omega
      rw [isEnd, ← Nat.succ_mul] at counted
      exact ⟨Nat.succ_le_succ attempts, counted⟩
    | setup _ atPc | setupPending _ _ _ _ _ atPc
    | setupReturned _ _ _ _ _ atPc | waits atPc | ready atPc
    | begins _ _ atPc | completes _ _ atPc | finished _ atPc =>
      rw [atPc] at inside
      exact absurd rfl inside

theorem PumpsDone.after (events : List DriverEvent) (done : PumpsDone count driver.pc)
    (within : Along (driverNext plan gen) (fun state _ => frameOf state.pc ≠ none) driver events) :
    PumpsDone (count + (pumpClocks plan gen driver events).length)
      (after (driverNext plan gen) driver events).pc := by
  induction events generalizing driver count with
  | nil => exact done
  | cons event rest ih =>
    obtain ⟨inside, later⟩ := within
    have next := ih (done.next inside event) later
    rw [Nat.add_assoc, ← List.length_append] at next
    rw [pumpClocks, registryEvents, shownEvents, outputs, expiryClocks_append, after_cons]
    exact next

/-- A call that fails has pumped 225 times. -/
theorem FailedToken.pumps {start : Driver} {events : List DriverEvent}
    (token : FailedToken plan gen start events) :
    (pumpClocks plan gen start events).length = 225 := by
  obtain ⟨frame, isPc, first⟩ := token.begins
  have done : PumpsDone 0 start.pc := by
    rw [isPc]
    refine ⟨by omega, ?_⟩
    rw [first, Nat.zero_mul]
  have atEnd := done.after events token.within
  rw [token.fails, Nat.zero_add] at atEnd
  exact atEnd rfl

end Budget

/-- Nothing of the worker is handled by the step. -/
def WorkerSilent (workerId : UInt32) (driver : Driver) (event : DriverEvent) : Prop :=
  ∀ handled ∈ registryEvent driver event, SilentIn workerId driver.discovery handled

/-- The worker's entry is not `ACTIVE`, and the next
`run_generation_session` assigns no layers to it. -/
structure OutOfRing (home : RpcAddr) (driver : Driver) (slot : Slot) (workerId : UInt32) :
    Prop where
  notActive : ¬ WorkerActive driver.discovery.registry slot workerId
  notAssigned :
    ∀ tmpl drawn now plan later,
      startSession home driver tmpl drawn now = some (plan, later) → slot ∈ plan.slots →
        (driver.discovery.registry slot).info.workerId ≠ workerId

theorem mem_startSession_slots {self : RpcAddr} {before later : Driver} {tmpl : AssignLayers}
    {drawn : Option UInt32} {now : UInt32} {plan : SessionPlan}
    (started : startSession self before tmpl drawn now = some (plan, later)) (slot : Slot) :
    slot ∈ plan.slots ↔ isActive before.discovery.registry slot := by
  obtain ⟨registry, isRegistry, _, isPlan, _⟩ := startSession_some started
  rw [isPlan, isRegistry, sessionPlan, discoveryRingOrder_eq, mem_activeSlots, restitched_isActive]

theorem outOfRing_iff (self : RpcAddr) (driver : Driver) (slot : Slot) (workerId : UInt32) :
    OutOfRing self driver slot workerId ↔
      ¬ WorkerActive driver.discovery.registry slot workerId := by
  constructor
  · exact OutOfRing.notActive
  · intro notActive
    refine ⟨notActive, ?_⟩
    intro tmpl drawn now plan later started listed isWorker
    have active := (mem_startSession_slots started slot).mp listed
    exact notActive ⟨isWorker, active.2⟩

section Dead

variable {plan : SessionPlan} {gen : Generation} {start : Driver}
variable {workerId : UInt32} {slot : Slot}

/-- Through any run of the thread, a silent worker stays `ACTIVE` as long as no
pump ends more than `SUSPECTED_TIMEOUT` after it was last seen. -/
theorem silent_active_iff (named : workerId ≠ 0) (events : List DriverEvent)
    (isActive : WorkerActive start.discovery.registry slot workerId)
    (silent : Along (driverNext plan gen) (WorkerSilent workerId) start events) :
    WorkerActive (after (driverNext plan gen) start events).discovery.registry slot
        workerId ↔
      ∀ now ∈ pumpClocks plan gen start events,
        ¬ Overdue (start.discovery.registry slot).lastSeenMs now := by
  have projected :
      (after (driverNext plan gen) start events).discovery =
        after (Discovery.masterNext plan.self) start.discovery
          (registryEvents plan gen start events) :=
    view_after (driverNext_discovery plan gen) start events
  have silentThere :
      Along (Discovery.masterNext plan.self) (SilentIn workerId)
        start.discovery (registryEvents plan gen start events) :=
    along_shownEvents (driverNext_discovery plan gen) events silent
  rw [projected]
  exact workerActive_after_iff named _ isActive silentThere

/-- When `master_run_token` has returned -1, it has pumped 225 times, and a
worker that was silent meanwhile is out of the ring exactly when one of these
pumps ended more than `SUSPECTED_TIMEOUT` after the worker was last seen. -/
theorem dead_worker_out_iff {events : List DriverEvent} (token : FailedToken plan gen start events)
    (named : workerId ≠ 0) (isActive : WorkerActive start.discovery.registry slot workerId)
    (silent : Along (driverNext plan gen) (WorkerSilent workerId) start events) :
    (pumpClocks plan gen start events).length = 225 ∧
      (OutOfRing plan.self (after (driverNext plan gen) start events) slot
          workerId ↔
        ∃ now ∈ pumpClocks plan gen start events,
          Overdue (start.discovery.registry slot).lastSeenMs now) := by
  refine ⟨token.pumps, ?_⟩
  rw [outOfRing_iff, silent_active_iff named events isActive silent]
  push Not
  exact Iff.rfl

end Dead

/-! ## Two ways to wait -/

/-- What a pump of the token loop meets: 200 ms without a datagram, or a
heartbeat of worker `k` of the ring that is there at once. -/
inductive PumpInput where
  | quiet
  | beat (k : Nat)

def clockTick (now : UInt32) : Tick :=
  { timeoutTick with now := now }

def beatMsg (k : Nat) : RpcMsg := rpcFillCall 1 procHeartbeat (leWord (ringId k))

namespace PumpInput

def ends (now : UInt32) : PumpInput → UInt32
  | quiet => now + 2
  | beat _ => now

def events (now : UInt32) : PumpInput → List DriverEvent
  | quiet =>
    DriverEvent.run (clockTick (now + 2)) ::
      List.replicate 2 (DriverEvent.run (clockTick (now + 2)))
  | beat k =>
    DriverEvent.arrive (some (beatMsg k), ringAddr k) ::
      DriverEvent.run (clockTick now) :: List.replicate 2 (DriverEvent.run (clockTick now))

def calls (now : UInt32) : PumpInput → List Discovery.MasterEvent
  | quiet => [Discovery.MasterEvent.expire (now + 2)]
  | beat k =>
    [Discovery.MasterEvent.call (beatMsg k) (ringAddr k) now [], Discovery.MasterEvent.expire now]

def Foreign (workerId : UInt32) : PumpInput → Prop
  | quiet => True
  | beat k => ringId k ≠ workerId

end PumpInput

/-- The pumps of one attempt that begins at `now`. -/
def waitEvents : UInt32 → List PumpInput → List DriverEvent
  | _, [] => []
  | now, input :: rest => input.events now ++ waitEvents (input.ends now) rest

def waitCalls : UInt32 → List PumpInput → List Discovery.MasterEvent
  | _, [] => []
  | now, input :: rest => input.calls now ++ waitCalls (input.ends now) rest

def waitEnds (now : UInt32) (inputs : List PumpInput) : UInt32 := inputs.foldl PumpInput.ends now

/-- The attempts of `master_run_token` from `now` on, and its return. -/
def tokenEvents : UInt32 → List (List PumpInput) → List DriverEvent
  | now, [] => [DriverEvent.run (clockTick now)]
  | now, inputs :: rest =>
    DriverEvent.run (clockTick now) ::
      (waitEvents now inputs ++ tokenEvents (waitEnds now inputs) rest)

def tokenCalls :
    UInt32 → List (List PumpInput) → List Discovery.MasterEvent
  | _, [] => []
  | now, inputs :: rest => waitCalls now inputs ++ tokenCalls (waitEnds now inputs) rest

/-- The thread stands at `pc` with nothing received. -/
structure StandsAt (driver : Driver) (pc : DriverPc) : Prop where
  atPc : driver.pc = pc
  empty : driver.queue = []
  noFinal : driver.haveFinal = false

/-- The events take the thread to `pc` inside the call, make these `calls` to
the registry, and are silent about the worker. -/
structure Goes (workerId : UInt32) (plan : SessionPlan) (gen : Generation)
    (driver : Driver) (events : List DriverEvent)
    (calls : List Discovery.MasterEvent) (pc : DriverPc) : Prop where
  stands : StandsAt (after (driverNext plan gen) driver events) pc
  within : Along (driverNext plan gen) (fun state _ => frameOf state.pc ≠ none) driver events
  silent : Along (driverNext plan gen) (WorkerSilent workerId) driver events
  shows : registryEvents plan gen driver events = calls

/-- Where the token loop goes once it has waited so long. -/
def afterPump (frame : TokenFrame) (waited : Nat) : DriverPc :=
  if waited < inferTokenTimeoutMs then .pump (.token frame waited)
  else .tokenSend { frame with attempt := frame.attempt + 1 }

section Waiting

variable {workerId : UInt32} {plan : SessionPlan} {gen : Generation}
variable {driver : Driver} {frame : TokenFrame} {waited : Nat}

theorem Goes.nil {pc : DriverPc} (stands : StandsAt driver pc) :
    Goes workerId plan gen driver [] [] pc :=
  ⟨stands, trivial, trivial, rfl⟩

theorem Goes.append {initial rest : List DriverEvent} {first second : List Discovery.MasterEvent}
    {middle last : DriverPc} (goes : Goes workerId plan gen driver initial first middle) (goesOn :
      Goes workerId plan gen (after (driverNext plan gen) driver initial) rest second last) :
    Goes workerId plan gen driver (initial ++ rest) (first ++ second) last where
  stands := by
    rw [after_append]
    exact goesOn.stands
  within := (along_append _ _ _ _ _).mpr ⟨goes.within, goesOn.within⟩
  silent := (along_append _ _ _ _ _).mpr ⟨goes.silent, goesOn.silent⟩
  shows := by
    rw [registryEvents, shownEvents, outputs_append]
    exact congrArg₂ (· ++ ·) goes.shows goesOn.shows

theorem Goes.single {event : DriverEvent} {shown : Option Discovery.MasterEvent} {pc : DriverPc}
    (inside : frameOf driver.pc ≠ none) (isShown : registryEvent driver event = shown)
    (silent : ∀ handled ∈ shown, SilentIn workerId driver.discovery handled)
    (stands : StandsAt (driverNext plan gen driver event) pc) :
    Goes workerId plan gen driver [event] shown.toList pc := by
  refine ⟨stands, ⟨inside, trivial⟩, ⟨?_, trivial⟩, ?_⟩
  · rw [← isShown] at silent
    exact silent
  · rw [registryEvents, shownEvents, outputs, isShown]
    exact List.append_nil _

theorem silentIn_none (master : Master) :
    ∀ handled ∈ (none : Option Discovery.MasterEvent), SilentIn workerId master handled :=
  fun _ impossible => absurd impossible (by simp)

theorem silentIn_expire (master : Master) (now : UInt32) :
    SilentIn workerId master (Discovery.MasterEvent.expire now) := by
  refine ⟨?_, ?_, ?_⟩
  · rintro slot at_ ⟨_, _, _, sameEvent, _⟩
    cases sameEvent
  · rintro slot ack at_ ⟨_, _, _, sameEvent, _⟩
    cases sameEvent
  · rintro slot info at_ entropy ⟨_, _, sameEvent, _⟩
    cases sameEvent

theorem beatMsg_worker (k : Nat) : (readLeWord (beatMsg k).payload).1 = ringId k := by
  have isPayload : (beatMsg k).payload = leWord (ringId k) ++ [] := (List.append_nil _).symm
  rw [isPayload, readLeWord_leWord]

theorem silentIn_beat (master : Master) (k : Nat) (now : UInt32) (foreign : ringId k ≠ workerId) :
    SilentIn workerId master (Discovery.MasterEvent.call (beatMsg k) (ringAddr k) now []) := by
  refine ⟨?_, ?_, ?_⟩
  · rintro slot at_ ⟨_, _, _, sameEvent, _, _, _, found⟩ isWorker
    cases sameEvent
    have sameId := ((registryFind_eq_some_iff _ _ _).mp found).1
    rw [isWorker, beatMsg_worker] at sameId
    exact foreign sameId.symm
  · rintro slot ack at_ ⟨_, _, _, sameEvent, _, isAck, _⟩
    cases sameEvent
    have sameProc : procHeartbeat = procCapAck := isAck
    exact absurd sameProc (by decide)
  · rintro slot info at_ entropy ⟨_, _, sameEvent, _, isHello, _⟩
    cases sameEvent
    have sameProc : procHeartbeat = procAuthHello := isHello
    exact absurd sameProc (by decide)

theorem goes_test (stands : StandsAt driver (.tokenTest frame waited)) (tick : Tick) :
    Goes workerId plan gen driver [DriverEvent.run tick] [] (afterPump frame waited) := by
  have inside : frameOf driver.pc ≠ none := by
    rw [stands.atPc]
    exact Option.some_ne_none frame
  have idle : registryEvent driver (.run tick) = none := by rw [registryEvent, stands.atPc]
  refine Goes.single inside idle (silentIn_none _) ?_
  have notFinal : ¬ driver.haveFinal = true := by
    rw [stands.noFinal]
    decide
  rw [driverNext, driverStep, driverRun, stands.atPc]
  dsimp only
  rw [if_neg notFinal]
  exact ⟨rfl, stands.empty, stands.noFinal⟩

theorem goes_expire (stands : StandsAt driver (.pumpExpire (.token frame waited))) (now : UInt32) :
    Goes workerId plan gen driver (List.replicate 2 (DriverEvent.run (clockTick now)))
      [Discovery.MasterEvent.expire now]
      (afterPump frame (waited + 200)) := by
  have inside : frameOf driver.pc ≠ none := by
    rw [stands.atPc]
    exact Option.some_ne_none frame
  have shown :
      registryEvent driver (.run (clockTick now)) = some (Discovery.MasterEvent.expire now) := by
    rw [registryEvent, stands.atPc]
    rfl
  have atTest :
      StandsAt (driverNext plan gen driver (.run (clockTick now)))
        (.tokenTest frame (waited + 200)) := by
    rw [driverNext, driverStep, driverRun, stands.atPc]
    exact ⟨rfl, stands.empty, stands.noFinal⟩
  have ageing :
      Goes workerId plan gen driver [DriverEvent.run (clockTick now)]
        [Discovery.MasterEvent.expire now]
        (.tokenTest frame (waited + 200)) := by
    refine Goes.single inside shown ?_ atTest
    intro handled isHandled
    rw [← Option.some.inj isHandled]
    exact silentIn_expire _ now
  exact ageing.append (goes_test atTest (clockTick now))

theorem callOf_beat (self : RpcAddr) (master : Master) (k : Nat) (now : UInt32) :
    callOf (discoveryHandleCall self master (beatMsg k) (ringAddr k) now []).2 = none := by
  have isBeat : (beatMsg k).proc = procHeartbeat := rfl
  have notHello : ¬ procHeartbeat = procAuthHello := by decide
  by_cases admitted : Admitted master (beatMsg k) (ringAddr k) now
  · rw [discoveryHandleCall_of_admitted admitted, dispatchCall, isBeat, if_neg notHello, if_pos rfl]
    unfold handleHeartbeat
    split_ifs
    · rfl
    · split <;> rfl
  · have outcome :
        (discoveryHandleCall self master (beatMsg k) (ringAddr k) now
            []).2 = [] ∨
          (discoveryHandleCall self master (beatMsg k) (ringAddr k) now
            []).2 = answer (ringAddr k) (beatMsg k) .progUnavail :=
      (discoveryHandleCall_of_not_admitted admitted).2
    rcases outcome with silent | refused
    · rw [silent]
      rfl
    · rw [refused]
      rfl

theorem standsAt_takesBeat {k : Nat} (atPc : driver.pc = .pump (.token frame waited))
    (isQueue : driver.queue = [(some (beatMsg k), ringAddr k)]) (noFinal : driver.haveFinal = false)
    (now : UInt32) :
    StandsAt (driverNext plan gen driver (.run (clockTick now)))
      (.pumpExpire (.token frame waited)) := by
  have noCall := callOf_beat plan.self driver.discovery k now
  have outcome :
      pumpDispatch plan gen { driver with queue := [] }
          (.token frame waited) (some (beatMsg k), ringAddr k)
          (clockTick now) =
        pumpDiscovery plan.self { driver with queue := [] }
          (.token frame waited) (beatMsg k) (ringAddr k)
          (clockTick now) :=
    rfl
  rw [driverNext, driverStep, driverRun, atPc]
  dsimp only
  rw [isQueue]
  dsimp only
  rw [← atPc, outcome, pumpDiscovery]
  dsimp only
  rw [show callOf (discoveryHandleCall plan.self driver.discovery (beatMsg k)
        (ringAddr k) (clockTick now).now (clockTick now).entropy).2 = none
    from noCall]
  exact ⟨rfl, rfl, noFinal⟩

theorem goes_beat (stands : StandsAt driver (.pump (.token frame waited)))
    (now : UInt32) {k : Nat} (foreign : ringId k ≠ workerId) :
    Goes workerId plan gen driver
      [DriverEvent.arrive (some (beatMsg k), ringAddr k), DriverEvent.run (clockTick now)]
      [Discovery.MasterEvent.call (beatMsg k) (ringAddr k) now []]
      (.pumpExpire (.token frame waited)) := by
  have inside : frameOf driver.pc ≠ none := by
    rw [stands.atPc]
    exact Option.some_ne_none frame
  have atPump :
      (driverNext plan gen driver (.arrive (some (beatMsg k), ringAddr k))).pc =
        .pump (.token frame waited) :=
    stands.atPc
  have isQueue :
      (driverNext plan gen driver
          (.arrive (some (beatMsg k), ringAddr k))).queue =
        [(some (beatMsg k), ringAddr k)] := by
    rw [driverNext, driverStep, stands.empty, List.nil_append]
  have shown :
      registryEvent (driverNext plan gen driver (.arrive (some (beatMsg k), ringAddr k)))
          (.run (clockTick now)) =
        some (Discovery.MasterEvent.call (beatMsg k) (ringAddr k) now []) := by
    rw [registryEvent, atPump, isQueue]
    rfl
  refine ⟨standsAt_takesBeat atPump isQueue stands.noFinal now,
    ⟨inside, inside, trivial⟩, ⟨?_, ?_, trivial⟩, ?_⟩
  · exact silentIn_none _
  · intro handled isHandled
    rw [shown] at isHandled
    rw [← Option.some.inj isHandled]
    exact silentIn_beat _ k now foreign
  · rw [registryEvents, shownEvents, outputs, outputs, shown]
    rfl

theorem goes_pump (stands : StandsAt driver (.pump (.token frame waited)))
    (now : UInt32) (input : PumpInput) (foreign : input.Foreign workerId) :
    Goes workerId plan gen driver (input.events now) (input.calls now)
      (afterPump frame (waited + 200)) := by
  have inside : frameOf driver.pc ≠ none := by
    rw [stands.atPc]
    exact Option.some_ne_none frame
  cases input with
  | quiet =>
    have idle : registryEvent driver (.run (clockTick (now + 2))) = none := by
      rw [registryEvent, stands.atPc, stands.empty]
      rfl
    have timesOut :
        StandsAt (driverNext plan gen driver (.run (clockTick (now + 2))))
          (.pumpExpire (.token frame waited)) := by
      rw [driverNext, driverStep, driverRun, stands.atPc]
      dsimp only
      rw [stands.empty]
      exact ⟨rfl, rfl, stands.noFinal⟩
    have blocked :
        Goes workerId plan gen driver
          [DriverEvent.run (clockTick (now + 2))] []
          (.pumpExpire (.token frame waited)) :=
      Goes.single inside idle (silentIn_none _) timesOut
    exact blocked.append (goes_expire timesOut (now + 2))
  | beat k =>
    have taken :
        Goes workerId plan gen driver
          [DriverEvent.arrive (some (beatMsg k), ringAddr k), DriverEvent.run (clockTick now)]
          [Discovery.MasterEvent.call (beatMsg k) (ringAddr k) now []]
          (.pumpExpire (.token frame waited)) :=
      goes_beat stands now foreign
    exact taken.append (goes_expire taken.stands now)

theorem goes_wait (stands : StandsAt driver (afterPump frame waited)) (now : UInt32)
    (inputs : List PumpInput) (exact_ : waited + 200 * inputs.length = inferTokenTimeoutMs)
    (foreign : ∀ input ∈ inputs, input.Foreign workerId) :
    Goes workerId plan gen driver (waitEvents now inputs) (waitCalls now inputs)
      (.tokenSend { frame with attempt := frame.attempt + 1 }) := by
  induction inputs generalizing driver waited now with
  | nil =>
    have through : ¬ waited < inferTokenTimeoutMs := by
      rw [List.length_nil] at exact_
      omega
    rw [afterPump, if_neg through] at stands
    exact Goes.nil stands
  | cons input rest ih =>
    rw [List.length_cons] at exact_
    have early : waited < inferTokenTimeoutMs := by omega
    rw [afterPump, if_pos early] at stands
    have pumped :
        Goes workerId plan gen driver (input.events now)
          (input.calls now) (afterPump frame (waited + 200)) :=
      goes_pump stands now input (foreign input List.mem_cons_self)
    refine pumped.append (ih pumped.stands (input.ends now) ?_ ?_)
    · omega
    · intro other listed
      exact foreign other (List.mem_cons_of_mem _ listed)

theorem goes_token (stands : StandsAt driver (.tokenSend frame)) (now : UInt32)
    (attempts : List (List PumpInput)) (three : frame.attempt + attempts.length = 3)
    (full : ∀ inputs ∈ attempts, inputs.length = 75)
    (foreign : ∀ inputs ∈ attempts, ∀ input ∈ inputs, input.Foreign workerId) :
    Goes workerId plan gen driver (tokenEvents now attempts)
      (tokenCalls now attempts) (.finished (-1)) := by
  induction attempts generalizing driver frame now with
  | nil =>
    have inside : frameOf driver.pc ≠ none := by
      rw [stands.atPc]
      exact Option.some_ne_none frame
    have idle : registryEvent driver (.run (clockTick now)) = none := by
      rw [registryEvent, stands.atPc]
    have spent : ¬ frame.attempt ≤ inferMaxRetries := by
      rw [List.length_nil, Nat.add_zero] at three
      rw [three]
      decide
    refine Goes.single inside idle (silentIn_none _) ?_
    rw [driverNext, driverStep, driverRun, stands.atPc]
    dsimp only [tokenSendStep]
    rw [if_neg spent]
    exact ⟨rfl, stands.empty, stands.noFinal⟩
  | cons inputs rest ih =>
    have inside : frameOf driver.pc ≠ none := by
      rw [stands.atPc]
      exact Option.some_ne_none frame
    have idle : registryEvent driver (.run (clockTick now)) = none := by
      rw [registryEvent, stands.atPc]
    have left : frame.attempt ≤ inferMaxRetries := by
      rw [List.length_cons] at three
      have retries : inferMaxRetries = 2 := rfl
      omega
    have sends :
        StandsAt (driverNext plan gen driver (.run (clockTick now))) (afterPump frame 0) := by
      rw [driverNext, driverStep, driverRun, stands.atPc]
      dsimp only [tokenSendStep]
      rw [if_pos left]
      exact ⟨rfl, stands.empty, stands.noFinal⟩
    have sent :
        Goes workerId plan gen driver [DriverEvent.run (clockTick now)] [] (afterPump frame 0) :=
      Goes.single inside idle (silentIn_none _) sends
    have budget : 0 + 200 * inputs.length = inferTokenTimeoutMs := by
      rw [full inputs List.mem_cons_self]
      rfl
    have attempted :=
      sent.append (goes_wait sent.stands now inputs budget (foreign inputs List.mem_cons_self))
    refine attempted.append (ih attempted.stands (waitEnds now inputs) ?_ ?_ ?_)
    · rw [List.length_cons] at three
      dsimp only
      omega
    · intro other listed
      exact full other (List.mem_cons_of_mem _ listed)
    · intro other listed
      exact foreign other (List.mem_cons_of_mem _ listed)

end Waiting

/-- The master of sixteen workers at the start of a token, at tick 0, when all
of them have just been seen. -/
def tokenStart : Driver :=
  { ringStart 16 with
    pc := .tokenSend { pos := 0, token := 1, head := ringAddr 0, x := [0], attempt := 0 } }

theorem registry_tokenStart :
    ∃ prev next, tokenStart.discovery.registry 0 = relinked (ringRegistry 16 0) prev next :=
  ⟨_, _, restitched_onlyLinks ringMaster (ringRegistry 16) 0⟩

theorem workerActive_tokenStart : WorkerActive tokenStart.discovery.registry 0 (ringId 0) := by
  obtain ⟨prev, next, isEntry⟩ := registry_tokenStart
  rw [WorkerActive, isEntry]
  exact ⟨rfl, rfl⟩

theorem lastSeen_tokenStart : (tokenStart.discovery.registry 0).lastSeenMs = 0 := by
  obtain ⟨prev, next, isEntry⟩ := registry_tokenStart
  rw [isEntry]
  rfl

section Attempts

variable {attempts : List (List PumpInput)}
variable (three : attempts.length = 3)
variable (full : ∀ inputs ∈ attempts, inputs.length = 75)
variable (foreign : ∀ inputs ∈ attempts, ∀ input ∈ inputs, input.Foreign (ringId 0))

include three full foreign

theorem goes_tokenStart :
    Goes (ringId 0) (ringPlan 16) ringGeneration tokenStart
      (tokenEvents 0 attempts) (tokenCalls 0 attempts) (.finished (-1)) :=
  goes_token ⟨rfl, rfl, rfl⟩ 0 attempts (by rw [three]) full foreign

theorem failedToken_tokenStart :
    FailedToken (ringPlan 16) ringGeneration tokenStart (tokenEvents 0 attempts) where
  begins := ⟨_, rfl, rfl⟩
  noFinal := rfl
  within := (goes_tokenStart three full foreign).within
  fails := (goes_tokenStart three full foreign).stands.atPc

theorem pumpClocks_tokenStart :
    pumpClocks (ringPlan 16) ringGeneration tokenStart (tokenEvents 0 attempts) =
      expiryClocks (tokenCalls 0 attempts) := by
  rw [pumpClocks, (goes_tokenStart three full foreign).shows]

end Attempts

def quietAttempts : List (List PumpInput) := List.replicate 3 (List.replicate 75 PumpInput.quiet)

theorem foreign_quietAttempts :
    ∀ inputs ∈ quietAttempts, ∀ input ∈ inputs, input.Foreign (ringId 0) := by
  intro inputs listed input isInput
  rw [List.eq_of_mem_replicate listed] at isInput
  rw [List.eq_of_mem_replicate isInput]
  trivial

/-- Without traffic the pumps last 450 ticks, and the dead worker is out. -/
theorem dead_worker_out_quietAttempts :
    OutOfRing ringMaster
      (after (driverNext (ringPlan 16) ringGeneration) tokenStart
        (tokenEvents 0 quietAttempts)) 0 (ringId 0) := by
  have full : ∀ inputs ∈ quietAttempts, inputs.length = 75 := by
    intro inputs listed
    rw [List.eq_of_mem_replicate listed, List.length_replicate]
  have settled :=
    dead_worker_out_iff (failedToken_tokenStart rfl full foreign_quietAttempts)
      (by decide) workerActive_tokenStart
      (goes_tokenStart rfl full foreign_quietAttempts).silent
  rw [lastSeen_tokenStart, pumpClocks_tokenStart rfl full foreign_quietAttempts] at settled
  exact settled.2.mpr ⟨450, by decide +kernel, by decide⟩

/-- The heartbeats of the fifteen other workers. -/
def liveBeats : List PumpInput := (List.range' 1 15).map PumpInput.beat

/-- The others send a heartbeat at tick 0 and at tick 200, as they do every
200 ticks, and nothing else. -/
def beatingAttempts : List (List PumpInput) :=
  [liveBeats ++ List.replicate 60 PumpInput.quiet,
    List.replicate 40 PumpInput.quiet ++ (liveBeats ++ List.replicate 20 PumpInput.quiet),
    List.replicate 75 PumpInput.quiet]

theorem foreign_liveBeats : ∀ input ∈ liveBeats, input.Foreign (ringId 0) := by
  intro input listed
  obtain ⟨k, inRange, rfl⟩ := List.mem_map.mp listed
  have others : ∀ k ∈ List.range' 1 15, ringId k ≠ ringId 0 := by decide
  exact others k inRange

theorem foreign_beatingAttempts :
    ∀ inputs ∈ beatingAttempts, ∀ input ∈ inputs, input.Foreign (ringId 0) := by
  have foreign_quiet :
      ∀ count, ∀ input ∈ List.replicate count PumpInput.quiet, input.Foreign (ringId 0) := by
    intro count input listed
    rw [List.eq_of_mem_replicate listed]
    trivial
  simp only [beatingAttempts, List.forall_mem_cons, List.forall_mem_append]
  exact ⟨⟨foreign_liveBeats, foreign_quiet 60⟩,
    ⟨foreign_quiet 40, foreign_liveBeats, foreign_quiet 20⟩,
    foreign_quiet 75, by simp⟩

/-- With the regular heartbeats of fifteen live workers the pumps, none longer
than two ticks, last 390 ticks only: the token fails and the dead worker is
still in the ring. -/
theorem dead_worker_kept_beatingAttempts :
    FailedToken (ringPlan 16) ringGeneration tokenStart
        (tokenEvents 0 beatingAttempts) ∧
      Along (driverNext (ringPlan 16) ringGeneration) (WorkerSilent (ringId 0)) tokenStart
        (tokenEvents 0 beatingAttempts) ∧
      WorkerActive tokenStart.discovery.registry 0 (ringId 0) ∧
      (0 :: pumpClocks (ringPlan 16) ringGeneration tokenStart
        (tokenEvents 0 beatingAttempts)).IsChain
        (fun earlier later => earlier ≤ later ∧ later ≤ earlier + 2) ∧
      ¬ OutOfRing ringMaster
        (after (driverNext (ringPlan 16) ringGeneration) tokenStart
          (tokenEvents 0 beatingAttempts)) 0 (ringId 0) := by
  have full : ∀ inputs ∈ beatingAttempts, inputs.length = 75 := by decide
  have goes := goes_tokenStart rfl full foreign_beatingAttempts
  have clocks := pumpClocks_tokenStart rfl full foreign_beatingAttempts
  refine ⟨failedToken_tokenStart rfl full foreign_beatingAttempts,
    goes.silent, workerActive_tokenStart, ?_, ?_⟩
  · rw [clocks]
    decide +kernel
  · have inTime :
        (expiryClocks (tokenCalls 0 beatingAttempts)).all (fun now => ¬ Overdue 0 now) = true := by
      decide +kernel
    rw [outOfRing_iff, not_not, silent_active_iff (by decide) _ workerActive_tokenStart goes.silent,
      clocks, lastSeen_tokenStart]
    intro now listed
    exact of_decide_eq_true (List.all_eq_true.mp inTime now listed)

end LlmRuntime.DistInf
