import LlmRuntime.DistInf.Readiness
import LlmRuntime.DistInf.TokenLoop

/-!
# Which activation a token ends with

When `master_run_token` returns 0, `g_final_x` is followed back to the datagram
it came from.  What arrives on the socket, and what the registry goes through
meanwhile, is arbitrary.
-/

namespace LlmRuntime.DistInf

open Bytes Discovery Execution

/-- `run_master` from its first session on. -/
structure MasterRun where
  plan : SessionPlan
  driver : Driver
  restarts : Nat

/-- A step of the session that runs, or the start of the next one after a
failed hop. -/
inductive MasterEvent where
  | driver (event : DriverEvent)
  | restart (drawn : Option UInt32) (now : UInt32)

def maxRestarts : Nat := 3

def MasterRun.restart (self : RpcAddr) (tmpl : AssignLayers) (run : MasterRun)
    (drawn : Option UInt32) (now : UInt32) : MasterRun :=
  match startSession self run.driver tmpl drawn now with
  | none => { run with driver := { run.driver with pc := .finished (-2) } }
  | some (plan, driver) => { plan := plan, driver := driver, restarts := run.restarts + 1 }

def masterNext (self : RpcAddr) (tmpl : AssignLayers) (gen : Generation)
    (run : MasterRun) : MasterEvent → MasterRun
  | .driver event => { run with driver := driverNext run.plan gen run.driver event }
  | .restart drawn now =>
    if run.driver.pc = .finished (-1) ∧ run.restarts < maxRestarts then
      run.restart self tmpl drawn now
    else run

theorem startSession_keeps {self : RpcAddr} {before driver : Driver} {tmpl : AssignLayers}
    {drawn : Option UInt32} {now : UInt32} {plan : SessionPlan}
    (started : startSession self before tmpl drawn now = some (plan, driver)) :
    plan.session ≠ 0 ∧ driver.seq = before.seq ∧ ∃ todo, driver.pc = .setup todo none := by
  obtain ⟨registry, _, _, isPlan, isDriver⟩ := startSession_some started
  rw [isDriver, isPlan]
  exact ⟨freshSession_ne_zero drawn now, rfl, _, rfl⟩

/-- The number of the attempt a step makes, if it makes one. -/
def drawnBy (run : MasterRun) : MasterEvent → List UInt32
  | .driver (.run _) =>
    match run.driver.pc with
    | .tokenSend frame =>
      if frame.attempt ≤ inferMaxRetries then [run.driver.seq + 1]
      else []
    | _ => []
  | _ => []

def attemptNumbers (self : RpcAddr) (tmpl : AssignLayers) (gen : Generation)
    (start : MasterRun) (events : List MasterEvent) : List UInt32 :=
  outputs (masterNext self tmpl gen) drawnBy start events

/-- The next step takes `received` from the socket inside `master_run_token`,
and it carries the activation `x` for the attempt `hop.seq` of the session,
from the worker that closes the ring. -/
structure RightFinal (gen : Generation) (run : MasterRun) (frame : TokenFrame)
    (received : Received) (hop : InferHop) (x : Activation) : Prop where
  inCall : ∃ waited, run.driver.pc = .pump (.token frame waited)
  delivered : ∃ rest, run.driver.queue = received :: rest
  carries :
    ∃ msg, received.1 = some msg ∧ msg.mtype = .call ∧
      msg.proc = procInferReq ∧
      inferDecodeHop msg.payload gen.dim run.plan.session = some (hop, x)
  session : hop.sessionId = run.plan.session
  final : hop.isFinal = true
  floats : hop.nFloats = gen.dim ∧ x.length = gen.dim.toNat
  source :
    ∃ tail, isActive run.driver.discovery.registry tail ∧
      (run.driver.discovery.registry tail).next = run.plan.self ∧
      received.2 = (run.driver.discovery.registry tail).info.addr

theorem masterRingTail_some {self : RpcAddr} {registry : Registry} {tail : Slot}
    (found : masterRingTail self registry = some tail) :
    isActive registry tail ∧ (registry tail).next = self := by
  have passed := List.find?_some found
  exact of_decide_eq_true passed

/-- A final that the next step of the thread takes over. -/
structure TakesFinal (plan : SessionPlan) (gen : Generation) (driver : Driver)
    (received : Received) (hop : InferHop) (x : Activation) : Prop where
  delivered : ∃ rest, driver.queue = received :: rest
  carries :
    ∃ msg, received.1 = some msg ∧ msg.mtype = .call ∧
      msg.proc = procInferReq ∧
      inferDecodeHop msg.payload gen.dim plan.session = some (hop, x)
  final : hop.isFinal = true
  sameSeq : hop.seq = driver.finalSeq
  source :
    ∃ tail, masterRingTail plan.self driver.discovery.registry = some tail ∧
      received.2 = (driver.discovery.registry tail).info.addr

section Steps

variable {plan : SessionPlan} {gen : Generation} {driver later : Driver}
variable {tick : Tick}

theorem Dispatched.takesFinal {caller : PumpCaller} {received : Received} {rest : List Received}
    (dispatched : Dispatched plan gen { driver with queue := rest } caller received tick later)
    (isQueue : driver.queue = received :: rest) (raised : later.haveFinal = true) :
    (driver.haveFinal = true ∧ later.finalX = driver.finalX) ∨
      ∃ hop, TakesFinal plan gen driver received hop later.finalX := by
  cases dispatched with
  | ignored | discovery => exact .inl ⟨raised, rfl⟩
  | report msg isMsg isCall isReport =>
    have same := masterHandleShardReady_vars plan.session { driver with queue := rest } msg.payload
    have sameFlag := congrArg TokenVars.haveFinal same
    have sameX := congrArg TokenVars.finalX same
    exact .inl ⟨sameFlag.symm.trans raised, sameX⟩
  | final msg isMsg isCall isHop =>
    rcases masterHandleFinal_cases plan gen { driver with queue := rest }
      msg.payload received.2 with same | stored
    · rw [same] at raised ⊢
      exact .inl ⟨raised, rfl⟩
    · obtain ⟨hop, staging, tail, decoded, isFinal, sameSeq, isTail, isSource, isStored⟩ := stored
      rw [isStored]
      exact .inr ⟨hop, ⟨rest, isQueue⟩,
        ⟨msg, isMsg, isCall, isHop, decoded⟩, isFinal, sameSeq,
        ⟨tail, isTail, isSource⟩⟩

/-- A step after which the flag is up found it up, with the same activation,
or has just taken a final over. -/
theorem driverRun_takesFinal (raised : (driverRun plan gen driver tick).1.haveFinal = true) :
    (driver.haveFinal = true ∧ (driverRun plan gen driver tick).1.finalX = driver.finalX) ∨
      ∃ received hop,
        TakesFinal plan gen driver received hop (driverRun plan gen driver tick).1.finalX := by
  have step := driverRun_step plan gen driver tick
  generalize (driverRun plan gen driver tick).2 = datagrams at step
  generalize (driverRun plan gen driver tick).1 = later at step raised ⊢
  cases step with
  | takes caller received rest atPc isQueue =>
    have dispatched :=
      pumpDispatch_dispatched plan gen { driver with queue := rest } caller received tick
    rcases dispatched.takesFinal isQueue raised with same | ⟨hop, taken⟩
    · exact .inl same
    · exact .inr ⟨received, hop, taken⟩
  | setup todo atPc =>
    cases todo with
    | nil => exact .inl ⟨raised, rfl⟩
    | cons op rest => cases op <;> exact .inl ⟨raised, rfl⟩
  | begins pos token atPc within => cases raised
  | _ => exact .inl ⟨raised, rfl⟩

theorem drawnBy_of_not_sending
    {run : MasterRun} (notSending : ∀ frame, run.driver.pc ≠ .tokenSend frame)
    (event : MasterEvent) : drawnBy run event = [] := by
  cases event with
  | restart drawn now => rfl
  | driver event =>
    cases event with
    | arrive received => rfl
    | run tick =>
      rw [drawnBy]
      split
      · rename_i frame atPc
        exact absurd atPc (notSending frame)
      · rfl

end Steps

section Runs

variable (host : RpcAddr) (tmpl : AssignLayers) (gen : Generation)
variable (start : MasterRun)

abbrev masterAfter (events : List MasterEvent) : MasterRun :=
  after (masterNext host tmpl gen) start events

/-- The counter and the numbers drawn from it so far. -/
structure Numbered (events : List MasterEvent) (run : MasterRun) : Prop where
  counter :
    run.driver.seq =
      start.driver.seq + UInt32.ofNat (attemptNumbers host tmpl gen start events).length
  numbers :
    ∀ k, k < (attemptNumbers host tmpl gen start events).length →
      (attemptNumbers host tmpl gen start events)[k]? =
        some (start.driver.seq + UInt32.ofNat (k + 1))

/-- The step that took the final lies in this call: the thread has been waiting
in this frame ever since. -/
def TakenInCall (events : List MasterEvent) (frame : TokenFrame) (x : Activation) : Prop :=
  ∃ earlier tick later received hop,
    events = earlier ++ .driver (.run tick) :: later ∧
      RightFinal gen (masterAfter host tmpl gen start earlier) frame received hop x ∧
      (attemptNumbers host tmpl gen start earlier).getLast? = some hop.seq ∧
      ∀ middle, middle <+: later →
        tokenPhase
            (masterAfter host tmpl gen start (earlier ++ .driver (.run tick) :: middle)).driver.pc =
          .waiting frame

/-- What holds where the thread stands. -/
def FinalAt (events : List MasterEvent) (run : MasterRun) : Prop :=
  match tokenPhase run.driver.pc with
  | .sending _ => run.driver.haveFinal = false
  | .waiting frame =>
    run.driver.finalSeq = run.driver.seq ∧
      0 < (attemptNumbers host tmpl gen start events).length ∧
      (run.driver.haveFinal = true → TakenInCall host tmpl gen start events frame run.driver.finalX)
  | _ => True

structure FinalInvariant (events : List MasterEvent) (run : MasterRun) : Prop where
  fits : CallFits run.driver.pc
  session : run.plan.session ≠ 0
  numbered : Numbered host tmpl gen start events run
  final : FinalAt host tmpl gen start events run

variable {host tmpl gen start}
variable {initial : List MasterEvent} {event : MasterEvent}
variable {run next : MasterRun}

theorem Numbered.getLast {events : List MasterEvent}
    (numbered : Numbered host tmpl gen start events run)
    (drawn : 0 < (attemptNumbers host tmpl gen start events).length) :
    (attemptNumbers host tmpl gen start events).getLast? = some run.driver.seq := by
  rw [List.getLast?_eq_getElem?, numbered.numbers _ (by omega),
    numbered.counter, Nat.sub_add_cancel drawn]

theorem finalAt_of_noFrame (noFrame : (tokenPhase next.driver.pc).frame = none)
    (events : List MasterEvent) :
    FinalAt host tmpl gen start events next := by
  rw [FinalAt]
  cases phase : tokenPhase next.driver.pc with
  | sending | waiting =>
    rw [phase] at noFrame
    cases noFrame
  | outside | between | ended => trivial

theorem TakenInCall.extend {frame : TokenFrame} {x : Activation}
    (taken : TakenInCall host tmpl gen start initial frame x)
    (stays : tokenPhase (masterAfter host tmpl gen start
            (initial ++ [event])).driver.pc =
        .waiting frame) :
    TakenInCall host tmpl gen start (initial ++ [event]) frame x := by
  obtain ⟨earlier, tick, later, received, hop, split, right, inFlight, waiting⟩ := taken
  refine ⟨earlier, tick, later ++ [event], received, hop, ?_, right, inFlight, ?_⟩
  · rw [split, List.append_assoc, List.cons_append]
  · intro middle isPrefix
    rcases List.prefix_concat_iff.mp isPrefix with isAll | isEarlier
    · rw [isAll, ← List.cons_append, ← List.append_assoc, ← split]
      exact stays
    · exact waiting middle isEarlier

/-! ## Steps -/

variable (isRun : masterAfter host tmpl gen start initial = run)

include isRun

theorem masterAfter_snoc (event : MasterEvent) :
    masterAfter host tmpl gen start (initial ++ [event]) = masterNext host tmpl gen run event := by
  rw [← isRun]
  exact after_snoc _ _ _ _

theorem attemptNumbers_snoc (event : MasterEvent) :
    attemptNumbers host tmpl gen start (initial ++ [event]) =
      attemptNumbers host tmpl gen start initial ++ drawnBy run event := by
  rw [← isRun]
  exact outputs_snoc _ _ _ _ _

theorem attemptNumbers_quiet (nothing : drawnBy run event = []) :
    attemptNumbers host tmpl gen start (initial ++ [event]) =
      attemptNumbers host tmpl gen start initial := by
  rw [attemptNumbers_snoc isRun, nothing, List.append_nil]

theorem Numbered.quiet (numbered : Numbered host tmpl gen start initial run)
    (nothing : drawnBy run event = []) (same : next.driver.seq = run.driver.seq) :
    Numbered host tmpl gen start (initial ++ [event]) next := by
  constructor
  · rw [same, attemptNumbers_quiet isRun nothing]
    exact numbered.counter
  · rw [attemptNumbers_quiet isRun nothing]
    exact numbered.numbers

theorem Numbered.draws (numbered : Numbered host tmpl gen start initial run)
    (drawn : drawnBy run event = [run.driver.seq + 1])
    (advanced : next.driver.seq = run.driver.seq + 1) :
    Numbered host tmpl gen start (initial ++ [event]) next := by
  have one (count : Nat) :
      start.driver.seq + UInt32.ofNat count + 1 = start.driver.seq + UInt32.ofNat (count + 1) := by
    rw [UInt32.ofNat_add, UInt32.add_assoc]
    rfl
  have numbers :
      attemptNumbers host tmpl gen start (initial ++ [event]) =
        attemptNumbers host tmpl gen start initial ++
          [start.driver.seq + UInt32.ofNat
              ((attemptNumbers host tmpl gen start initial).length + 1)] := by
    rw [attemptNumbers_snoc isRun, drawn, numbered.counter, one]
  constructor
  · rw [advanced, numbers, numbered.counter, one, List.length_append]
    rfl
  · intro k within
    rw [numbers] at within ⊢
    rw [List.length_append, List.length_singleton] at within
    by_cases isOld : k < (attemptNumbers host tmpl gen start initial).length
    · rw [List.getElem?_append_left isOld]
      exact numbered.numbers k isOld
    · have isLast :
          k = (attemptNumbers host tmpl gen start initial).length := by
        omega
      rw [isLast, List.getElem?_append_right (Nat.le_refl _), Nat.sub_self]
      rfl

theorem FinalAt.unchanged (final : FinalAt host tmpl gen start initial run)
    (nothing : drawnBy run event = []) (isNext : masterNext host tmpl gen run event = next)
    (phase : tokenPhase next.driver.pc = tokenPhase run.driver.pc)
    (vars : next.driver.tokenVars = run.driver.tokenVars) :
    FinalAt host tmpl gen start (initial ++ [event]) next := by
  have sameSeq := congrArg TokenVars.seq vars
  have sameFinalSeq := congrArg TokenVars.finalSeq vars
  have sameFlag := congrArg TokenVars.haveFinal vars
  have sameX := congrArg TokenVars.finalX vars
  dsimp only [Driver.tokenVars] at sameSeq sameFinalSeq sameFlag sameX
  rw [FinalAt] at final ⊢
  rw [phase]
  cases here : tokenPhase run.driver.pc with
  | sending frame =>
    rw [here] at final
    exact sameFlag.trans final
  | waiting frame =>
    rw [here] at final phase
    obtain ⟨inFlight, drawn, taken⟩ := final
    dsimp only
    rw [attemptNumbers_quiet isRun nothing, sameSeq, sameFinalSeq, sameFlag, sameX]
    refine ⟨inFlight, drawn, fun raised => ?_⟩
    apply (taken raised).extend
    rw [masterAfter_snoc isRun, isNext]
    exact phase
  | outside | between | ended => trivial

theorem TakesFinal.takenInCall (loaded : gen.dim > 0) {tick : Tick}
    {frame : TokenFrame} {waited : Nat} {received : Received} {hop : InferHop}
    {x : Activation} (ok : FinalInvariant host tmpl gen start initial run)
    (taken : TakesFinal run.plan gen run.driver received hop x)
    (atPc : run.driver.pc = .pump (.token frame waited))
    (stays : tokenPhase (masterAfter host tmpl gen start
            (initial ++ [MasterEvent.driver (.run tick)])).driver.pc =
        .waiting frame) :
    TakenInCall host tmpl gen start (initial ++ [MasterEvent.driver (.run tick)]) frame x := by
  have final := ok.final
  rw [FinalAt, atPc] at final
  obtain ⟨inFlight, drawn, -⟩ := final
  obtain ⟨msg, isMsg, isCall, isHop, decoded⟩ := taken.carries
  obtain ⟨tail, isTail, isSource⟩ := taken.source
  obtain ⟨isActive, closes⟩ := masterRingTail_some isTail
  obtain ⟨rightDim, rightSession⟩ := inferDecodeHop_some decoded
  have floats : hop.nFloats = gen.dim := rightDim loaded
  refine ⟨initial, tick, [], received, hop, rfl, ?_, ?_, ?_⟩
  · rw [isRun]
    refine ⟨⟨waited, atPc⟩, taken.delivered,
      ⟨msg, isMsg, isCall, isHop, decoded⟩, rightSession ok.session,
      taken.final, ⟨floats, ?_⟩, ⟨tail, isActive, closes, isSource⟩⟩
    rw [(inferDecodeHop_canonical decoded).1.length, floats]
  · rw [taken.sameSeq, inFlight]
    exact ok.numbered.getLast drawn
  · intro middle isPrefix
    rw [List.prefix_nil.mp isPrefix]
    exact stays

theorem FinalAt.stays (loaded : gen.dim > 0) {tick : Tick}
    (ok : FinalInvariant host tmpl gen start initial run) {caller : PumpCaller}
    (atPc : run.driver.pc = .pump caller)
    (isNext : masterNext host tmpl gen run (.driver (.run tick)) = next)
    (phase : tokenPhase next.driver.pc = tokenPhase run.driver.pc)
    (sameSeq : next.driver.seq = run.driver.seq)
    (sameFinalSeq : next.driver.finalSeq = run.driver.finalSeq) :
    FinalAt host tmpl gen start (initial ++ [MasterEvent.driver (.run tick)]) next := by
  have final := ok.final
  have nothing : drawnBy run (.driver (.run tick)) = [] :=
    drawnBy_of_not_sending (not_tokenSend atPc rfl) _
  cases caller with
  | readiness =>
    apply finalAt_of_noFrame
    rw [phase, atPc]
    rfl
  | token frame waited =>
    rw [FinalAt, atPc] at final
    rw [FinalAt, phase, atPc]
    obtain ⟨inFlight, drawn, taken⟩ := final
    have waiting :
        tokenPhase
            (masterAfter host tmpl gen start
              (initial ++ [MasterEvent.driver (.run tick)])).driver.pc =
          .waiting frame := by
      rw [masterAfter_snoc isRun, isNext, phase, atPc]
      rfl
    refine ⟨?_, ?_, fun raised => ?_⟩
    · rw [sameSeq, sameFinalSeq]
      exact inFlight
    · rw [attemptNumbers_quiet isRun nothing]
      exact drawn
    · rw [← isNext] at raised ⊢
      rcases driverRun_takesFinal raised with ⟨wasRaised, sameX⟩ | ⟨received, hop, accepted⟩
      · have isX : (masterNext host tmpl gen run
            (.driver (.run tick))).driver.finalX = run.driver.finalX :=
          sameX
        rw [isX]
        exact (taken wasRaised).extend waiting
      · exact accepted.takenInCall isRun loaded ok atPc waiting

theorem FinalInvariant.arrive (ok : FinalInvariant host tmpl gen start initial run)
    (received : Received) :
    FinalInvariant host tmpl gen start (initial ++ [MasterEvent.driver (.arrive received)])
      (masterNext host tmpl gen run (.driver (.arrive received))) :=
  ⟨ok.fits, ok.session, ok.numbered.quiet isRun rfl rfl, ok.final.unchanged isRun rfl rfl rfl rfl⟩

theorem FinalInvariant.restart (ok : FinalInvariant host tmpl gen start initial run)
    (drawn : Option UInt32) (now : UInt32) :
    FinalInvariant host tmpl gen start (initial ++ [MasterEvent.restart drawn now])
      (masterNext host tmpl gen run (.restart drawn now)) := by
  by_cases failed : run.driver.pc = .finished (-1) ∧ run.restarts < maxRestarts
  · rw [masterNext, if_pos failed, MasterRun.restart]
    cases outcome : startSession host run.driver tmpl drawn now with
    | none => exact ⟨trivial, ok.session, ok.numbered.quiet isRun rfl rfl, finalAt_of_noFrame rfl _⟩
    | some session =>
      obtain ⟨plan, driver⟩ := session
      obtain ⟨nonzero, sameSeq, todo, atPc⟩ := startSession_keeps outcome
      refine ⟨?_, nonzero, ok.numbered.quiet isRun rfl sameSeq, finalAt_of_noFrame ?_ _⟩
      · dsimp only
        rw [atPc]
        exact callFits_setup_none todo
      · dsimp only
        rw [atPc]
        rfl
  · have stays : masterNext host tmpl gen run (.restart drawn now) = run :=
      if_neg failed
    rw [stays]
    exact ⟨ok.fits, ok.session, ok.numbered.quiet isRun rfl rfl,
      ok.final.unchanged isRun rfl stays rfl rfl⟩

omit isRun in
theorem drawnBy_sending {frame : TokenFrame}
    (atPc : run.driver.pc = .tokenSend frame) (tick : Tick) :
    drawnBy run (.driver (.run tick)) =
      if frame.attempt ≤ inferMaxRetries then [run.driver.seq + 1]
      else [] := by
  simp only [drawnBy, atPc]

theorem FinalInvariant.runs (loaded : gen.dim > 0)
    (ok : FinalInvariant host tmpl gen start initial run) (tick : Tick) :
    FinalInvariant host tmpl gen start (initial ++ [MasterEvent.driver (.run tick)])
      (masterNext host tmpl gen run (.driver (.run tick))) := by
  have fits : CallFits (masterNext host tmpl gen run (.driver (.run tick))).driver.pc :=
    driverRun_callFits ok.fits
  have session : (masterNext host tmpl gen run (.driver (.run tick))).plan.session ≠ 0 := ok.session
  have move :
      TokenMove run.plan gen run.driver
        (masterNext host tmpl gen run (.driver (.run tick))).driver :=
    driverRun_tokenMove ok.fits
  generalize isNext : masterNext host tmpl gen run (.driver (.run tick)) = next
    at fits session move ⊢
  -- A step that makes no attempt leaves the counter alone.
  have quiet (notSending : ∀ frame, run.driver.pc ≠ .tokenSend frame)
      (sameSeq : next.driver.tokenVars.seq = run.driver.seq) :=
    ok.numbered.quiet isRun (drawnBy_of_not_sending notSending (.driver (.run tick))) sameSeq
  cases move with
  | rests _ notSending phase vars =>
    refine ⟨fits, session, quiet notSending (by rw [vars]; rfl), ?_⟩
    exact ok.final.unchanged isRun (drawnBy_of_not_sending notSending _) isNext phase vars
  | enters _ isOutside noFrame vars =>
    have notSending : ∀ frame, run.driver.pc ≠ .tokenSend frame := by
      intro frame atPc
      rw [atPc] at isOutside
      cases isOutside
    exact ⟨fits, session, quiet notSending (by rw [vars]; rfl), finalAt_of_noFrame noFrame _⟩
  | begins pos token _ atPc within phase vars =>
    refine ⟨fits, session, quiet (not_tokenSend atPc rfl) (by rw [vars]; rfl), ?_⟩
    rw [FinalAt, phase]
    exact congrArg TokenVars.haveFinal vars
  | completes pos token _ atPc done phase vars
  | advances frame waited _ atPc accepted goesOn phase vars
  | stops frame waited _ atPc accepted isEnd phase vars =>
    exact ⟨fits, session, quiet (not_tokenSend atPc rfl) (by rw [vars]; rfl),
      finalAt_of_noFrame (by rw [phase]; rfl) _⟩
  | sends frame _ atPc within phase vars =>
    have final := ok.final
    rw [FinalAt, atPc] at final
    have drawn := drawnBy_sending atPc tick
    rw [if_pos within] at drawn
    have newSeq := congrArg TokenVars.seq vars
    have newFinalSeq := congrArg TokenVars.finalSeq vars
    have sameFlag := congrArg TokenVars.haveFinal vars
    dsimp only [Driver.tokenVars] at newSeq newFinalSeq sameFlag
    refine ⟨fits, session, ok.numbered.draws isRun drawn newSeq, ?_⟩
    rw [FinalAt, phase]
    refine ⟨newFinalSeq.trans newSeq.symm, ?_, fun raised => ?_⟩
    · rw [attemptNumbers_snoc isRun, drawn, List.length_append]
      exact Nat.succ_pos _
    · rw [sameFlag] at raised
      exact absurd (raised.symm.trans final) Bool.true_eq_false.mp
  | givesUp frame _ atPc exhausted phase vars =>
    have drawn := drawnBy_sending atPc tick
    rw [if_neg exhausted] at drawn
    exact ⟨fits, session,
      ok.numbered.quiet isRun drawn (congrArg TokenVars.seq vars),
      finalAt_of_noFrame (by rw [phase]; rfl) _⟩
  | accepts caller received rest staging _ atPc isQueue accepted phase vars =>
    refine ⟨fits, session, quiet (not_tokenSend atPc rfl) (by rw [vars]; rfl), ?_⟩
    exact FinalAt.stays isRun loaded ok atPc isNext phase
      (congrArg TokenVars.seq vars) (congrArg TokenVars.finalSeq vars)
  | retries frame waited _ atPc noFinal phase vars =>
    refine ⟨fits, session, quiet (not_tokenSend atPc rfl) (by rw [vars]; rfl), ?_⟩
    rw [FinalAt, phase]
    exact (congrArg TokenVars.haveFinal vars).trans noFinal

omit isRun in
theorem finalInvariant_run (loaded : gen.dim > 0) (ok : FinalInvariant host tmpl gen start [] start)
    (events : List MasterEvent) :
    FinalInvariant host tmpl gen start events (masterAfter host tmpl gen start events) := by
  induction events using List.reverseRecOn with
  | nil => exact ok
  | append_singleton initial event ih =>
    rw [masterAfter_snoc rfl]
    cases event with
    | restart drawn now => exact ih.restart rfl drawn now
    | driver event =>
      cases event with
      | arrive received => exact ih.arrive rfl received
      | run tick => exact ih.runs rfl loaded tick

end Runs

theorem finalInvariant_start {host : RpcAddr} {before driver : Driver} {tmpl : AssignLayers}
    {drawn : Option UInt32} {begun : UInt32} {plan : SessionPlan}
    (started : startSession host before tmpl drawn begun = some (plan, driver)) (gen : Generation) :
    FinalInvariant host tmpl gen ⟨plan, driver, 0⟩ [] ⟨plan, driver, 0⟩ := by
  obtain ⟨nonzero, -, todo, atPc⟩ := startSession_keeps started
  refine ⟨?_, nonzero, ⟨?_, ?_⟩, finalAt_of_noFrame ?_ _⟩
  · dsimp only
    rw [atPc]
    exact callFits_setup_none todo
  · exact (UInt32.add_zero _).symm
  · intro k within
    exact absurd within (Nat.not_lt_zero k)
  · dsimp only
    rw [atPc]
    rfl

/-- Two attempts share a number only if a multiple of `2 ^ 32` attempts lies
between them. -/
theorem Numbered.same_number {host : RpcAddr} {tmpl : AssignLayers}
    {gen : Generation} {start run : MasterRun} {events : List MasterEvent}
    (numbered : Numbered host tmpl gen start events run) {k : Nat}
    (earlier : k + 1 < (attemptNumbers host tmpl gen start events).length)
    (same : (attemptNumbers host tmpl gen start events)[k]? = some run.driver.seq) :
    2 ^ 32 ∣ (attemptNumbers host tmpl gen start events).length - (k + 1) := by
  rw [numbered.numbers k (by omega), numbered.counter] at same
  have equal := congrArg UInt32.toNat (Option.some.inj same)
  rw [UInt32.toNat_add, UInt32.toNat_add, UInt32.toNat_ofNat', UInt32.toNat_ofNat'] at equal
  omega

/-- When `master_run_token` returns 0, `g_final_x` is the activation of a final
that was taken from the socket during this call, for the attempt in flight, of
the session, from the worker that closes the ring; no attempt made before, in
this or an earlier session, has the number it carries, short of the counter
going all the way round. -/
theorem returned_activation_of_attempt {host : RpcAddr} {before driver : Driver}
    {tmpl : AssignLayers} {drawn : Option UInt32} {begun : UInt32} {plan : SessionPlan}
    (started : startSession host before tmpl drawn begun = some (plan, driver)) {gen : Generation}
    (loaded : gen.dim > 0) (events : List MasterEvent) {frame : TokenFrame} {waited : Nat}
    (returns : (masterAfter host tmpl gen ⟨plan, driver, 0⟩ events).driver.pc =
        .tokenTest frame waited)
    (accepted : (masterAfter host tmpl gen ⟨plan, driver, 0⟩ events).driver.haveFinal = true) :
    ∃ earlier tick later received hop,
      events = earlier ++ .driver (.run tick) :: later ∧
        RightFinal gen (masterAfter host tmpl gen ⟨plan, driver, 0⟩ earlier)
          frame received hop
          (masterAfter host tmpl gen ⟨plan, driver, 0⟩ events).driver.finalX ∧
        (∀ middle, middle <+: later →
          tokenPhase
              (masterAfter host tmpl gen ⟨plan, driver, 0⟩
                (earlier ++ .driver (.run tick) :: middle)).driver.pc =
            .waiting frame) ∧
        (attemptNumbers host tmpl gen ⟨plan, driver, 0⟩ earlier).getLast? = some hop.seq ∧
        ∀ k,
          k + 1 < (attemptNumbers host tmpl gen ⟨plan, driver, 0⟩ earlier).length →
            (attemptNumbers host tmpl gen ⟨plan, driver, 0⟩ earlier)[k]? = some hop.seq →
              2 ^ 32 ∣
                (attemptNumbers host tmpl gen ⟨plan, driver, 0⟩ earlier).length - (k + 1) := by
  have ok := finalInvariant_start started gen
  have final := (finalInvariant_run loaded ok events).final
  rw [FinalAt, returns] at final
  obtain ⟨earlier, tick, later, received, hop, split, right, inFlight,
    waiting⟩ := final.2.2 accepted
  refine ⟨earlier, tick, later, received, hop, split, right, waiting, inFlight, ?_⟩
  intro k isEarlier same
  have numbered := (finalInvariant_run loaded ok earlier).numbered
  have last := numbered.getLast (by omega)
  rw [last] at inFlight
  rw [← Option.some.inj inFlight] at same
  exact numbered.same_number isEarlier same

/-- Worker 1 of two, which closes the ring, sends a final. -/
def finalArrives (seq : UInt32) (x : Activation) : DriverEvent :=
  .arrive
    (some (rpcFillCall 3 procInferReq
      (inferPayload ⟨1, seq, 0, 2, 1, inferFlagFinal, 0⟩ x)), ringAddr 1)

/-- The first token: a final of another attempt is taken first and dropped,
the one for attempt 1 ends the call. -/
def lateFinalRun : List MasterEvent :=
  (patientRun ++ [.run quietTick, .run quietTick, .run quietTick,
      finalArrives 9 [0x40000000], finalArrives 1 [0x3f800000],
      .run quietTick, .run quietTick, .run quietTick, .run quietTick,
      .run quietTick]).map MasterEvent.driver

/-- The frame in which the thread is about to look at `g_have_final`. -/
def testedFrame : DriverPc → Option TokenFrame
  | .tokenTest frame _ => some frame
  | _ => none

theorem tokenTest_of_testedFrame {pc : DriverPc} (tested : testedFrame pc ≠ none) :
    ∃ frame waited, pc = .tokenTest frame waited := by
  cases pc with
  | tokenTest frame waited => exact ⟨frame, waited, rfl⟩
  | _ => exact absurd rfl tested

theorem returned_activation_of_attempt_lateFinalRun :
    ∃ session ∈ ringSession 2,
      ∃ earlier tick later frame received hop,
        lateFinalRun = earlier ++ .driver (.run tick) :: later ∧
          RightFinal ringGeneration
            (masterAfter ringMaster (ringTemplate (UInt32.ofNat 2))
              ringGeneration ⟨session.1, session.2, 0⟩ earlier)
            frame received hop [0x3f800000] := by
  cases started : ringSession 2 with
  | none => exact absurd started (by decide +kernel)
  | some session =>
    have reached :
        ∀ session ∈ ringSession 2,
          testedFrame
              (masterAfter ringMaster (ringTemplate (UInt32.ofNat 2))
                ringGeneration ⟨session.1, session.2, 0⟩
                lateFinalRun).driver.pc ≠ none ∧
            (masterAfter ringMaster (ringTemplate (UInt32.ofNat 2))
              ringGeneration ⟨session.1, session.2, 0⟩
              lateFinalRun).driver.haveFinal = true ∧
            (masterAfter ringMaster (ringTemplate (UInt32.ofNat 2))
              ringGeneration ⟨session.1, session.2, 0⟩
              lateFinalRun).driver.finalX = [0x3f800000] := by
      decide +kernel
    obtain ⟨atTest, accepted, isX⟩ := reached session started
    obtain ⟨frame, waited, atPc⟩ := tokenTest_of_testedFrame atTest
    obtain ⟨earlier, tick, later, received, hop, split, right, -⟩ :=
      returned_activation_of_attempt started
        (by decide : ringGeneration.dim > 0) lateFinalRun atPc accepted
    rw [isX] at right
    exact ⟨session, rfl, earlier, tick, later, frame, received, hop, split, right⟩

end LlmRuntime.DistInf
