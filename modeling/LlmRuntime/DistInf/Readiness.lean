import LlmRuntime.Library.Execution
import LlmRuntime.DistInf.DriverSteps

/-!
# Which readiness reports are counted

While a session is being set up one socket has two readers.  `master_pump` hands
a `SHARD_READY` call to its handler; `rpc_call`, waiting for a reply, drops it.
-/

namespace LlmRuntime.DistInf

open Discovery Execution

def livePayload (session : UInt32) (payload : List UInt8) : Bool :=
  ShardReady.size ≤ payload.length ∧
    (ShardReady.decode payload).sessionId = session ∧
    (ShardReady.decode payload).status = 0

/-- A datagram in the socket that reports a shard of `session` as resident. -/
def liveReport (session : UInt32) (received : Received) : Bool :=
  match received.1 with
  | none => false
  | some msg => msg.mtype = .call ∧ msg.proc = procShardReady ∧ livePayload session msg.payload

def reportId (received : Received) : UInt32 :=
  match received.1 with
  | none => 0
  | some msg => (ShardReady.decode msg.payload).workerId

def liveReports (session : UInt32) (received : List Received) : Nat :=
  received.countP (liveReport session)

/-- The datagrams that the events bring to the socket. -/
def arrivals (events : List DriverEvent) : List Received :=
  events.filterMap fun event =>
    match event with
    | .arrive received => some received
    | .run _ => none

/-- The datagram that a call in progress takes out of the socket. -/
def takenByCall (driver : Driver) : DriverEvent → Option Received
  | .arrive _ => none
  | .run _ =>
    match driver.pc with
    | .setup _ (some call) => rpcCallTakes call driver.queue
    | .pumpCall _ call _ => rpcCallTakes call driver.queue
    | _ => none

/-- No `rpc_call` swallows a live report in this step. -/
def keepsReports (session : UInt32) (driver : Driver) (event : DriverEvent) : Prop :=
  ∀ received ∈ (takenByCall driver event).toList, liveReport session received = false

instance (session : UInt32) (driver : Driver) (event : DriverEvent) :
    Decidable (keepsReports session driver event) := inferInstanceAs (Decidable (∀ _ ∈ _, _))

/-- `g_ready_count` is still to be reset. -/
def resetPending : DriverPc → Bool
  | .setup todo _ => SetupOp.reset ∈ todo
  | _ => false

def countedReports (driver : Driver) : Nat :=
  if resetPending driver.pc then 0 else driver.readyCount

variable {driver later : Driver} {received : Received} {plan : SessionPlan}
  {gen : Generation} {tick : Tick}

theorem countedReports_of_reset (pending : resetPending driver.pc = true) :
    countedReports driver = 0 :=
  if_pos pending

theorem countedReports_of_not_reset (done : resetPending driver.pc = false) :
    countedReports driver = driver.readyCount := by
  rw [countedReports, done]
  rfl

theorem countedReports_congr (samePc : resetPending later.pc = resetPending driver.pc)
    (sameCount : later.readyCount = driver.readyCount) :
    countedReports later = countedReports driver := by
  rw [countedReports, countedReports, samePc, sameCount]

@[simp]
theorem liveReports_append (session : UInt32) (received more : List Received) :
    liveReports session (received ++ more) =
      liveReports session received + liveReports session more := List.countP_append

@[simp]
theorem liveReports_nil (session : UInt32) : liveReports session [] = 0 := rfl

theorem liveReports_cons (session : UInt32) (received : Received) (rest : List Received) :
    liveReports session (received :: rest) =
      liveReports session [received] + liveReports session rest :=
  liveReports_append session [received] rest

theorem liveReports_singleton (session : UInt32) (received : Received) :
    liveReports session [received] =
      if liveReport session received then 1 else 0 := by
  rw [liveReports, List.countP_singleton]

theorem liveReport_of_msg (session : UInt32) {msg : RpcMsg} (isMsg : received.1 = some msg)
    (isCall : msg.mtype = .call) (isReport : msg.proc = procShardReady) :
    liveReport session received = livePayload session msg.payload := by
  rw [liveReport, isMsg]
  simp [isCall, isReport]

theorem liveReport_of_no_call (session : UInt32)
    (noCall : ∀ msg, received.1 = some msg → msg.mtype ≠ .call) :
    liveReport session received = false := by
  cases isMsg : received.1 with
  | none => rw [liveReport, isMsg]
  | some msg =>
    rw [liveReport, isMsg]
    simp [noCall msg isMsg]

theorem liveReport_of_other (session : UInt32) {msg : RpcMsg}
    (isMsg : received.1 = some msg) (notReport : msg.proc ≠ procShardReady) :
    liveReport session received = false := by
  rw [liveReport, isMsg]
  simp [notReport]

theorem masterHandleShardReady_counts (session : UInt32) (driver : Driver) (payload : List UInt8) :
    (masterHandleShardReady session driver payload).readyCount =
        driver.readyCount + (if livePayload session payload then 1 else 0) ∧
      (masterHandleShardReady session driver payload).counted =
        driver.counted ++
          if livePayload session payload then [(ShardReady.decode payload).workerId]
          else [] := by
  unfold masterHandleShardReady livePayload
  by_cases short : payload.length < ShardReady.size
  · have notLong : ¬ ShardReady.size ≤ payload.length := by omega
    simp [short, notLong]
  · have long : ShardReady.size ≤ payload.length := by omega
    dsimp only
    split_ifs with otherSession failed live live live <;> simp_all

theorem Dispatched.counts {caller : PumpCaller}
    (dispatched : Dispatched plan gen driver caller received tick later) :
    later.readyCount = driver.readyCount + (if liveReport plan.session received then 1 else 0) ∧
      later.counted =
        driver.counted ++
          if liveReport plan.session received then [reportId received]
          else [] := by
  have nothing : driver.counted = driver.counted ++ [] := (List.append_nil _).symm
  cases dispatched with
  | ignored noCall =>
    rw [liveReport_of_no_call plan.session noCall]
    exact ⟨rfl, nothing⟩
  | report msg isMsg isCall isReport =>
    rw [liveReport_of_msg plan.session isMsg isCall isReport, reportId, isMsg]
    exact masterHandleShardReady_counts _ _ _
  | final msg isMsg isCall isHop =>
    have notReport : msg.proc ≠ procShardReady := by
      rw [isHop]
      decide
    obtain ⟨_, _, stored⟩ := masterHandleFinal_frame plan gen driver msg.payload received.2
    rw [liveReport_of_other plan.session isMsg notReport, stored]
    exact ⟨rfl, nothing⟩
  | discovery msg isMsg notReport notHop nextXid pc goesOn =>
    rw [liveReport_of_other plan.session isMsg notReport]
    exact ⟨rfl, nothing⟩

/-- The setup with what is left of it, the wait for the shards, the loop over
the tokens, and the end. -/
inductive Part where
  | setup (todo : List SetupOp)
  | wait
  | tokens
  | ended

def PumpCaller.part : PumpCaller → Part
  | .readiness => .wait
  | .token _ _ => .tokens

def partOf : DriverPc → Part
  | .setup todo _ => .setup todo
  | .readiness => .wait
  | .pump caller => caller.part
  | .pumpCall caller _ _ => caller.part
  | .pumpExpire caller => caller.part
  | .tokenLoop _ _ => .tokens
  | .tokenSend _ => .tokens
  | .tokenTest _ _ => .tokens
  | .finished _ => .ended

def todoOf : DriverPc → List SetupOp
  | .setup todo _ => todo
  | _ => []

def Part.todo : Part → List SetupOp
  | .setup todo => todo
  | _ => []

theorem todoOf_eq_part (pc : DriverPc) : todoOf pc = (partOf pc).todo := by
  cases pc with
  | pump caller | pumpCall caller call replies | pumpExpire caller => cases caller <;> rfl
  | setup | readiness | tokenLoop | tokenSend | tokenTest | finished => rfl

theorem resetPending_iff_part (pc : DriverPc) :
    resetPending pc = true ↔ SetupOp.reset ∈ (partOf pc).todo := by
  rw [← todoOf_eq_part]
  cases pc with
  | setup todo call => exact decide_eq_true_iff
  | _ => exact iff_of_false Bool.false_ne_true List.not_mem_nil

theorem Dispatched.part {caller : PumpCaller}
    (dispatched : Dispatched plan gen driver caller received tick later) :
    partOf later.pc = caller.part := by
  cases dispatched with
  | ignored | report | final => rfl
  | discovery msg isMsg notReport notHop nextXid pc goesOn =>
    rcases goesOn.2 with isExpire | isCall
    · rw [isExpire]
      rfl
    · obtain ⟨call, replies, isPc⟩ := isCall
      rw [isPc]
      rfl

section Moves

variable (plan : SessionPlan) (gen : Generation) (driver : Driver)
variable (tick : Tick) (later : Driver)

/-- Nothing is counted, and only a call takes something from the socket. -/
structure Passes : Prop where
  readyCount : later.readyCount = driver.readyCount
  counted : later.counted = driver.counted
  queue : (takenByCall driver (.run tick)).toList ++ later.queue = driver.queue

/-- What a step of the thread can do to the setup and to the wait. -/
inductive SessionMove : Prop
  | rests
      (same : partOf later.pc = partOf driver.pc)
      (passes : Passes driver tick later)
  | ends
      (result : Int) (isEnd : later.pc = .finished result)
      (passes : Passes driver tick later)
  | finishes
      (op : SetupOp) (rest : List SetupOp)
      (before : partOf driver.pc = .setup (op :: rest))
      (notReset : op ≠ .reset) (goesTo : partOf later.pc = .setup rest)
      (passes : Passes driver tick later)
  | resets
      (rest : List SetupOp)
      (before : partOf driver.pc = .setup (.reset :: rest))
      (goesTo : partOf later.pc = .setup rest)
      (noCount : later.readyCount = 0) (noneCounted : later.counted = [])
      (queue : (takenByCall driver (.run tick)).toList ++ later.queue = driver.queue)
  | waits
      (before : partOf driver.pc = .setup [])
      (goesTo : partOf later.pc = .wait)
      (passes : Passes driver tick later)
  | leaves
      (before : partOf driver.pc = .wait)
      (goesTo : partOf later.pc = .tokens)
      (enough : plan.slots.length ≤ driver.readyCount)
      (passes : Passes driver tick later)
  | takes
      (caller : PumpCaller) (received : Received) (rest : List Received)
      (atPc : driver.pc = .pump caller)
      (isQueue : driver.queue = received :: rest)
      (dispatched : Dispatched plan gen { driver with queue := rest } caller received tick later)

variable {plan gen driver tick later}

theorem Passes.of_same (noCall : takenByCall driver (.run tick) = none)
    (readyCount : later.readyCount = driver.readyCount) (counted : later.counted = driver.counted)
    (queue : later.queue = driver.queue) : Passes driver tick later := by
  refine ⟨readyCount, counted, ?_⟩
  rw [noCall, queue]
  rfl

theorem Passes.of_call {call : RpcCall} {src : RpcAddr}
    (isCall : takenByCall driver (.run tick) = rpcCallTakes call driver.queue)
    (readyCount : later.readyCount = driver.readyCount) (counted : later.counted = driver.counted)
    (queue : later.queue = (rpcCallStep src call driver.queue tick.timedOut
          tick.sendFails).2.1) : Passes driver tick later := by
  refine ⟨readyCount, counted, ?_⟩
  rw [isCall, queue]
  exact (rpcCallStep_queue src call driver.queue tick.timedOut tick.sendFails).symm

theorem setupNext_sessionMove {todo : List SetupOp} (pc : driver.pc = .setup todo none) :
    SessionMove plan gen driver tick (setupNext driver tick.now todo) := by
  have noCall : takenByCall driver (.run tick) = none := by rw [takenByCall, pc]
  have before : partOf driver.pc = .setup todo := by
    rw [pc]
    rfl
  cases todo with
  | nil => exact .waits before rfl (.of_same noCall rfl rfl rfl)
  | cons op rest =>
    cases op with
    | reset =>
      refine .resets rest before rfl rfl rfl ?_
      rw [noCall]
      rfl
    | refuse => exact .ends _ rfl (.of_same noCall rfl rfl rfl)
    | notify | assign => exact .rests before.symm (.of_same noCall rfl rfl rfl)

theorem afterReadiness_sessionMove (pc : driver.pc = .readiness) :
    SessionMove plan gen driver tick { driver with pc := afterReadiness plan gen driver } := by
  have passes (later : DriverPc) : Passes driver tick { driver with pc := later } :=
    .of_same (by rw [takenByCall, pc]) rfl rfl rfl
  rw [afterReadiness]
  split_ifs with failed tooFew
  · exact .ends _ rfl (passes _)
  · exact .ends _ rfl (passes _)
  · exact .leaves (by rw [pc]; rfl) rfl (not_lt.mp tooFew) (passes _)

theorem driverRun_sessionMove (fits : CallFits driver.pc) :
    SessionMove plan gen driver tick (driverRun plan gen driver tick).1 := by
  have step := driverRun_step plan gen driver tick
  generalize (driverRun plan gen driver tick).2 = datagrams at step
  generalize (driverRun plan gen driver tick).1 = later at step ⊢
  cases step with
  | setup todo atPc => exact setupNext_sessionMove atPc
  | setupPending todo call later queue sent atPc goesOn =>
    exact .rests (congrArg partOf atPc).symm
      (.of_call (by rw [takenByCall, atPc]) rfl rfl (by rw [goesOn]))
  | setupReturned todo call result queue sent atPc returned =>
    have passes (pc : DriverPc) : Passes driver tick { driver with queue := queue, pc := pc } :=
      .of_call (by rw [takenByCall, atPc]) rfl rfl (by rw [returned])
    rw [atPc] at fits
    rcases setupReturn_cases fits result with isEnd | ⟨op, rest, isTodo, notReset, isReturn⟩
    · exact .ends _ isEnd (passes _)
    · rw [isTodo] at atPc
      exact .finishes op rest (congrArg partOf atPc) notReset (congrArg partOf isReturn) (passes _)
  | ready atPc => exact afterReadiness_sessionMove atPc
  | takes caller received rest atPc isQueue =>
    exact .takes caller received rest atPc isQueue
      (pumpDispatch_dispatched plan gen _ caller received tick)
  | callPending caller call later replies queue sent atPc outcome
  | callReturned caller call result replies queue sent atPc outcome =>
    exact .rests (congrArg partOf atPc).symm
      (.of_call (by rw [takenByCall, atPc]) rfl rfl (by rw [outcome]))
  | expires caller atPc =>
    refine .rests ?_ (.of_same (by rw [takenByCall, atPc]) rfl rfl rfl)
    rw [atPc]
    cases caller <;> rfl
  | completes _ _ atPc | givesUp _ atPc | stops _ _ atPc =>
    exact .ends _ rfl (.of_same (by rw [takenByCall, atPc]) rfl rfl rfl)
  | waits atPc | blocks _ atPc | timesOut _ atPc | begins _ _ atPc
  | sends _ atPc | advances _ _ atPc | pumpsAgain _ _ atPc
  | retries _ _ atPc =>
    exact .rests (congrArg partOf atPc).symm (.of_same (by rw [takenByCall, atPc]) rfl rfl rfl)
  | finished result atPc => exact .rests rfl (.of_same (by rw [takenByCall, atPc]) rfl rfl rfl)

theorem driverRun_todo (fits : CallFits driver.pc) :
    ∀ op ∈ todoOf (driverRun plan gen driver tick).1.pc, op ∈ todoOf driver.pc := by
  intro op
  rw [todoOf_eq_part, todoOf_eq_part]
  cases @driverRun_sessionMove plan gen driver tick fits with
  | rests same passes =>
    rw [same]
    exact id
  | ends result isEnd passes =>
    rw [isEnd]
    exact List.not_mem_nil.elim
  | finishes first rest before notReset goesTo passes =>
    rw [before, goesTo]
    exact List.mem_cons_of_mem _
  | resets rest before goesTo noCount noneCounted queue =>
    rw [before, goesTo]
    exact List.mem_cons_of_mem _
  | waits before goesTo passes =>
    rw [before, goesTo]
    exact id
  | leaves before goesTo enough passes =>
    rw [before, goesTo]
    exact id
  | takes caller received rest atPc isQueue dispatched =>
    rw [dispatched.part, atPc]
    exact id

theorem driverRun_queue (fits : CallFits driver.pc) :
    ∀ received ∈ (driverRun plan gen driver tick).1.queue, received ∈ driver.queue := by
  intro received isQueued
  cases @driverRun_sessionMove plan gen driver tick fits with
  | rests same passes | ends result isEnd passes
  | finishes op rest before notReset goesTo passes
  | waits before goesTo passes | leaves before goesTo enough passes =>
    rw [← passes.queue]
    exact List.mem_append_right _ isQueued
  | resets rest before goesTo noCount noneCounted queue =>
    rw [← queue]
    exact List.mem_append_right _ isQueued
  | takes caller first rest atPc isQueue dispatched =>
    rw [dispatched.queue] at isQueued
    rw [isQueue]
    exact List.mem_cons_of_mem _ isQueued

end Moves

/-! ## The reports of a state -/

/-- Where the reports of a state are: counted, or in the socket. -/
def accountedReports (session : UInt32) (driver : Driver) : Nat :=
  countedReports driver + liveReports session driver.queue

theorem Passes.accountedReports {session : UInt32} (passes : Passes driver tick later)
    (sameReset : SetupOp.reset ∈ (partOf later.pc).todo ↔ SetupOp.reset ∈ (partOf driver.pc).todo) :
    accountedReports session later +
        liveReports session (takenByCall driver (.run tick)).toList =
      accountedReports session driver := by
  have total := congrArg (liveReports session) passes.queue
  rw [liveReports_append] at total
  rw [← resetPending_iff_part, ← resetPending_iff_part, ← Bool.eq_iff_iff] at sameReset
  have sameCounted := countedReports_congr sameReset passes.readyCount
  unfold DistInf.accountedReports
  omega

/-- The thread neither makes nor loses a report, except that a call drops what
it takes. -/
theorem driverRun_accountedReports (fits : CallFits driver.pc)
    (going : ∀ result, (driverRun plan gen driver tick).1.pc ≠ .finished result) :
    accountedReports plan.session (driverRun plan gen driver tick).1 +
        liveReports plan.session (takenByCall driver (.run tick)).toList =
      accountedReports plan.session driver := by
  cases @driverRun_sessionMove plan gen driver tick fits with
  | rests same passes =>
    apply passes.accountedReports
    rw [same]
  | ends result isEnd passes => exact absurd isEnd (going result)
  | finishes op rest before notReset goesTo passes =>
    apply passes.accountedReports
    rw [goesTo, before]
    simp [Part.todo, notReset.symm]
  | resets rest before goesTo noCount noneCounted queue =>
    have noneBefore : countedReports driver = 0 := by
      apply countedReports_of_reset
      rw [resetPending_iff_part, before]
      exact List.mem_cons_self
    have total := congrArg (liveReports plan.session) queue
    rw [liveReports_append] at total
    rw [accountedReports, accountedReports, noneBefore, countedReports, noCount, ite_self]
    omega
  | waits before goesTo passes
  | leaves before goesTo enough passes =>
    apply passes.accountedReports
    rw [goesTo, before]
    rfl
  | takes caller received rest atPc isQueue dispatched =>
    have notPending (pc : DriverPc) (isPart : partOf pc = caller.part) :
        resetPending pc = false := by
      rw [← Bool.not_eq_true, resetPending_iff_part, isPart]
      cases caller <;> exact List.not_mem_nil
    have noCall : takenByCall driver (.run tick) = none := by rw [takenByCall, atPc]
    rw [accountedReports, accountedReports, dispatched.queue, isQueue,
      liveReports_cons plan.session received rest, noCall,
      countedReports_of_not_reset (notPending _ dispatched.part),
      countedReports_of_not_reset (notPending _ (by rw [atPc]; rfl)),
      dispatched.counts.1, ← liveReports_singleton]
    dsimp only [Option.toList_none]
    rw [liveReports_nil]
    omega

theorem driverNext_finished (plan : SessionPlan) (gen : Generation) (event : DriverEvent)
    {result : Int} (ended : driver.pc = .finished result) :
    (driverNext plan gen driver event).pc = .finished result := by
  cases event with
  | arrive received => exact ended
  | run tick =>
    change (driverRun plan gen driver tick).1.pc = .finished result
    rw [driverRun, ended]
    exact ended

/-- The live reports that calls drop in a run. -/
def droppedReports (plan : SessionPlan) (gen : Generation) :
    Driver → List DriverEvent → Nat
  | _, [] => 0
  | driver, event :: rest =>
    liveReports plan.session (takenByCall driver event).toList +
      droppedReports plan gen (driverNext plan gen driver event) rest

theorem keepsReports_iff (session : UInt32) (driver : Driver) (event : DriverEvent) :
    keepsReports session driver event ↔
      liveReports session (takenByCall driver event).toList = 0 := by
  simp only [keepsReports, liveReports, List.countP_eq_zero, Bool.not_eq_true]

theorem droppedReports_eq_zero_iff
    (plan : SessionPlan) (gen : Generation) (events : List DriverEvent) :
    ∀ driver, droppedReports plan gen driver events = 0 ↔
      Along (driverNext plan gen) (keepsReports plan.session) driver events := by
  induction events with
  | nil =>
    intro driver
    exact iff_of_true rfl trivial
  | cons event rest ih =>
    intro driver
    rw [droppedReports, Along, Nat.add_eq_zero_iff, keepsReports_iff, ih]

theorem driverNext_accountedReports (event : DriverEvent) (fits : CallFits driver.pc)
    (going : ∀ result, (driverNext plan gen driver event).pc ≠ .finished result) :
    accountedReports plan.session (driverNext plan gen driver event) +
        liveReports plan.session (takenByCall driver event).toList =
      accountedReports plan.session driver + liveReports plan.session (arrivals [event]) := by
  cases event with
  | run tick => exact driverRun_accountedReports fits going
  | arrive received =>
    have arrived :
        liveReports plan.session (driverNext plan gen driver (.arrive received)).queue =
          liveReports plan.session driver.queue + liveReports plan.session [received] :=
      liveReports_append plan.session driver.queue [received]
    have sameCounted :
        countedReports (driverNext plan gen driver (.arrive received)) = countedReports driver :=
      countedReports_congr rfl rfl
    rw [accountedReports, accountedReports, arrived, sameCounted]
    exact (Nat.add_assoc _ _ _).symm

/-- Reports are conserved in every run that does not end the session. -/
theorem reports_conserved (plan : SessionPlan) (gen : Generation) (events : List DriverEvent) :
    ∀ driver, CallFits driver.pc →
      (∀ result, (after (driverNext plan gen) driver events).pc ≠ .finished result) →
      accountedReports plan.session (after (driverNext plan gen) driver events) +
          droppedReports plan gen driver events =
        accountedReports plan.session driver + liveReports plan.session (arrivals events) := by
  induction events with
  | nil =>
    intro driver fits going
    rfl
  | cons event rest ih =>
    intro driver fits going
    rw [after_cons] at going ⊢
    have goingNow : ∀ result, (driverNext plan gen driver event).pc ≠ .finished result := by
      intro result ended
      -- a session that has ended stays so for the rest of the run
      refine going result
        (invariant_after (driverNext plan gen)
          (fun state => state.pc = .finished result) ended ?_ rest)
      intro state next ended
      exact driverNext_finished plan gen next ended
    have step := driverNext_accountedReports event fits goingNow
    have later := ih (driverNext plan gen driver event) (driverNext_callFits event fits) going
    have splitArrivals :
        liveReports plan.session (arrivals (event :: rest)) =
          liveReports plan.session (arrivals [event]) +
            liveReports plan.session (arrivals rest) := by
      rw [← liveReports_append, arrivals, arrivals, arrivals, ← List.filterMap_append]
      rfl
    rw [droppedReports]
    omega

/-- The wait for the shards is left at clock value `now`. -/
def WaitEnds (plan : SessionPlan) (driver : Driver) (now : UInt32) : Prop :=
  driver.pc = .readiness ∧ keepsWaiting plan.slots.length driver now = false

instance (plan : SessionPlan) (driver : Driver) (now : UInt32) :
    Decidable (WaitEnds plan driver now) := inferInstanceAs (Decidable (_ ∧ _))

theorem startSession_reset {self : RpcAddr} {before start : Driver}
    {tmpl : AssignLayers} {drawn : Option UInt32} {now : UInt32}
    (started : startSession self before tmpl drawn now = some (plan, start)) :
    SetupOp.reset ∈ plan.ops := by
  rw [(startSession_plan started).1]
  exact List.mem_append_right _ List.mem_cons_self

/-- When the wait ends, the counter has the number of live reports that reached
the socket exactly if no call dropped one and none was left in the socket. -/
theorem reports_all_counted_iff {self : RpcAddr} {before : Driver} {tmpl : AssignLayers}
    {drawn : Option UInt32} {begun : UInt32} {plan : SessionPlan} {start : Driver}
    (started : startSession self before tmpl drawn begun = some (plan, start)) (gen : Generation)
    (events : List DriverEvent) {now : UInt32}
    (ends : WaitEnds plan (after (driverNext plan gen) start events) now) :
    (after (driverNext plan gen) start events).readyCount =
        liveReports plan.session (start.queue ++ arrivals events) ↔
      Along (driverNext plan gen) (keepsReports plan.session) start
          events ∧
        ∀ received ∈ (after (driverNext plan gen) start events).queue,
          liveReport plan.session received = false := by
  have atSetup := (startSession_plan started).2.1
  have hasReset := startSession_reset started
  have fits : CallFits start.pc := by
    rw [atSetup]
    exact callFits_setup_none plan.ops
  have nothingCounted : countedReports start = 0 := by
    refine countedReports_of_reset ?_
    rw [atSetup]
    exact decide_eq_true hasReset
  have going : ∀ result, (after (driverNext plan gen) start events).pc ≠ .finished result := by
    intro result ended
    rw [ends.1] at ended
    cases ended
  have conserved := reports_conserved plan gen events start fits going
  have notPending : resetPending (after (driverNext plan gen) start events).pc = false := by
    rw [ends.1]
    rfl
  rw [accountedReports, accountedReports, nothingCounted,
    countedReports_of_not_reset notPending] at conserved
  rw [← droppedReports_eq_zero_iff, liveReports_append]
  have noneQueued :
      (∀ received ∈ (after (driverNext plan gen) start events).queue,
          liveReport plan.session received = false) ↔
        liveReports plan.session (after (driverNext plan gen) start events).queue = 0 := by
    simp only [liveReports, List.countP_eq_zero, Bool.not_eq_true]
  rw [noneQueued]
  omega

/-- The reply of worker `k` to a call of the master. -/
def replyArrives (k : Nat) (xid : UInt32) : DriverEvent :=
  .arrive (some (rpcReply xid .success []), ringAddr k)

/-- The report of worker `k` that its one layer is resident. -/
def reportArrives (k : Nat) : DriverEvent :=
  .arrive
    (some (rpcFillCall 1 procShardReady (ShardReady.encode
        ⟨1, ringId k, UInt32.ofNat k, UInt32.ofNat k + 1, 0⟩)),
      ringAddr k)

def callAnswered (k : Nat) (xid : UInt32) : List DriverEvent :=
  [.run quietTick, .run quietTick, replyArrives k xid, .run quietTick]

/-- The wait takes the report of worker `k`. -/
def reportPumped (k : Nat) : List DriverEvent :=
  [.run quietTick, reportArrives k, .run quietTick, .run quietTick]

/-- Both workers are notified and assigned before either reports. -/
def patientRun : List DriverEvent :=
  callAnswered 0 2 ++ callAnswered 1 4 ++ [.run quietTick] ++
    callAnswered 0 6 ++ callAnswered 1 8 ++ [.run quietTick] ++
    reportPumped 0 ++ reportPumped 1

/-- Worker 0 reports while the master waits for worker 1 to accept its
assignment. -/
def lostReportRun : List DriverEvent :=
  callAnswered 0 2 ++ callAnswered 1 4 ++ [.run quietTick] ++
    callAnswered 0 6 ++
    [.run quietTick, .run quietTick, reportArrives 0, .run quietTick,
      replyArrives 1 8, .run quietTick] ++
    [.run quietTick] ++ reportPumped 1

theorem reports_all_counted_patientRun :
    ∃ session ∈ ringSession 2,
      (after (driverNext session.1 ringGeneration) session.2
          patientRun).readyCount =
        liveReports session.1.session (session.2.queue ++ arrivals patientRun) := by
  cases started : ringSession 2 with
  | none => exact absurd started (by decide +kernel)
  | some session =>
    refine ⟨session, rfl, ?_⟩
    have conditions :
        ∀ session ∈ ringSession 2,
          WaitEnds session.1
              (after (driverNext session.1 ringGeneration) session.2 patientRun) 0 ∧
            Along (driverNext session.1 ringGeneration)
              (keepsReports session.1.session) session.2 patientRun ∧
            ∀ received ∈ (after (driverNext session.1 ringGeneration) session.2 patientRun).queue,
              liveReport session.1.session received = false := by
      decide +kernel
    obtain ⟨ends, keeps, noneQueued⟩ := conditions session started
    exact (reports_all_counted_iff started ringGeneration patientRun ends).mpr ⟨keeps, noneQueued⟩

/-- Both reports reached the socket, one was counted, and the wait ends by its
timeout. -/
theorem lostReportRun_misses_report :
    ∃ session ∈ ringSession 2,
      WaitEnds session.1
          (after (driverNext session.1 ringGeneration) session.2 lostReportRun) 12000 ∧
        (after (driverNext session.1 ringGeneration) session.2 lostReportRun).readyCount = 1 ∧
        liveReports session.1.session (session.2.queue ++ arrivals lostReportRun) = 2 := by
  decide +kernel

end LlmRuntime.DistInf
