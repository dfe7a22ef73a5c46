import LlmRuntime.DistInf.DriverSteps

/-!
# The loop over the tokens

Seen from the loop of `run_generation_session` most steps of the master are
silent.  `TokenMove` lists what a step can do to the loop.
-/

namespace LlmRuntime.DistInf

open Discovery

/-- Where the master stands in its loop: before it, between two tokens, about
to make an attempt, waiting for its result, or through. -/
inductive TokenPhase where
  | outside
  | between (pos : Nat) (token : Int)
  | sending (frame : TokenFrame)
  | waiting (frame : TokenFrame)
  | ended (result : Int)

def tokenPhase : DriverPc → TokenPhase
  | .pump (.token frame _) => .waiting frame
  | .pumpCall (.token frame _) _ _ => .waiting frame
  | .pumpExpire (.token frame _) => .waiting frame
  | .tokenLoop pos token => .between pos token
  | .tokenSend frame => .sending frame
  | .tokenTest frame _ => .waiting frame
  | .finished result => .ended result
  | _ => .outside

/-- The frame of `master_run_token`, while the thread is inside it. -/
def frameOf : DriverPc → Option TokenFrame
  | .pump (.token frame _) => some frame
  | .pumpCall (.token frame _) _ _ => some frame
  | .pumpExpire (.token frame _) => some frame
  | .tokenSend frame => some frame
  | .tokenTest frame _ => some frame
  | _ => none

def TokenPhase.frame : TokenPhase → Option TokenFrame
  | .sending frame => some frame
  | .waiting frame => some frame
  | _ => none

theorem frameOf_eq_phase (pc : DriverPc) : frameOf pc = (tokenPhase pc).frame := by
  cases pc with
  | pump caller | pumpCall caller call replies | pumpExpire caller => cases caller <;> rfl
  | setup | readiness | tokenLoop | tokenSend | tokenTest | finished => rfl

/-- The globals that the loop works on. -/
structure TokenVars where
  seq : UInt32
  finalSeq : UInt32
  finalX : Activation
  haveFinal : Bool
  emitted : List Int

def Driver.tokenVars (driver : Driver) : TokenVars where
  seq := driver.seq
  finalSeq := driver.finalSeq
  finalX := driver.finalX
  haveFinal := driver.haveFinal
  emitted := driver.emitted

/-- A final that the next step would accept, from where it comes. -/
def AcceptsFinal (plan : SessionPlan) (gen : Generation) (driver : Driver)
    (received : Received) (staging : Activation) : Prop :=
  ∃ msg hop tail, received.1 = some msg ∧ msg.mtype = .call ∧
    msg.proc = procInferReq ∧
    inferDecodeHop msg.payload gen.dim plan.session = some (hop, staging) ∧
    hop.seq = driver.finalSeq ∧
    masterRingTail plan.self driver.discovery.registry = some tail ∧
    received.2 = (driver.discovery.registry tail).info.addr

/-- What one step of the thread can do to the loop. -/
inductive TokenMove (plan : SessionPlan) (gen : Generation) (driver : Driver) :
    Driver → Prop
  | rests (later : Driver)
      (notSending : ∀ frame, driver.pc ≠ .tokenSend frame)
      (phase : tokenPhase later.pc = tokenPhase driver.pc)
      (vars : later.tokenVars = driver.tokenVars) :
      TokenMove plan gen driver later
  | enters (later : Driver)
      (isOutside : tokenPhase driver.pc = .outside)
      (noFrame : (tokenPhase later.pc).frame = none)
      (vars : later.tokenVars = driver.tokenVars) :
      TokenMove plan gen driver later
  | begins (pos : Nat) (token : Int) (later : Driver)
      (atPc : driver.pc = .tokenLoop pos token)
      (within : pos < gen.steps)
      (phase : tokenPhase later.pc = .sending
            { pos := pos
              token := token
              head := headAddr plan driver.discovery.registry
              x := gen.embed token
              attempt := 0 })
      (vars : later.tokenVars = { driver.tokenVars with haveFinal := false }) :
      TokenMove plan gen driver later
  | completes (pos : Nat) (token : Int) (later : Driver)
      (atPc : driver.pc = .tokenLoop pos token)
      (done : ¬ pos < gen.steps)
      (phase : tokenPhase later.pc = .ended 0)
      (vars : later.tokenVars = driver.tokenVars) :
      TokenMove plan gen driver later
  | sends (frame : TokenFrame) (later : Driver)
      (atPc : driver.pc = .tokenSend frame)
      (within : frame.attempt ≤ inferMaxRetries)
      (phase : tokenPhase later.pc = .waiting frame)
      (vars : later.tokenVars = { driver.tokenVars with
            seq := driver.seq + 1
            finalSeq := driver.seq + 1 }) :
      TokenMove plan gen driver later
  | givesUp (frame : TokenFrame) (later : Driver)
      (atPc : driver.pc = .tokenSend frame)
      (exhausted : ¬ frame.attempt ≤ inferMaxRetries)
      (phase : tokenPhase later.pc = .ended (-1))
      (vars : later.tokenVars = driver.tokenVars) :
      TokenMove plan gen driver later
  | accepts
      (caller : PumpCaller) (received : Received) (rest : List Received)
      (staging : Activation) (later : Driver)
      (atPc : driver.pc = .pump caller)
      (isQueue : driver.queue = received :: rest)
      (accepted : AcceptsFinal plan gen driver received staging)
      (phase : tokenPhase later.pc = tokenPhase driver.pc)
      (vars : later.tokenVars = { driver.tokenVars with
            finalX := staging
            haveFinal := true }) :
      TokenMove plan gen driver later
  | advances (frame : TokenFrame) (waited : Nat) (later : Driver)
      (atPc : driver.pc = .tokenTest frame waited)
      (accepted : driver.haveFinal = true)
      (goesOn : nextToken gen frame.pos driver.finalX ≠ 1)
      (phase : tokenPhase later.pc =
          .between (frame.pos + 1) (nextToken gen frame.pos driver.finalX))
      (vars : later.tokenVars = { driver.tokenVars with
            emitted := driver.emitted ++ [nextToken gen frame.pos driver.finalX] }) :
      TokenMove plan gen driver later
  | stops (frame : TokenFrame) (waited : Nat) (later : Driver)
      (atPc : driver.pc = .tokenTest frame waited)
      (accepted : driver.haveFinal = true)
      (isEnd : nextToken gen frame.pos driver.finalX = 1)
      (phase : tokenPhase later.pc = .ended 0)
      (vars : later.tokenVars = driver.tokenVars) :
      TokenMove plan gen driver later
  | retries (frame : TokenFrame) (waited : Nat) (later : Driver)
      (atPc : driver.pc = .tokenTest frame waited)
      (noFinal : driver.haveFinal = false)
      (phase : tokenPhase later.pc = .sending { frame with attempt := frame.attempt + 1 })
      (vars : later.tokenVars = driver.tokenVars) :
      TokenMove plan gen driver later

section Moves

variable {plan : SessionPlan} {gen : Generation} {driver later : Driver}
variable {tick : Tick}

theorem tokenPhase_pumpGoesOn
    {caller : PumpCaller} {pc : DriverPc} (goesOn : PumpGoesOn caller pc) :
    tokenPhase pc = tokenPhase (.pump caller) := by
  rcases goesOn.2 with isExpire | isCall
  · rw [isExpire]
    cases caller <;> rfl
  · obtain ⟨call, replies, isPc⟩ := isCall
    rw [isPc]
    cases caller <;> rfl

theorem masterHandleShardReady_vars (session : UInt32) (driver : Driver) (payload : List UInt8) :
    (masterHandleShardReady session driver payload).tokenVars = driver.tokenVars := by
  obtain ⟨_, _, _, counted⟩ := masterHandleShardReady_frame session driver payload
  rw [counted]
  rfl

/-- The next step of the thread is not an attempt. -/
def isSending : DriverPc → Bool
  | .tokenSend _ => true
  | _ => false

theorem not_tokenSend {pc : DriverPc} (atPc : driver.pc = pc) (other : isSending pc = false) :
    ∀ frame, driver.pc ≠ .tokenSend frame := by
  intro frame isSend
  rw [atPc] at isSend
  rw [isSend] at other
  cases other

theorem Dispatched.tokenMove {caller : PumpCaller} {received : Received} {rest : List Received}
    (dispatched : Dispatched plan gen { driver with queue := rest } caller received tick later)
    (atPc : driver.pc = .pump caller) (isQueue : driver.queue = received :: rest) :
    TokenMove plan gen driver later := by
  have expiring : tokenPhase (.pumpExpire caller) = tokenPhase driver.pc := by
    rw [atPc]
    cases caller <;> rfl
  have notSending : ∀ frame, driver.pc ≠ .tokenSend frame := not_tokenSend atPc rfl
  cases dispatched with
  | ignored noCall => exact .rests _ notSending expiring rfl
  | report msg isMsg isCall isReport =>
    exact .rests _ notSending expiring (masterHandleShardReady_vars plan.session _ msg.payload)
  | final msg isMsg isCall isHop =>
    rcases masterHandleFinal_cases plan gen { driver with queue := rest }
      msg.payload received.2 with same | stored
    · rw [same]
      exact .rests _ notSending expiring rfl
    · obtain ⟨hop, staging, tail, decoded, isFinal, sameSeq, isTail, isSource, isStored⟩ := stored
      rw [isStored]
      exact .accepts caller received rest staging _ atPc isQueue
        ⟨msg, hop, tail, isMsg, isCall, isHop, decoded, sameSeq, isTail, isSource⟩ expiring rfl
  | discovery msg isMsg notReport notHop nextXid pc goesOn =>
    refine .rests _ notSending ?_ rfl
    rw [atPc]
    exact tokenPhase_pumpGoesOn goesOn

theorem setupNext_tokenMove (now : UInt32) {todo : List SetupOp}
    (isOutside : tokenPhase driver.pc = .outside) :
    TokenMove plan gen driver (setupNext driver now todo) := by
  cases todo with
  | nil => exact .enters _ isOutside rfl rfl
  | cons op rest => cases op <;> exact .enters _ isOutside rfl rfl

theorem setupReturn_frame {todo : List SetupOp} {call : RpcCall}
    (fits : CallFits (.setup todo (some call))) (result : RpcResult) :
    (tokenPhase (setupReturn todo result)).frame = none := by
  rcases setupReturn_cases fits result with isEnd | isNext
  · rw [isEnd]
    rfl
  · obtain ⟨op, rest, isTodo, notReset, isReturn⟩ := isNext
    rw [isReturn]
    rfl

theorem driverRun_tokenMove (fits : CallFits driver.pc) :
    TokenMove plan gen driver (driverRun plan gen driver tick).1 := by
  have step := driverRun_step plan gen driver tick
  generalize (driverRun plan gen driver tick).2 = datagrams at step
  generalize (driverRun plan gen driver tick).1 = later at step ⊢
  cases step with
  | setup todo atPc => exact setupNext_tokenMove tick.now (congrArg tokenPhase atPc)
  | setupPending todo call later queue sent atPc goesOn =>
    exact .enters _ (congrArg tokenPhase atPc) rfl rfl
  | setupReturned todo call result queue sent atPc returned =>
    rw [atPc] at fits
    exact .enters _ (congrArg tokenPhase atPc) (setupReturn_frame fits result) rfl
  | waits atPc => exact .enters _ (congrArg tokenPhase atPc) rfl rfl
  | ready atPc =>
    refine .enters _ (congrArg tokenPhase atPc) ?_ rfl
    dsimp only [afterReadiness]
    split_ifs <;> rfl
  | takes caller received rest atPc isQueue =>
    exact (pumpDispatch_dispatched plan gen _ caller received tick).tokenMove atPc isQueue
  | timesOut caller atPc | callPending caller _ _ _ _ _ atPc
  | callReturned caller _ _ _ _ _ atPc | expires caller atPc =>
    refine .rests _ (not_tokenSend atPc rfl) ?_ rfl
    rw [atPc]
    cases caller <;> rfl
  | begins pos token atPc within => exact .begins pos token _ atPc within rfl rfl
  | completes pos token atPc done => exact .completes pos token _ atPc done rfl rfl
  | sends frame atPc within => exact .sends frame _ atPc within rfl rfl
  | givesUp frame atPc exhausted => exact .givesUp frame _ atPc exhausted rfl rfl
  | stops frame waited atPc accepted isEnd =>
    exact .stops frame waited _ atPc accepted isEnd rfl rfl
  | advances frame waited atPc accepted goesOn =>
    exact .advances frame waited _ atPc accepted goesOn rfl rfl
  | blocks _ atPc | pumpsAgain _ _ atPc =>
    exact .rests _ (not_tokenSend atPc rfl) (congrArg tokenPhase atPc).symm rfl
  | retries frame waited atPc noFinal late => exact .retries frame waited _ atPc noFinal rfl rfl
  | finished result atPc => exact .rests _ (not_tokenSend atPc rfl) rfl rfl

end Moves

end LlmRuntime.DistInf
