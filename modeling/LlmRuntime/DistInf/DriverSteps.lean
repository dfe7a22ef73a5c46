import LlmRuntime.DistInf.MasterSession

/-!
# What a step of the master can do

Which call is in progress, what a datagram taken by the pump can change, and
which datagrams leave the master.
-/

namespace LlmRuntime.DistInf

open Discovery

/-- A handler sends replies and neighbour notifications only. -/
def NotifiesOnly (outgoing : List Outgoing) : Prop :=
  ∀ sent ∈ outgoing, sent.isReply = true ∨ ∃ dst payload, sent = .call dst procSetNeighbor payload

theorem notifiesOnly_nil : NotifiesOnly [] := by
  intro sent isSent
  cases isSent

theorem notifiesOnly_reply (dst : RpcAddr) (xid : UInt32) (stat : AcceptStat)
    (payload : List UInt8) :
    NotifiesOnly [.reply dst xid stat payload] := by
  intro sent isSent
  rw [List.mem_singleton.mp isSent]
  exact .inl rfl

theorem notifiesOnly_append {sent more : List Outgoing}
    (sentOnly : NotifiesOnly sent) (moreOnly : NotifiesOnly more) :
    NotifiesOnly (sent ++ more) := by
  intro each isSent
  rcases List.mem_append.mp isSent with isFirst | isSecond
  · exact sentOnly each isFirst
  · exact moreOnly each isSecond

theorem handleAuthHello_notifiesOnly (master : Master) (msg : RpcMsg)
    (src : RpcAddr) (now : UInt32) (entropy : Entropy) :
    NotifiesOnly (handleAuthHello master msg src now entropy).2 := by
  unfold handleAuthHello
  split
  · exact notifiesOnly_reply _ _ _ _
  · dsimp only
    split
    · exact notifiesOnly_reply _ _ _ _
    · split
      · exact notifiesOnly_reply _ _ _ _
      · unfold issueProbe
        dsimp only
        split <;> exact notifiesOnly_reply _ _ _ _
      · exact notifiesOnly_reply _ _ _ _

theorem activate_notifiesOnly (self : RpcAddr) (registry : Registry) (slot : Slot) (now : UInt32) :
    NotifiesOnly (activate self registry slot now).2.2 := by
  simp only [activate, spliceIn]
  split
  · exact notifiesOnly_nil
  · intro sent isSent
    rw [List.mem_singleton.mp isSent]
    exact .inr ⟨_, _, rfl⟩

theorem handleCapAck_notifiesOnly (self : RpcAddr) (master : Master)
    (msg : RpcMsg) (src : RpcAddr) (now : UInt32) :
    NotifiesOnly (handleCapAck self master msg src now).2 := by
  unfold handleCapAck
  split
  · exact notifiesOnly_reply _ _ _ _
  · split
    · exact notifiesOnly_reply _ _ _ _
    · dsimp only
      split_ifs
      · exact notifiesOnly_reply _ _ _ _
      · exact notifiesOnly_reply _ _ _ _
      · exact notifiesOnly_reply _ _ _ _
      · exact notifiesOnly_reply _ _ _ _
      · exact notifiesOnly_append (activate_notifiesOnly _ _ _ _) (notifiesOnly_reply _ _ _ _)

theorem handleHeartbeat_notifiesOnly
    (master : Master) (msg : RpcMsg) (src : RpcAddr) (now : UInt32) :
    NotifiesOnly (handleHeartbeat master msg src now).2 := by
  unfold handleHeartbeat
  split
  · exact notifiesOnly_reply _ _ _ _
  · split <;> exact notifiesOnly_reply _ _ _ _

theorem discoveryHandleCall_notifiesOnly (self : RpcAddr) (master : Master)
    (msg : RpcMsg) (src : RpcAddr) (now : UInt32) (entropy : Entropy) :
    NotifiesOnly (discoveryHandleCall self master msg src now entropy).2 := by
  unfold discoveryHandleCall
  split
  · exact notifiesOnly_nil
  · dsimp only
    split
    · exact notifiesOnly_nil
    · split
      · exact notifiesOnly_reply _ _ _ _
      · unfold dispatchCall
        split_ifs
        · apply handleAuthHello_notifiesOnly
        · apply handleHeartbeat_notifiesOnly
        · apply handleCapAck_notifiesOnly
        · exact notifiesOnly_reply _ _ _ _

variable {outgoing : List Outgoing} {todo : List SetupOp}

theorem callOf_mem {request : RpcRequest} (calls : callOf outgoing = some request) :
    .call request.dst request.proc request.payload ∈ outgoing := by
  induction outgoing with
  | nil => cases calls
  | cons first rest ih =>
    cases first with
    | call dst proc payload =>
      rw [← Option.some.inj calls]
      exact List.mem_cons_self
    | reply dst xid stat payload => exact List.mem_cons_of_mem _ (ih calls)

theorem callOf_notify (notifies : NotifiesOnly outgoing) {request : RpcRequest}
    (calls : callOf outgoing = some request) :
    request.proc = procSetNeighbor := by
  rcases notifies _ (callOf_mem calls) with isReply | isNotify
  · cases isReply
  · obtain ⟨dst, payload, isCall⟩ := isNotify
    injection isCall

theorem sendAll_mem {src : RpcAddr} :
    ∀ {xid : UInt32} {sent : Datagram},
      sent ∈ (sendAll src xid outgoing).1 →
        ∃ each ∈ outgoing, ∃ used, sent = each.datagram src used := by
  induction outgoing with
  | nil =>
    intro xid sent isSent
    cases isSent
  | cons first rest ih =>
    intro xid sent isSent
    rcases List.mem_cons.mp isSent with isFirst | isLater
    · exact ⟨first, List.mem_cons_self, xid, isFirst⟩
    · obtain ⟨each, isEach, used, isDatagram⟩ := ih isLater
      exact ⟨each, List.mem_cons_of_mem _ isEach, used, isDatagram⟩

theorem callOf_none (noCall : callOf outgoing = none) : ∀ sent ∈ outgoing, sent.isReply = true := by
  induction outgoing with
  | nil =>
    intro sent isSent
    cases isSent
  | cons first rest ih =>
    intro sent isSent
    cases first with
    | call dst proc payload => cases noCall
    | reply dst xid stat payload =>
      rcases List.mem_cons.mp isSent with isFirst | isLater
      · rw [isFirst]
        rfl
      · exact ih noCall sent isLater

/-- A call of the setup belongs to the notification or assignment at the head
of the list; a call made inside the pump notifies a neighbour and has the
replies of its handler waiting behind it. -/
def CallFits : DriverPc → Prop
  | .setup (.notify request :: _) (some call) => call.request = request
  | .setup (.assign request :: _) (some call) => call.request = request
  | .setup _ (some _) => False
  | .pumpCall _ call replies =>
    call.request.proc = procSetNeighbor ∧ ∀ sent ∈ replies, sent.isReply = true
  | _ => True

theorem callFits_setup {call : RpcCall} (fits : CallFits (.setup todo (some call))) :
    ∃ rest, todo = .notify call.request :: rest ∨ todo = .assign call.request :: rest := by
  cases todo with
  | nil => exact fits.elim
  | cons op rest =>
    cases op with
    | notify request => exact ⟨rest, .inl (by rw [show _ = _ from fits])⟩
    | assign request => exact ⟨rest, .inr (by rw [show _ = _ from fits])⟩
    | reset => exact fits.elim
    | refuse => exact fits.elim

theorem callFits_pending {call later : RpcCall} (fits : CallFits (.setup todo (some call)))
    (sameRequest : later.request = call.request) :
    CallFits (.setup todo (some later)) := by
  obtain ⟨rest, isNotify | isAssign⟩ := callFits_setup fits
  · rw [isNotify]
    exact sameRequest
  · rw [isAssign]
    exact sameRequest

theorem setupReturn_cases {call : RpcCall}
    (fits : CallFits (.setup todo (some call))) (result : RpcResult) :
    setupReturn todo result = .finished (-2) ∨
      ∃ op rest, todo = op :: rest ∧ op ≠ .reset ∧ setupReturn todo result = .setup rest none := by
  obtain ⟨rest, isNotify | isAssign⟩ := callFits_setup fits
  · right
    refine ⟨_, rest, isNotify, by simp, ?_⟩
    rw [isNotify]
    rfl
  · rw [isAssign]
    by_cases accepted : result = .ok
    · right
      refine ⟨_, rest, rfl, by simp, ?_⟩
      rw [setupReturn, if_pos accepted]
    · left
      rw [setupReturn, if_neg accepted]

/-- The pump is past its switch, or inside the notification of a neighbour. -/
def PumpGoesOn (caller : PumpCaller) (pc : DriverPc) : Prop :=
  CallFits pc ∧ (pc = .pumpExpire caller ∨ ∃ call replies, pc = .pumpCall caller call replies)

theorem pumpGoesOn_expire (caller : PumpCaller) : PumpGoesOn caller (.pumpExpire caller) :=
  ⟨trivial, .inl rfl⟩

section Dispatch

variable (plan : SessionPlan) (gen : Generation) (driver : Driver)
variable (caller : PumpCaller) (received : Received) (tick : Tick)

/-- What the switch of `master_pump` does with a datagram. -/
inductive Dispatched : Driver → Prop
  | ignored
      (noCall : ∀ msg, received.1 = some msg → msg.mtype ≠ .call) :
      Dispatched { driver with pc := .pumpExpire caller }
  | report
      (msg : RpcMsg) (isMsg : received.1 = some msg)
      (isCall : msg.mtype = .call) (isReport : msg.proc = procShardReady) :
      Dispatched
        { masterHandleShardReady plan.session driver msg.payload with
          pc := .pumpExpire caller }
  | final
      (msg : RpcMsg) (isMsg : received.1 = some msg)
      (isCall : msg.mtype = .call) (isHop : msg.proc = procInferReq) :
      Dispatched
        { masterHandleFinal plan gen driver msg.payload received.2 with
          pc := .pumpExpire caller }
  | discovery
      (msg : RpcMsg) (isMsg : received.1 = some msg)
      (notReport : msg.proc ≠ procShardReady)
      (notHop : msg.proc ≠ procInferReq)
      (nextXid : UInt32) (pc : DriverPc) (goesOn : PumpGoesOn caller pc) :
      Dispatched
        { driver with
          discovery :=
            (discoveryHandleCall plan.self driver.discovery msg received.2 tick.now tick.entropy).1
          nextXid := nextXid
          pc := pc }

theorem pumpDispatch_dispatched :
    Dispatched plan gen driver caller received tick
      (pumpDispatch plan gen driver caller received tick).1 := by
  unfold pumpDispatch
  split
  · rename_i isNone
    refine .ignored ?_
    intro msg isMsg
    rw [isNone] at isMsg
    cases isMsg
  · rename_i msg isMsg
    split_ifs with notCall isReport isHop
    · refine .ignored ?_
      intro other isOther
      rw [isMsg] at isOther
      rw [← Option.some.inj isOther]
      exact notCall
    · exact .report msg isMsg (not_not.mp notCall) isReport
    · exact .final msg isMsg (not_not.mp notCall) isHop
    · have notifies :=
        discoveryHandleCall_notifiesOnly plan.self driver.discovery msg
          received.2 tick.now tick.entropy
      unfold pumpDiscovery
      dsimp only
      split
      · rename_i request calls
        refine .discovery msg isMsg isReport isHop _ _
          ⟨⟨callOf_notify notifies calls, ?_⟩, .inr ⟨_, _, rfl⟩⟩
        intro sent isSent
        exact (List.mem_filter.mp isSent).2
      · exact .discovery msg isMsg isReport isHop _ _ (pumpGoesOn_expire caller)

theorem pumpDispatch_sent :
    ∀ sent ∈ (pumpDispatch plan gen driver caller received tick).2,
      sent.src = plan.self ∧ sent.msg.mtype = .reply := by
  intro sent isSent
  unfold pumpDispatch at isSent
  split at isSent
  · cases isSent
  · split_ifs at isSent
    · cases isSent
    · cases isSent
    · cases isSent
    · unfold pumpDiscovery at isSent
      dsimp only at isSent
      split at isSent
      · cases isSent
      · rename_i noCall
        obtain ⟨each, isEach, used, isDatagram⟩ := sendAll_mem isSent
        have isReply := callOf_none noCall each isEach
        cases each with
        | call dst proc payload => cases isReply
        | reply dst xid stat payload =>
          rw [isDatagram]
          exact ⟨rfl, rfl⟩

end Dispatch

theorem masterHandleFinal_cases (plan : SessionPlan) (gen : Generation)
    (driver : Driver) (payload : List UInt8) (src : RpcAddr) :
    masterHandleFinal plan gen driver payload src = driver ∨
      ∃ hop staging tail,
        inferDecodeHop payload gen.dim plan.session = some (hop, staging) ∧
          hop.isFinal = true ∧ hop.seq = driver.finalSeq ∧
          masterRingTail plan.self driver.discovery.registry = some tail ∧
          src = (driver.discovery.registry tail).info.addr ∧
          masterHandleFinal plan gen driver payload src =
            { driver with finalX := staging, haveFinal := true } := by
  unfold masterHandleFinal
  cases decoded : inferDecodeHop payload gen.dim plan.session with
  | none => exact .inl rfl
  | some result =>
    obtain ⟨hop, staging⟩ := result
    dsimp only
    by_cases isFinal : hop.isFinal = true
    swap
    · exact .inl (if_pos isFinal)
    by_cases sameSeq : hop.seq = driver.finalSeq
    swap
    · rw [if_neg (not_not.mpr isFinal)]
      exact .inl (if_pos sameSeq)
    rw [if_neg (not_not.mpr isFinal), if_neg (not_not.mpr sameSeq)]
    cases found : masterRingTail plan.self driver.discovery.registry with
    | none => exact .inl rfl
    | some tail =>
      dsimp only
      by_cases isSource : src = (driver.discovery.registry tail).info.addr
      · rw [if_neg (not_not.mpr isSource)]
        exact .inr ⟨hop, staging, tail, rfl, isFinal, sameSeq, rfl, isSource, rfl⟩
      · exact .inl (if_pos isSource)

theorem masterHandleFinal_frame (plan : SessionPlan) (gen : Generation)
    (driver : Driver) (payload : List UInt8) (src : RpcAddr) :
    ∃ x flag, masterHandleFinal plan gen driver payload src =
      { driver with finalX := x, haveFinal := flag } := by
  rcases masterHandleFinal_cases plan gen driver payload src with
    same | ⟨_, _, _, _, _, _, _, _, isStored⟩
  · exact ⟨_, _, same⟩
  · exact ⟨_, _, isStored⟩

theorem masterHandleShardReady_frame (session : UInt32) (driver : Driver) (payload : List UInt8) :
    ∃ count failed counted, masterHandleShardReady session driver payload =
      { driver with
        readyCount := count, readyFailed := failed, counted := counted } := by
  unfold masterHandleShardReady
  dsimp only
  split_ifs <;> exact ⟨_, _, _, rfl⟩

theorem Dispatched.queue {plan : SessionPlan} {gen : Generation} {driver later : Driver}
    {caller : PumpCaller} {received : Received} {tick : Tick}
    (dispatched : Dispatched plan gen driver caller received tick later) :
    later.queue = driver.queue := by
  cases dispatched with
  | ignored | discovery => rfl
  | report msg isMsg isCall isReport =>
    obtain ⟨_, _, _, counted⟩ := masterHandleShardReady_frame plan.session driver msg.payload
    rw [counted]
  | final msg isMsg isCall isHop =>
    obtain ⟨_, _, stored⟩ := masterHandleFinal_frame plan gen driver msg.payload received.2
    rw [stored]

/-! ## The steps of the thread -/

section Steps

variable (plan : SessionPlan) (gen : Generation) (driver : Driver) (tick : Tick)

/-- One step, with the datagrams it sends. -/
inductive DriverStep : Driver → List Datagram → Prop
  | setup (todo : List SetupOp) (atPc : driver.pc = .setup todo none) :
      DriverStep (setupNext driver tick.now todo) []
  | setupPending (todo call later queue sent : _)
      (atPc : driver.pc = .setup todo (some call))
      (goesOn : rpcCallStep plan.self call driver.queue tick.timedOut
          tick.sendFails = (.pending later, queue, sent)) :
      DriverStep { driver with queue := queue, pc := .setup todo (some later) } sent
  | setupReturned (todo call result queue sent : _)
      (atPc : driver.pc = .setup todo (some call))
      (returned : rpcCallStep plan.self call driver.queue tick.timedOut
          tick.sendFails = (.returned result, queue, sent)) :
      DriverStep { driver with queue := queue, pc := setupReturn todo result } sent
  | waits (atPc : driver.pc = .readiness) :
      DriverStep { driver with pc := .pump .readiness } []
  | ready (atPc : driver.pc = .readiness) :
      DriverStep { driver with pc := afterReadiness plan gen driver } []
  | blocks (caller : PumpCaller) (atPc : driver.pc = .pump caller)
      (isEmpty : driver.queue = []) :
      DriverStep { driver with pc := .pump caller } []
  | timesOut (caller : PumpCaller) (atPc : driver.pc = .pump caller)
      (isEmpty : driver.queue = []) :
      DriverStep { driver with pc := .pumpExpire caller } []
  | takes (caller received rest : _) (atPc : driver.pc = .pump caller)
      (isQueue : driver.queue = received :: rest) :
      DriverStep (pumpDispatch plan gen { driver with queue := rest } caller received tick).1
        (pumpDispatch plan gen { driver with queue := rest } caller received tick).2
  | callPending (caller call later replies queue sent : _)
      (atPc : driver.pc = .pumpCall caller call replies)
      (goesOn : rpcCallStep plan.self call driver.queue tick.timedOut
          tick.sendFails = (.pending later, queue, sent)) :
      DriverStep { driver with queue := queue, pc := .pumpCall caller later replies } sent
  | callReturned (caller call result replies queue sent : _)
      (atPc : driver.pc = .pumpCall caller call replies)
      (returned : rpcCallStep plan.self call driver.queue tick.timedOut
          tick.sendFails = (.returned result, queue, sent)) :
      DriverStep { driver with queue := queue, pc := .pumpExpire caller }
        (sendAll plan.self driver.nextXid replies).1
  | expires (caller : PumpCaller) (atPc : driver.pc = .pumpExpire caller) :
      DriverStep
        { driver with
          discovery := (discoveryExpireWorkers driver.discovery tick.now).1
          nextXid := (sendAll plan.self driver.nextXid
            (discoveryExpireWorkers driver.discovery tick.now).2).2
          pc := pumpReturn caller }
        (sendAll plan.self driver.nextXid (discoveryExpireWorkers driver.discovery tick.now).2).1
  | begins (pos token : _) (atPc : driver.pc = .tokenLoop pos token)
      (within : pos < gen.steps) :
      DriverStep
        { driver with
          haveFinal := false
          pc :=
            .tokenSend
              { pos := pos
                token := token
                head := headAddr plan driver.discovery.registry
                x := gen.embed token
                attempt := 0 } } []
  | completes (pos token : _) (atPc : driver.pc = .tokenLoop pos token)
      (done : ¬ pos < gen.steps) :
      DriverStep { driver with pc := .finished 0 } []
  | sends (frame : TokenFrame) (atPc : driver.pc = .tokenSend frame)
      (within : frame.attempt ≤ inferMaxRetries) :
      DriverStep
        { driver with
          seq := driver.seq + 1
          finalSeq := driver.seq + 1
          nextXid := driver.nextXid + 1
          pc := .pump (.token frame 0) }
        [⟨plan.self, frame.head, rpcFillCall driver.nextXid procInferReq
          (inferPayload (firstHop plan gen (driver.seq + 1) frame.pos) frame.x)⟩]
  | givesUp (frame : TokenFrame) (atPc : driver.pc = .tokenSend frame)
      (exhausted : ¬ frame.attempt ≤ inferMaxRetries) :
      DriverStep { driver with pc := .finished (-1) } []
  | stops (frame waited : _) (atPc : driver.pc = .tokenTest frame waited)
      (accepted : driver.haveFinal = true)
      (isEnd : nextToken gen frame.pos driver.finalX = 1) :
      DriverStep { driver with pc := .finished 0 } []
  | advances (frame waited : _) (atPc : driver.pc = .tokenTest frame waited)
      (accepted : driver.haveFinal = true)
      (goesOn : nextToken gen frame.pos driver.finalX ≠ 1) :
      DriverStep
        { driver with
          emitted := driver.emitted ++ [nextToken gen frame.pos driver.finalX]
          pc := .tokenLoop (frame.pos + 1) (nextToken gen frame.pos driver.finalX) } []
  | pumpsAgain (frame waited : _) (atPc : driver.pc = .tokenTest frame waited)
      (early : waited < inferTokenTimeoutMs) :
      DriverStep { driver with pc := .pump (.token frame waited) } []
  | retries (frame waited : _) (atPc : driver.pc = .tokenTest frame waited)
      (noFinal : driver.haveFinal = false)
      (late : ¬ waited < inferTokenTimeoutMs) :
      DriverStep
        { driver with
          pc := .tokenSend { frame with attempt := frame.attempt + 1 } } []
  | finished (result : Int) (atPc : driver.pc = .finished result) :
      DriverStep driver []

theorem driverRun_step :
    DriverStep plan gen driver tick (driverRun plan gen driver tick).1
      (driverRun plan gen driver tick).2 := by
  rw [driverRun.eq_def]
  cases atPc : driver.pc with
  | setup todo call =>
    cases call with
    | none => exact .setup todo atPc
    | some call =>
      dsimp only
      rcases outcome : rpcCallStep plan.self call driver.queue
        tick.timedOut tick.sendFails with ⟨later | result, queue, sent⟩
      · exact .setupPending todo call later queue sent atPc outcome
      · exact .setupReturned todo call result queue sent atPc outcome
  | readiness =>
    dsimp only
    split
    · exact .waits atPc
    · exact .ready atPc
  | pump caller =>
    dsimp only
    cases isQueue : driver.queue with
    | nil =>
      dsimp only
      split
      · exact isQueue ▸ .timesOut caller atPc isQueue
      · exact isQueue ▸ .blocks caller atPc isQueue
    | cons received rest =>
      simpa only [atPc] using DriverStep.takes caller received rest atPc isQueue
  | pumpCall caller call replies =>
    dsimp only
    rcases outcome : rpcCallStep plan.self call driver.queue tick.timedOut
      tick.sendFails with ⟨later | result, queue, sent⟩
    · exact .callPending caller call later replies queue sent atPc outcome
    · exact .callReturned caller call result replies queue sent atPc outcome
  | pumpExpire caller => exact .expires caller atPc
  | tokenLoop pos token =>
    dsimp only
    split_ifs with within
    · exact .begins pos token atPc within
    · exact .completes pos token atPc within
  | tokenSend frame =>
    dsimp only [tokenSendStep]
    split_ifs with within
    · exact .sends frame atPc within
    · exact .givesUp frame atPc within
  | tokenTest frame waited =>
    dsimp only [tokenAccepted]
    split_ifs with accepted isEnd early
    · exact .stops frame waited atPc accepted isEnd
    · exact .advances frame waited atPc accepted isEnd
    · exact .pumpsAgain frame waited atPc early
    · exact .retries frame waited atPc (Bool.eq_false_iff.mpr accepted) early
  | finished result => exact .finished result atPc

end Steps

theorem callFits_setup_none (todo : List SetupOp) : CallFits (.setup todo none) := by
  cases todo with
  | nil => trivial
  | cons op rest => cases op <;> trivial

theorem setupNext_callFits (driver : Driver) (now : UInt32)
    (todo : List SetupOp) : CallFits (setupNext driver now todo).pc := by
  cases todo with
  | nil => trivial
  | cons op rest =>
    cases op with
    | reset => exact callFits_setup_none rest
    | notify request => rfl
    | assign request => rfl
    | refuse => trivial

theorem setupReturn_callFits {call : RpcCall}
    (fits : CallFits (.setup todo (some call))) (result : RpcResult) :
    CallFits (setupReturn todo result) := by
  rcases setupReturn_cases fits result with isEnd | isNext
  · rw [isEnd]
    trivial
  · obtain ⟨op, rest, isTodo, notReset, isReturn⟩ := isNext
    rw [isReturn]
    exact callFits_setup_none rest

theorem Dispatched.callFits {plan : SessionPlan} {gen : Generation} {driver later : Driver}
    {caller : PumpCaller} {received : Received} {tick : Tick}
    (dispatched : Dispatched plan gen driver caller received tick later) :
    CallFits later.pc := by
  cases dispatched with
  | ignored | report | final => trivial
  | discovery msg isMsg notReport notHop nextXid pc goesOn => exact goesOn.1

theorem afterReadiness_callFits (plan : SessionPlan) (gen : Generation) (driver : Driver) :
    CallFits (afterReadiness plan gen driver) := by
  unfold afterReadiness
  split_ifs <;> trivial

section Calls

variable {plan : SessionPlan} {gen : Generation} {driver later : Driver}
variable {tick : Tick} {datagrams : List Datagram}

theorem DriverStep.callFits (step : DriverStep plan gen driver tick later datagrams)
    (fits : CallFits driver.pc) : CallFits later.pc := by
  cases step with
  | setup todo atPc => exact setupNext_callFits driver tick.now todo
  | setupPending todo call later queue sent atPc goesOn =>
    rw [atPc] at fits
    exact callFits_pending fits (rpcCallStep_pending (congrArg Prod.fst goesOn)).1
  | setupReturned todo call result queue sent atPc returned =>
    rw [atPc] at fits
    exact setupReturn_callFits fits result
  | ready atPc => exact afterReadiness_callFits plan gen driver
  | takes caller received rest atPc isQueue =>
    exact (pumpDispatch_dispatched plan gen _ caller _ tick).callFits
  | callPending caller call later replies queue sent atPc goesOn =>
    rw [atPc] at fits
    refine ⟨?_, fits.2⟩
    rw [(rpcCallStep_pending (congrArg Prod.fst goesOn)).1]
    exact fits.1
  | expires caller atPc => cases caller <;> trivial
  | finished result atPc => exact fits
  | _ => trivial

theorem driverRun_callFits (fits : CallFits driver.pc) :
    CallFits (driverRun plan gen driver tick).1.pc :=
  (driverRun_step plan gen driver tick).callFits fits

theorem driverNext_callFits (event : DriverEvent) (fits : CallFits driver.pc) :
    CallFits (driverNext plan gen driver event).pc := by
  cases event with
  | arrive received => exact fits
  | run tick => exact driverRun_callFits fits

end Calls

/-- The datagrams that a step of the thread can send.  Only the setup assigns
layers, and only the token loop sends an activation. -/
inductive DriverSends (plan : SessionPlan) (gen : Generation) (driver : Driver) :
    Datagram → Prop
  | reply (sent : Datagram) (fromMaster : sent.src = plan.self)
      (isReply : sent.msg.mtype = .reply) : DriverSends plan gen driver sent
  | notify (dst : RpcAddr) (xid : UInt32) (payload : List UInt8) :
      DriverSends plan gen driver ⟨plan.self, dst, rpcFillCall xid procSetNeighbor payload⟩
  | evict (dst : RpcAddr) (xid : UInt32) (payload : List UInt8) :
      DriverSends plan gen driver ⟨plan.self, dst, rpcFillCall xid procEvict payload⟩
  | setup
      (todo : List SetupOp) (call : RpcCall)
      (atPc : driver.pc = .setup todo (some call)) :
      DriverSends plan gen driver (call.datagram plan.self)
  | hop
      (frame : TokenFrame) (atPc : driver.pc = .tokenSend frame)
      (within : frame.attempt ≤ inferMaxRetries) :
      DriverSends plan gen driver
        ⟨plan.self, frame.head, rpcFillCall driver.nextXid procInferReq
            (inferPayload (firstHop plan gen (driver.seq + 1) frame.pos) frame.x)⟩

theorem sendAll_replies {plan : SessionPlan} {gen : Generation} {driver : Driver} {xid : UInt32}
    (onlyReplies : ∀ each ∈ outgoing, each.isReply = true) :
    ∀ sent ∈ (sendAll plan.self xid outgoing).1, DriverSends plan gen driver sent := by
  intro sent isSent
  obtain ⟨each, isEach, used, isDatagram⟩ := sendAll_mem isSent
  have isReply := onlyReplies each isEach
  cases each with
  | call dst proc payload => cases isReply
  | reply dst replyXid stat payload =>
    rw [isDatagram]
    exact .reply _ rfl rfl

theorem sendAll_evictions {plan : SessionPlan} {gen : Generation}
    {driver : Driver} {registry : Registry} {now xid : UInt32} :
    ∀ sent ∈ (sendAll plan.self xid (evictions now registry)).1,
      DriverSends plan gen driver sent := by
  intro sent isSent
  obtain ⟨each, isEach, used, isDatagram⟩ := sendAll_mem isSent
  obtain ⟨slot, expires, isEvict⟩ := List.mem_map.mp isEach
  rw [isDatagram, ← isEvict]
  exact .evict _ _ _

theorem driverRun_sent {plan : SessionPlan} {gen : Generation} {driver : Driver}
    {tick : Tick} (fits : CallFits driver.pc) :
    ∀ sent ∈ (driverRun plan gen driver tick).2, DriverSends plan gen driver sent := by
  have step := driverRun_step plan gen driver tick
  generalize (driverRun plan gen driver tick).1 = later at step
  generalize (driverRun plan gen driver tick).2 = datagrams at step
  intro sent isSent
  cases step with
  | setupPending todo call later queue _ atPc outcome
  | setupReturned todo call result queue _ atPc outcome =>
    rw [rpcCallStep_sent _ _ _ _ _ sent (by rw [outcome]; exact isSent)]
    exact .setup todo call atPc
  | takes caller received rest atPc isQueue =>
    have isReply := pumpDispatch_sent plan gen _ _ _ _ sent isSent
    exact .reply sent isReply.1 isReply.2
  | callPending caller call later replies queue _ atPc goesOn =>
    rw [atPc] at fits
    rw [rpcCallStep_sent _ _ _ _ _ sent (by rw [goesOn]; exact isSent), RpcCall.datagram, fits.1]
    exact .notify _ _ _
  | callReturned caller call result replies queue _ atPc returned =>
    rw [atPc] at fits
    exact sendAll_replies fits.2 sent isSent
  | expires caller atPc => exact sendAll_evictions sent isSent
  | sends frame atPc within =>
    rw [List.mem_singleton.mp isSent]
    exact .hop frame atPc within
  | _ => cases isSent

end LlmRuntime.DistInf
