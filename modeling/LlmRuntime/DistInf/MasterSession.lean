import LlmRuntime.RpcCall
import LlmRuntime.Discovery.Handlers
import LlmRuntime.DistInf.Shard

/-!
# A generation session on the master

`run_generation_session` as the one thread of the master runs it.  One step is
at most one datagram taken from the socket or one sent, so a session is any
interleaving with what arrives.
-/

namespace LlmRuntime.DistInf

open Discovery

/-- The range that `discovery_assign_one` gives to worker `k` of `n`. -/
def assignedLayers (tmpl : AssignLayers) (n k : Nat) : AssignLayers :=
  let per := tmpl.nLayersTotal.toNat / n
  let rem := tmpl.nLayersTotal.toNat % n
  let start := k * per + (if k < rem then k else rem)
  let count := per + (if k < rem then 1 else 0)
  { tmpl with
    layerStart := UInt32.ofNat start
    layerEnd := UInt32.ofNat (start + count) }

/-- The steps of `run_generation_session` up to the wait.  `refuse` is
`discovery_assign_one` finding fewer layers than workers. -/
inductive SetupOp where
  | notify (request : RpcRequest)
  | reset
  | assign (request : RpcRequest)
  | refuse
  deriving DecidableEq, Repr

/-- The request of `discovery_notify_neighbor` for the worker of a slot. -/
def notifyRequest (registry : Registry) (slot : Slot) : RpcRequest where
  dst := (registry slot).info.addr
  proc := procSetNeighbor
  payload := SetNeighbor.encode ⟨(registry slot).prev, (registry slot).next⟩

def assignRequest (registry : Registry) (slot : Slot) (assignment : AssignLayers) : RpcRequest where
  dst := (registry slot).info.addr
  proc := procAssignLayers
  payload := assignment.encode

def setupOps (registry : Registry) (slots : List Slot) (tmpl : AssignLayers) : List SetupOp :=
  slots.map (fun slot => .notify (notifyRequest registry slot)) ++
    .reset ::
      (if asInt tmpl.nLayersTotal < slots.length then [.refuse]
      else
        slots.mapIdx fun k slot =>
          .assign (assignRequest registry slot (assignedLayers tmpl slots.length k)))

/-- What stays fixed during a session. -/
structure SessionPlan where
  self : RpcAddr
  session : UInt32
  slots : List Slot
  ops : List SetupOp
  deriving DecidableEq

/-- The epoch drawn for a session: never zero. -/
def freshSession (drawn : Option UInt32) (now : UInt32) : UInt32 :=
  match drawn with
  | some word => if word = 0 then now ||| 1 else word
  | none => now ||| 1

/-- The plan made from a registry that has been restitched. -/
def sessionPlan (self : RpcAddr) (registry : Registry) (tmpl : AssignLayers)
    (session : UInt32) : SessionPlan where
  self := self
  session := session
  slots := discoveryRingOrder registry maxWorkers
  ops :=
    setupOps registry (discoveryRingOrder registry maxWorkers) { tmpl with sessionId := session }

/-- The model half the master holds, and the request it serves.  `classify` is
`llama_head` followed by `sample`, which at temperature 0 is the argmax. -/
structure Generation where
  dim : UInt32
  embed : Int → Activation
  classify : Activation → Int
  prompt : List Int
  steps : Int

def shardLoadTimeoutTicks : UInt32 := 12000
def inferTokenTimeoutMs : Nat := 15000
def inferMaxRetries : Nat := 2

/-- The locals of `master_run_token` with those of the loop around it. -/
structure TokenFrame where
  pos : Nat
  token : Int
  head : RpcAddr
  x : Activation
  attempt : Nat
  deriving DecidableEq

/-- The loop that called `master_pump`. -/
inductive PumpCaller where
  | readiness
  | token (frame : TokenFrame) (waited : Nat)
  deriving DecidableEq

/-- The next step of the thread.  In `setup` the head of `todo` is the step
being done, with its call if one is under way. -/
inductive DriverPc where
  | setup (todo : List SetupOp) (call : Option RpcCall)
  | readiness
  | pump (caller : PumpCaller)
  | pumpCall (caller : PumpCaller) (call : RpcCall) (replies : List Outgoing)
  | pumpExpire (caller : PumpCaller)
  | tokenLoop (pos : Nat) (token : Int)
  | tokenSend (frame : TokenFrame)
  | tokenTest (frame : TokenFrame) (waited : Nat)
  | finished (result : Int)
  deriving DecidableEq

/-- The globals of the master, its socket and its thread.  `counted` are the
workers named by the reports that raised `g_ready_count`, `emitted` the tokens
of the generation so far. -/
structure Driver where
  discovery : Master
  queue : List Received
  nextXid : UInt32
  readyCount : Nat
  readyFailed : Bool
  counted : List UInt32
  waitStart : UInt32
  seq : UInt32
  finalSeq : UInt32
  finalX : Activation
  haveFinal : Bool
  emitted : List Int
  pc : DriverPc

/-- What the environment supplies to one step: the clock, the entropy, and
whether a blocked receive or a send fails. -/
structure Tick where
  now : UInt32
  entropy : Entropy
  timedOut : Bool
  sendFails : Bool
  deriving DecidableEq

inductive DriverEvent where
  | arrive (received : Received)
  | run (tick : Tick)
  deriving DecidableEq

def masterHandleShardReady (session : UInt32) (driver : Driver) (payload : List UInt8) : Driver :=
  if payload.length < ShardReady.size then driver
  else
    let report := ShardReady.decode payload
    if report.sessionId ≠ session then driver
    else if report.status ≠ 0 then
      { driver with readyFailed := true }
    else
      { driver with
        readyCount := driver.readyCount + 1
        counted := driver.counted ++ [report.workerId] }

def masterRingTail (self : RpcAddr) (registry : Registry) : Option Slot :=
  (List.finRange maxWorkers).find? fun i =>
    isActive registry i ∧ (registry i).next = self

def masterHandleFinal (plan : SessionPlan) (gen : Generation) (driver : Driver)
    (payload : List UInt8) (src : RpcAddr) : Driver :=
  match inferDecodeHop payload gen.dim plan.session with
  | none => driver
  | some (hop, staging) =>
    if ¬ hop.isFinal then driver
    else if hop.seq ≠ driver.finalSeq then driver
    else
      match masterRingTail plan.self driver.discovery.registry with
      | none => driver
      | some tail =>
        if src ≠ (driver.discovery.registry tail).info.addr then driver
        else
          { driver with finalX := staging, haveFinal := true }

/-- The call among the datagrams of a handler, if it makes one. -/
def callOf : List Outgoing → Option RpcRequest
  | [] => none
  | .call dst proc payload :: _ => some ⟨dst, proc, payload⟩
  | .reply .. :: rest => callOf rest

/-- `discovery_handle_call` inside the pump.  A handler that notifies a
neighbour blocks in `rpc_call` before it replies. -/
def pumpDiscovery (self : RpcAddr) (driver : Driver) (caller : PumpCaller) (msg : RpcMsg)
    (src : RpcAddr) (tick : Tick) : Driver × List Datagram :=
  let (discovery, outgoing) :=
    discoveryHandleCall self driver.discovery msg src tick.now tick.entropy
  match callOf outgoing with
  | some request =>
    ({ driver with
        discovery := discovery
        nextXid := driver.nextXid + 2
        pc := .pumpCall caller (RpcCall.start request driver.nextXid) (repliesOf outgoing) }, [])
  | none =>
    let (sent, nextXid) := sendAll self driver.nextXid outgoing
    ({ driver with
        discovery := discovery
        nextXid := nextXid
        pc := .pumpExpire caller }, sent)

def pumpDispatch (plan : SessionPlan) (gen : Generation) (driver : Driver)
    (caller : PumpCaller) (received : Received) (tick : Tick) :
    Driver × List Datagram :=
  match received.1 with
  | none => ({ driver with pc := .pumpExpire caller }, [])
  | some msg =>
    if msg.mtype ≠ .call then ({ driver with pc := .pumpExpire caller }, [])
    else if msg.proc = procShardReady then
      ({ masterHandleShardReady plan.session driver msg.payload with
          pc := .pumpExpire caller }, [])
    else if msg.proc = procInferReq then
      ({ masterHandleFinal plan gen driver msg.payload received.2 with
          pc := .pumpExpire caller }, [])
    else pumpDiscovery plan.self driver caller msg received.2 tick

/-- The step after a call of the setup has returned: the result of a
notification is ignored, a failed assignment ends the session. -/
def setupReturn (todo : List SetupOp) (result : RpcResult) : DriverPc :=
  match todo with
  | [] => .setup [] none
  | .assign _ :: rest => if result = .ok then .setup rest none else .finished (-2)
  | _ :: rest => .setup rest none

def setupNext (driver : Driver) (now : UInt32) : List SetupOp → Driver
  | [] => { driver with waitStart := now, pc := .readiness }
  | .reset :: rest =>
    { driver with
      readyCount := 0
      readyFailed := false
      counted := []
      pc := .setup rest none }
  | .refuse :: _ => { driver with pc := .finished (-2) }
  | .notify request :: rest =>
    { driver with
      nextXid := driver.nextXid + 2
      pc := .setup (.notify request :: rest) (some (RpcCall.start request driver.nextXid)) }
  | .assign request :: rest =>
    { driver with
      nextXid := driver.nextXid + 2
      pc := .setup (.assign request :: rest) (some (RpcCall.start request driver.nextXid)) }

def keepsWaiting (ringSize : Nat) (driver : Driver) (now : UInt32) : Bool :=
  driver.readyCount < ringSize ∧ ¬ driver.readyFailed ∧
    now - driver.waitStart < shardLoadTimeoutTicks

def afterReadiness (plan : SessionPlan) (gen : Generation) (driver : Driver) : DriverPc :=
  if driver.readyFailed then .finished (-2)
  else if driver.readyCount < plan.slots.length then .finished (-2)
  else .tokenLoop 0 (gen.prompt.headD 0)

def firstHop (plan : SessionPlan) (gen : Generation) (seq : UInt32) (pos : Nat) : InferHop where
  sessionId := plan.session
  seq := seq
  pos := UInt32.ofNat pos
  hop := 0
  nFloats := gen.dim
  flags := 0
  computeUs := 0

def nextToken (gen : Generation) (pos : Nat) (finalX : Activation) : Int :=
  if pos + 1 < gen.prompt.length then gen.prompt.getD (pos + 1) 0
  else gen.classify finalX

/-- The body of the generation loop behind a successful `master_run_token`. -/
def tokenAccepted (gen : Generation) (driver : Driver) (frame : TokenFrame) : Driver :=
  let next := nextToken gen frame.pos driver.finalX
  if next = 1 then
    { driver with pc := .finished 0 }
  else
    { driver with
      emitted := driver.emitted ++ [next]
      pc := .tokenLoop (frame.pos + 1) next }

/-- The slot of the first worker of the ring. -/
def headAddr (plan : SessionPlan) (registry : Registry) : RpcAddr :=
  (plan.slots.head?.map fun slot => (registry slot).info.addr).getD ⟨0, 0⟩

/-- One attempt of `master_run_token`. -/
def tokenSendStep (plan : SessionPlan) (gen : Generation) (driver : Driver)
    (frame : TokenFrame) : Driver × List Datagram :=
  if frame.attempt ≤ inferMaxRetries then
    let seq := driver.seq + 1
    ({ driver with
        seq := seq
        finalSeq := seq
        nextXid := driver.nextXid + 1
        pc := .pump (.token frame 0) },
      [⟨plan.self, frame.head, rpcFillCall driver.nextXid procInferReq
          (inferPayload (firstHop plan gen seq frame.pos) frame.x)⟩])
  else ({ driver with pc := .finished (-1) }, [])

/-- Where the thread goes when `master_pump` returns. -/
def pumpReturn : PumpCaller → DriverPc
  | .readiness => .readiness
  | .token frame waited => .tokenTest frame (waited + 200)

def driverRun (plan : SessionPlan) (gen : Generation) (driver : Driver)
    (tick : Tick) : Driver × List Datagram :=
  match driver.pc with
  | .setup todo none => (setupNext driver tick.now todo, [])
  | .setup todo (some call) =>
    let (progress, queue, sent) :=
      rpcCallStep plan.self call driver.queue tick.timedOut tick.sendFails
    ({ driver with
        queue := queue
        pc :=
          match progress with
          | .pending later => .setup todo (some later)
          | .returned result => setupReturn todo result }, sent)
  | .readiness =>
    ({ driver with
        pc :=
          if keepsWaiting plan.slots.length driver tick.now then .pump .readiness
          else afterReadiness plan gen driver }, [])
  | .pump caller =>
    match driver.queue with
    | [] =>
      ({ driver with
          pc :=
            if tick.timedOut then .pumpExpire caller
            else .pump caller }, [])
    | received :: rest => pumpDispatch plan gen { driver with queue := rest } caller received tick
  | .pumpCall caller call replies =>
    let (progress, queue, sent) :=
      rpcCallStep plan.self call driver.queue tick.timedOut tick.sendFails
    ({ driver with
        queue := queue
        pc :=
          match progress with
          | .pending later => .pumpCall caller later replies
          | .returned _ => .pumpExpire caller },
      match progress with
      | .pending _ => sent
      | .returned _ => (sendAll plan.self driver.nextXid replies).1)
  | .pumpExpire caller =>
    let (discovery, outgoing) := discoveryExpireWorkers driver.discovery tick.now
    let (sent, nextXid) := sendAll plan.self driver.nextXid outgoing
    ({ driver with
        discovery := discovery
        nextXid := nextXid
        pc := pumpReturn caller }, sent)
  | .tokenLoop pos token =>
    if pos < gen.steps then
      ({ driver with
          haveFinal := false
          pc :=
            .tokenSend
              { pos := pos
                token := token
                head := headAddr plan driver.discovery.registry
                x := gen.embed token
                attempt := 0 } }, [])
    else ({ driver with pc := .finished 0 }, [])
  | .tokenSend frame => tokenSendStep plan gen driver frame
  | .tokenTest frame waited =>
    if driver.haveFinal then (tokenAccepted gen driver frame, [])
    else
      ({ driver with
          pc :=
            if waited < inferTokenTimeoutMs then .pump (.token frame waited)
            else .tokenSend { frame with attempt := frame.attempt + 1 } },
        [])
  | .finished _ => (driver, [])

def driverStep (plan : SessionPlan) (gen : Generation) (driver : Driver) :
    DriverEvent → Driver × List Datagram
  | .arrive received => ({ driver with queue := driver.queue ++ [received] }, [])
  | .run tick => driverRun plan gen driver tick

/-- The thread without the datagrams it sends. -/
def driverNext (plan : SessionPlan) (gen : Generation) (driver : Driver)
    (event : DriverEvent) : Driver := (driverStep plan gen driver event).1

/-- `run_generation_session` up to its first blocking call.  It is given up at
once when no worker is active. -/
def startSession (self : RpcAddr) (driver : Driver) (tmpl : AssignLayers)
    (drawn : Option UInt32) (now : UInt32) :
    Option (SessionPlan × Driver) :=
  let (registry, n) := discoveryRestitchRing self driver.discovery.registry
  if n < 1 then none
  else
    let plan := sessionPlan self registry tmpl (freshSession drawn now)
    some (plan, { driver with
        discovery := { driver.discovery with registry := registry }
        emitted := []
        pc := .setup plan.ops none })

theorem freshSession_ne_zero (drawn : Option UInt32) (now : UInt32) :
    freshSession drawn now ≠ 0 := by
  have odd : now ||| 1 ≠ 0 := by
    intro isZero
    have lowest := congrArg (fun word : UInt32 => word.toNat.testBit 0) isZero
    simp [UInt32.toNat_or] at lowest
  cases drawn with
  | none => exact odd
  | some word =>
    unfold freshSession
    dsimp only
    split_ifs with isZero
    · exact odd
    · exact isZero

section Start

variable {self : RpcAddr} {before driver : Driver} {tmpl : AssignLayers}
variable {drawn : Option UInt32} {now : UInt32} {plan : SessionPlan}

theorem startSession_some
    (started : startSession self before tmpl drawn now = some (plan, driver)) :
    ∃ registry,
      registry = (discoveryRestitchRing self before.discovery.registry).1 ∧
      0 < (discoveryRestitchRing self before.discovery.registry).2 ∧
      plan = sessionPlan self registry tmpl (freshSession drawn now) ∧
      driver =
        { before with
          discovery := { before.discovery with registry := registry }
          emitted := []
          pc := .setup plan.ops none } := by
  unfold startSession at started
  dsimp only at started
  split_ifs at started with empty
  have outcome := Option.some.inj started
  have isPlan := congrArg Prod.fst outcome
  have isDriver := congrArg Prod.snd outcome
  dsimp only at isPlan isDriver
  rw [← isDriver, ← isPlan]
  exact ⟨_, rfl, by omega, rfl, rfl⟩

theorem startSession_plan
    (started : startSession self before tmpl drawn now = some (plan, driver)) :
    plan = sessionPlan self driver.discovery.registry tmpl (freshSession drawn now) ∧
      driver.pc = .setup plan.ops none ∧
      driver.queue = before.queue := by
  obtain ⟨registry, _, _, isPlan, isDriver⟩ := startSession_some started
  rw [isDriver]
  exact ⟨isPlan, rfl, rfl⟩

end Start

def ringMaster : RpcAddr :=
  ⟨0x0a000202, 5499⟩

def ringAddr (k : Nat) : RpcAddr :=
  ⟨0x0a000202, 6001 + UInt16.ofNat k⟩

def ringId (k : Nat) : UInt32 := 1 + UInt32.ofNat k

/-- The registry once `n` workers are active, before it is restitched. -/
def ringRegistry (n : Nat) : Registry := fun slot =>
  if slot.val < n then
    { WorkerEntry.empty with
      info :=
        { WorkerEntry.empty.info with
          workerId := ringId slot.val
          ip := (ringAddr slot.val).ip
          port := (ringAddr slot.val).port }
      state := .active }
  else WorkerEntry.empty

def ringTemplate (layers : UInt32) : AssignLayers where
  sessionId := 0
  modelId := 1
  layerStart := 0
  layerEnd := 0
  nLayersTotal := layers
  dim := 1
  hiddenDim := 1
  nHeads := 1
  nKvHeads := 1
  seqLen := 256
  vocabSize := 32
  maxSeq := shardDefaultMaxSeq.toNat.toUInt32
  weightsIp := 0
  weightsPort := 0

def ringGeneration : Generation where
  dim := 1
  embed := fun _ => [0]
  classify := fun _ => 2
  prompt := [1]
  steps := 1

def ringDriver (n : Nat) : Driver where
  discovery := { Master.init with registry := ringRegistry n }
  queue := []
  nextXid := 1
  readyCount := 0
  readyFailed := false
  counted := []
  waitStart := 0
  seq := 0
  finalSeq := 0
  finalX := []
  haveFinal := false
  emitted := []
  pc := .finished 0

/-- The session with epoch 1 over the ring, one layer for each worker. -/
def ringSession (n : Nat) : Option (SessionPlan × Driver) :=
  startSession ringMaster (ringDriver n) (ringTemplate (UInt32.ofNat n)) (some 1) 0

def ringPlan (n : Nat) : SessionPlan :=
  sessionPlan ringMaster (discoveryRestitchRing ringMaster (ringRegistry n)).1
    (ringTemplate (UInt32.ofNat n)) 1

def ringStart (n : Nat) : Driver :=
  { ringDriver n with
    discovery :=
      { Master.init with
        registry := (discoveryRestitchRing ringMaster (ringRegistry n)).1 }
    pc := .setup (ringPlan n).ops none }

def quietTick : Tick where
  now := 0
  entropy := []
  timedOut := false
  sendFails := false

def timeoutTick : Tick :=
  { quietTick with timedOut := true }

end LlmRuntime.DistInf
