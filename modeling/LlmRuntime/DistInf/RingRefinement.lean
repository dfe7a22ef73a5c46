import LlmRuntime.DistInf.RingReference
import LlmRuntime.DistInf.Readiness
import LlmRuntime.DistInf.TokenLoop

/-!
# The network makes no difference to a session

While the ring stays as it is, a session computes the pipeline of
`RingReference` whatever becomes of its hops.
-/

namespace LlmRuntime.DistInf

open Discovery Execution Pipeline Function

universe u

section Loop

variable {ι : Type} {Row : Type u} [DecidableEq ι]
variable (session : RingSession ι Row)

/-- The tokens that the session emits when every hop arrives once. -/
def losslessStream : List Int :=
  ((List.range session.cluster.gen.steps.toNat).map fun pos =>
    session.loop.token (pos + 1)).takeWhile fun token => token ≠ 1

/-- The loop has come to position `pos` as the pipeline does. -/
structure AtToken (known : ι → Nat → Prop) (pos : Nat) (token : Int)
    (emitted : List Int) : Prop where
  isToken : token = session.loop.token pos
  isStream : emitted = (List.range pos).map fun each => session.loop.token (each + 1)
  goesOn : ∀ each < pos, session.loop.token (each + 1) ≠ 1
  early : pos ≤ session.cluster.gen.steps.toNat
  room : pos ≤ 256
  rows : ∀ i ∈ session.ring, known i pos

/-- `master_run_token` has been called with what the pipeline is fed. -/
structure InToken (known : ι → Nat → Prop) (frame : TokenFrame) (emitted : List Int) : Prop where
  arrived : AtToken session known frame.pos frame.token emitted
  within : frame.pos < session.cluster.gen.steps
  head : frame.head = session.stageAddr 0
  embeds : frame.x = session.cluster.gen.embed frame.token

/-- The activation is what comes out of the pipeline at position `pos`, and
every worker has stored its row. -/
structure TokenDone (known : ι → Nat → Prop) (pos : Nat) (x : Activation) : Prop where
  isOutput : x = session.loop.output pos
  inside : pos < 256
  rows : ∀ i ∈ session.ring, known i (pos + 1)

/-- The loop is where the pipeline is.  Three attempts are made for a token at
most, so their numbers do not wrap around. -/
def LoopRight (known : ι → Nat → Prop) (log : List Nat) (vars : TokenVars) :
    TokenPhase → Prop
  | .outside => False
  | .between pos token => AtToken session known pos token vars.emitted ∧ log.length ≤ 3 * pos
  | .sending frame =>
    InToken session known frame vars.emitted ∧
      log.length ≤ 3 * frame.pos + frame.attempt ∧
      frame.attempt ≤ 3 ∧ vars.haveFinal = false
  | .waiting frame =>
    InToken session known frame vars.emitted ∧
      log.length ≤ 3 * frame.pos + frame.attempt + 1 ∧
      frame.attempt ≤ 2 ∧ log.getLast? = some frame.pos ∧
      vars.finalSeq = vars.seq ∧
      (vars.haveFinal = true → TokenDone session known frame.pos vars.finalX)
  | .ended result => result = 0 → vars.emitted = losslessStream session

/-- The position that the next step makes an attempt for. -/
def attemptOf : DriverPc → List Nat
  | .tokenSend frame => if frame.attempt ≤ inferMaxRetries then [frame.pos] else []
  | _ => []

variable {session}
variable {known more : ι → Nat → Prop} {log : List Nat}

variable {emitted : List Int} {pos : Nat} {token : Int}

section Grows

variable (grows : ∀ i ∈ session.ring, ∀ count, known i count → more i count)

include grows

theorem AtToken.mono (arrived : AtToken session known pos token emitted) :
    AtToken session more pos token emitted :=
  { arrived with
    rows := fun i member => grows i member _ (arrived.rows i member) }

theorem InToken.mono {frame : TokenFrame} (inside : InToken session known frame emitted) :
    InToken session more frame emitted :=
  { inside with arrived := inside.arrived.mono grows }

theorem TokenDone.mono {x : Activation} (done : TokenDone session known pos x) :
    TokenDone session more pos x :=
  { done with
    rows := fun i member => grows i member _ (done.rows i member) }

theorem LoopRight.mono {vars : TokenVars} {phase : TokenPhase}
    (right : LoopRight session known log vars phase) :
    LoopRight session more log vars phase := by
  cases phase with
  | outside => exact right
  | between | sending => exact ⟨right.1.mono grows, right.2⟩
  | waiting frame =>
    obtain ⟨inside, count, attempts, last, inFlight, done⟩ := right
    exact ⟨inside.mono grows, count, attempts, last, inFlight,
      fun accepted => (done accepted).mono grows⟩
  | ended result => exact right

end Grows

theorem AtToken.emitted_goesOn (arrived : AtToken session known pos token emitted) :
    ∀ each ∈ emitted, decide (each ≠ 1) = true := by
  intro each isEach
  rw [arrived.isStream] at isEach
  obtain ⟨index, inRange, isToken⟩ := List.mem_map.mp isEach
  rw [← isToken]
  exact decide_eq_true (arrived.goesOn index (List.mem_range.mp inRange))

theorem AtToken.complete (arrived : AtToken session known pos token emitted)
    (done : ¬ pos < session.cluster.gen.steps) :
    emitted = losslessStream session := by
  have early := arrived.early
  have isEnd : pos = session.cluster.gen.steps.toNat := by omega
  have whole : emitted.takeWhile (fun token => decide (token ≠ 1)) = emitted := by
    have passes :
        (emitted ++ []).takeWhile (fun token => decide (token ≠ 1)) =
          emitted ++ [].takeWhile (fun token => decide (token ≠ 1)) :=
      List.takeWhile_append_of_pos arrived.emitted_goesOn
    rw [List.append_nil, List.takeWhile_nil, List.append_nil] at passes
    exact passes
  rw [losslessStream, ← isEnd, ← arrived.isStream]
  exact whole.symm

theorem AtToken.stop (arrived : AtToken session known pos token emitted)
    (within : pos < session.cluster.gen.steps) (isEnd : session.loop.token (pos + 1) = 1) :
    emitted = losslessStream session := by
  obtain ⟨fewer, isSum⟩ : ∃ fewer, session.cluster.gen.steps.toNat = pos + (fewer + 1) := by
    refine ⟨session.cluster.gen.steps.toNat - pos - 1, ?_⟩
    omega
  rw [losslessStream, isSum, List.range_add, List.map_append, ← arrived.isStream,
    List.takeWhile_append_of_pos arrived.emitted_goesOn, List.range_succ_eq_map, List.map_cons,
    List.map_cons, List.takeWhile_cons_of_neg, List.append_nil]
  rw [Nat.add_zero, isEnd]
  decide

theorem InToken.advance {frame : TokenFrame} {x : Activation}
    (inside : InToken session known frame emitted) (done : TokenDone session known frame.pos x)
    (goesOn : nextToken session.cluster.gen frame.pos x ≠ 1) :
    AtToken session known (frame.pos + 1) (nextToken session.cluster.gen frame.pos x)
      (emitted ++ [nextToken session.cluster.gen frame.pos x]) := by
  have isNext : nextToken session.cluster.gen frame.pos x = session.loop.token (frame.pos + 1) := by
    rw [done.isOutput, Loop.token_succ]
    rfl
  have within := inside.within
  have room := done.inside
  refine ⟨isNext, ?_, ?_, by omega, by omega, done.rows⟩
  · rw [List.range_succ, List.map_append, ← inside.arrived.isStream, isNext]
    rfl
  · intro each before
    rcases Nat.lt_succ_iff_lt_or_eq.mp before with earlier | isLast
    · exact inside.arrived.goesOn each earlier
    · rw [isLast, ← isNext]
      exact goesOn

section Moves

variable {base : UInt32} {driver later : Driver}

theorem attempt_unique (base : UInt32) {first second : Nat} (small : first < 2 ^ 32)
    (small' : second < 2 ^ 32) (same : base + UInt32.ofNat first = base + UInt32.ofNat second) :
    first = second := by
  have words : UInt32.ofNat first = UInt32.ofNat second := by
    have cancelled := congrArg (fun word => word - base) same
    simpa [UInt32.add_sub_cancel, UInt32.add_comm base] using cancelled
  have numbers := congrArg UInt32.toNat words
  rw [UInt32.toNat_ofNat_of_lt' small, UInt32.toNat_ofNat_of_lt' small'] at numbers
  exact numbers

theorem attemptOf_silent {pc : DriverPc} (notSending : ∀ frame, pc ≠ .tokenSend frame) :
    attemptOf pc = [] := by
  cases pc with
  | tokenSend frame => exact absurd rfl (notSending frame)
  | _ => rfl

/-- The loop is where the pipeline is, and `log` has its attempts. -/
structure LoopAt (session : RingSession ι Row) (known : ι → Nat → Prop)
    (base : UInt32) (log : List Nat) (driver : Driver) : Prop where
  isSeq : driver.seq = base + UInt32.ofNat log.length
  right : LoopRight session known log driver.tokenVars (tokenPhase driver.pc)

theorem LoopAt.silent (holds : LoopAt session known base log driver)
    (noAttempt : attemptOf driver.pc = []) {phase : TokenPhase} {vars : TokenVars}
    (isPhase : tokenPhase later.pc = phase) (isVars : later.tokenVars = vars)
    (sameSeq : vars.seq = driver.seq) (right : LoopRight session known log vars phase) :
    LoopAt session known base (log ++ attemptOf driver.pc) later := by
  rw [noAttempt, List.append_nil]
  rw [← isPhase, ← isVars] at right
  rw [← isVars] at sameSeq
  exact ⟨sameSeq.trans holds.isSeq, right⟩

theorem LoopAt.sends {frame : TokenFrame} (holds : LoopAt session known base log driver)
    (atPc : driver.pc = .tokenSend frame) (within : frame.attempt ≤ inferMaxRetries)
    (phase : tokenPhase later.pc = .waiting frame) (vars : later.tokenVars = { driver.tokenVars with
          seq := driver.seq + 1
          finalSeq := driver.seq + 1 }) :
    LoopAt session known base (log ++ attemptOf driver.pc) later := by
  have right := holds.right
  rw [atPc] at right
  obtain ⟨inside, count, attempts, noFinal⟩ := right
  have logs : attemptOf driver.pc = [frame.pos] := by
    rw [atPc]
    exact if_pos within
  have isSeq : later.seq = driver.seq + 1 := congrArg TokenVars.seq vars
  rw [logs]
  refine ⟨?_, ?_⟩
  · rw [isSeq, holds.isSeq, List.length_append, List.length_singleton,
      UInt32.ofNat_add, UInt32.add_assoc]
    rfl
  · rw [phase, vars]
    refine ⟨inside, ?_, within, List.getLast?_concat, rfl, ?_⟩
    · rw [List.length_append, List.length_singleton]
      omega
    · intro accepted
      rw [noFinal] at accepted
      cases accepted

theorem TokenMove.loopAt (move : TokenMove session.cluster.plan session.cluster.gen driver later)
    (holds : LoopAt session known base log driver)
    (heads : ∀ pos token, driver.pc = .tokenLoop pos token →
        headAddr session.cluster.plan driver.discovery.registry = session.stageAddr 0)
    (finals : ∀ caller received rest staging frame, driver.pc = .pump caller →
        driver.queue = received :: rest →
        AcceptsFinal session.cluster.plan session.cluster.gen driver received staging →
        tokenPhase driver.pc = .waiting frame →
        TokenDone session known frame.pos staging) :
    LoopAt session known base (log ++ attemptOf driver.pc) later := by
  have right := holds.right
  cases move with
  | rests _ notSending phase vars =>
    exact holds.silent (attemptOf_silent notSending) phase vars rfl right
  | enters _ isOutside noFrame vars =>
    rw [isOutside] at right
    exact right.elim
  | begins pos token _ atPc within phase vars =>
    rw [atPc] at right
    exact holds.silent (by rw [atPc]; rfl) phase vars rfl
      ⟨⟨right.1, within, heads pos token atPc, rfl⟩, right.2, Nat.zero_le 3, rfl⟩
  | completes pos token _ atPc done phase vars =>
    rw [atPc] at right
    exact holds.silent (by rw [atPc]; rfl) phase vars rfl fun _ => right.1.complete done
  | sends frame _ atPc within phase vars => exact holds.sends atPc within phase vars
  | givesUp frame _ atPc exhausted phase vars =>
    have noAttempt : attemptOf driver.pc = [] := by
      rw [atPc]
      exact if_neg exhausted
    exact holds.silent noAttempt phase vars rfl fun isZero => absurd isZero (by decide)
  | accepts caller received rest staging _ atPc isQueue accepted phase
      vars =>
    cases caller with
    | readiness =>
      rw [atPc] at right
      exact right.elim
    | token frame waited =>
      have isWaiting : tokenPhase driver.pc = .waiting frame := by
        rw [atPc]
        rfl
      rw [isWaiting] at right phase
      obtain ⟨inside, count, attempts, last, inFlight, _⟩ := right
      exact holds.silent (by rw [atPc]; rfl) phase vars rfl
        ⟨inside, count, attempts, last, inFlight, fun _ =>
          finals _ received rest staging frame atPc isQueue accepted isWaiting⟩
  | advances frame waited _ atPc accepted goesOn phase vars =>
    rw [atPc] at right
    obtain ⟨inside, count, attempts, last, inFlight, done⟩ := right
    refine holds.silent (by rw [atPc]; rfl) phase vars rfl
      ⟨inside.advance (done accepted) goesOn, ?_⟩
    omega
  | stops frame waited _ atPc accepted isEnd phase vars =>
    rw [atPc] at right
    obtain ⟨inside, count, attempts, last, inFlight, done⟩ := right
    refine holds.silent (by rw [atPc]; rfl) phase vars rfl fun _ => ?_
    refine inside.arrived.stop inside.within ?_
    rw [Loop.token_succ, ← (done accepted).isOutput]
    exact isEnd
  | retries frame waited _ atPc noFinal phase vars =>
    rw [atPc] at right
    obtain ⟨inside, count, attempts, last, inFlight, done⟩ := right
    exact holds.silent (by rw [atPc]; rfl) phase vars rfl
      ⟨⟨inside.arrived, inside.within, inside.head, inside.embeds⟩,
        count, Nat.succ_le_succ attempts, noFinal⟩

end Moves

end Loop

/-! ## The whole cluster -/

section Cluster

variable {ι : Type} {Row : Type u} [DecidableEq ι]
variable (session : RingSession ι Row)

/-- Worker `i`, behind `k` others in the ring, has its shard loaded, is in the
session and knows its successor; no assignment is under way to it. -/
structure ServesStage (k : Nat) (i : ι) (worker : Worker Row) : Prop where
  inSession : worker.session = session.epoch
  next : worker.next = session.stageAddr (k + 1)
  settled : HoldsOnly (fun _ => False) worker
  loaded : ∃ shard, worker.shard = some shard ∧ ShardServes session i shard

/-- The payload holds no hop of the session. -/
def PayloadForeign (payload : List UInt8) : Prop :=
  ∀ dim live hop x, inferDecodeHop payload dim live = some (hop, x) → hop.sessionId ≠ session.epoch

def idleChecks : HopChecks where
  arrived := fun _ hop _ => hop.sessionId ≠ session.epoch
  decoded := fun _ _ _ => False
  admitted := fun _ _ _ => False
  accepted := fun _ _ => False
  passed := fun _ _ => False

/-- The master is about to run the first token over a ring that is loaded and
linked.  The caches, the counters and the rest of the network are arbitrary, but
nothing of the session has been sent. -/
structure Serving (state : ClusterState ι Row) : Prop where
  begins : state.driver.pc = .tokenLoop 0 (session.cluster.gen.prompt.headD 0)
  emitted : state.driver.emitted = []
  hops :
    ∀ sent ∈ state.wire, sent.msg.mtype = .call →
      sent.msg.proc = procInferReq → PayloadForeign session sent.msg.payload
  queue :
    ∀ received ∈ state.driver.queue, ∀ msg, received.1 = some msg →
      msg.mtype = .call → msg.proc = procInferReq → PayloadForeign session msg.payload
  serves : ∀ k i, session.ring[k]? = some i → ServesStage session k i (state.worker i)
  idle : ∀ i ∈ session.ring, HopsOk (idleChecks session) (state.worker i)
  strangers : ∀ i, i ∉ session.ring → HopsOk (strangerChecks session) (state.worker i)

/-- The ring stays as it is: the slot that heads it keeps its address, and no
worker of the ring is given layers or neighbours. -/
def ringSteady (state : ClusterState ι Row) : ClusterEvent ι → Bool
  | .master _ =>
    match state.driver.pc with
    | .tokenLoop _ _ =>
      decide (headAddr session.cluster.plan state.driver.discovery.registry = session.stageAddr 0)
    | _ => true
  | .worker i event => decide (i ∈ session.ring → Undisturbed event)
  | .repoint i _ _ => decide (i ∉ session.ring)
  | _ => true

/-- A hop of the session is right, and on its way to the worker or the master
it has to come to next. -/
def PayloadRight (known : ι → Nat → Prop) (base : UInt32) (log : List Nat)
    (dst : RpcAddr) (payload : List UInt8) : Prop :=
  ∀ dim live hop x,
    inferDecodeHop payload dim live = some (hop, x) → hop.sessionId = session.epoch →
        ∃ k ≤ session.ring.length, dst = session.stageAddr k ∧
          StageHop session known base log k hop x

structure RefineInvariant (base : UInt32) (log : List Nat) (state : ClusterState ι Row) : Prop where
  fits : CallFits state.driver.pc
  hops :
    ∀ sent ∈ state.wire, sent.msg.mtype = .call → sent.msg.proc = procInferReq →
        PayloadRight session (RowsKnown session state.worker) base log sent.dst sent.msg.payload
  queue :
    ∀ received ∈ state.driver.queue, ∀ msg, received.1 = some msg →
      msg.mtype = .call → msg.proc = procInferReq →
        PayloadRight session (RowsKnown session state.worker) base log
          session.cluster.plan.self msg.payload
  serves : ∀ k i, session.ring[k]? = some i → ServesStage session k i (state.worker i)
  tracked :
    ∀ k i, session.ring[k]? = some i →
      HopsOk (stageChecks session (RowsKnown session state.worker) base log k) (state.worker i)
  strangers : ∀ i, i ∉ session.ring → HopsOk (strangerChecks session) (state.worker i)
  loop : LoopAt session (RowsKnown session state.worker) base log state.driver

variable {session}
variable {base : UInt32} {log : List Nat} {state : ClusterState ι Row}
variable {known more : ι → Nat → Prop}

theorem PayloadRight.mono {dst : RpcAddr} {payload : List UInt8}
    (right : PayloadRight session known base log dst payload)
    (grows : ∀ i ∈ session.ring, ∀ count, known i count → more i count) (extra : List Nat) :
    PayloadRight session more base (log ++ extra) dst payload := by
  intro dim live hop x decoded isSession
  obtain ⟨k, bound, isDst, stage⟩ := right dim live hop x decoded isSession
  exact ⟨k, bound, isDst, stage.mono grows extra⟩

theorem RefineInvariant.initially (start : Serving session state) :
    RefineInvariant session state.driver.seq [] state := by
  refine ⟨?_, ?_, ?_, start.serves, ?_, start.strangers, ?_, ?_⟩
  · rw [start.begins]
    trivial
  · intro sent isSent isCall isHop dim live hop x decoded isSession
    exact absurd isSession (start.hops sent isSent isCall isHop dim live hop x decoded)
  · intro received isQueued msg isMsg isCall isHop dim live hop x decoded isSession
    exact absurd isSession
      (start.queue received isQueued msg isMsg isCall isHop dim live hop x decoded)
  · intro k i isWorker
    exact (start.idle i (List.mem_of_getElem? isWorker)).mono
      (fun _ _ _ foreign isSession => absurd isSession foreign)
      (fun _ _ _ => False.elim) (fun _ _ _ => False.elim)
      (fun _ _ => False.elim) (fun _ _ => False.elim)
  · exact (UInt32.add_zero _).symm
  · rw [start.begins]
    refine ⟨⟨rfl, start.emitted, ?_, Nat.zero_le _, Nat.zero_le _, ?_⟩, Nat.zero_le _⟩
    · intro each before
      exact absurd before (Nat.not_lt_zero each)
    · intro i member
      obtain ⟨k, isWorker⟩ := List.mem_iff_getElem?.mp member
      obtain ⟨shard, resident, shardServes⟩ := (start.serves k i isWorker).loaded
      exact ⟨shard, resident, Loop.Agrees.zero⟩

theorem RefineInvariant.receives
    (invariant : RefineInvariant session base log state) {received : Received}
    (isSent : ∀ msg, received.1 = some msg →
        ⟨received.2, session.cluster.plan.self, msg⟩ ∈ state.wire) :
    RefineInvariant session base log (masterReceives session.cluster state received) := by
  refine ⟨invariant.fits, invariant.hops, ?_, invariant.serves,
    invariant.tracked, invariant.strangers, invariant.loop.isSeq,
    invariant.loop.right⟩
  intro each isQueued msg isMsg isCall isHop
  rcases List.mem_append.mp isQueued with isOld | isNew
  · exact invariant.queue each isOld msg isMsg isCall isHop
  · rw [List.mem_singleton.mp isNew] at isMsg
    exact invariant.hops _ (isSent msg isMsg) isCall isHop

theorem RefineInvariant.final (invariant : RefineInvariant session base log state)
    {received : Received} {rest : List Received} {staging : Activation} {frame : TokenFrame}
    (isQueue : state.driver.queue = received :: rest)
    (accepted : AcceptsFinal session.cluster.plan session.cluster.gen state.driver received staging)
    (isWaiting : tokenPhase state.driver.pc = .waiting frame) :
    TokenDone session (RowsKnown session state.worker) frame.pos staging := by
  obtain ⟨msg, hop, tail, isMsg, isCall, isHop, decoded, sameSeq, isTail, isSource⟩ := accepted
  have isQueued : received ∈ state.driver.queue := by
    rw [isQueue]
    exact List.mem_cons_self
  have isSession := (inferDecodeHop_some decoded).2 session.nonzero
  obtain ⟨k, bound, isMaster, stage⟩ :=
    invariant.queue received isQueued msg isMsg isCall isHop _ _ hop staging decoded isSession
  have isLast : k = session.ring.length :=
    Nat.le_antisymm bound (RingSession.stageAddr_master isMaster.symm)
  have right := invariant.loop.right
  rw [isWaiting] at right
  obtain ⟨inside, count, attempts, last, inFlight, _⟩ := right
  have room := inside.arrived.room
  -- the number of the attempt in flight is that of the last one made
  obtain ⟨index, isPos, isSeq⟩ := stage.logged
  have indexBound := (List.getElem?_eq_some_iff.mp isPos).1
  have inFlight' : state.driver.finalSeq = state.driver.seq := inFlight
  have sameIndex : index + 1 = log.length := by
    refine attempt_unique base (by omega) (by omega) ?_
    rw [← isSeq, sameSeq, inFlight']
    exact invariant.loop.isSeq
  have samePos : hop.pos.toNat = frame.pos := by
    rw [List.getLast?_eq_getElem?] at last
    have isIndex : log.length - 1 = index := by omega
    rw [isIndex, isPos] at last
    exact Option.some.inj last
  have positive : 0 < k := by
    rw [isLast]
    exact session.nonempty
  refine ⟨?_, ?_, ?_⟩
  · rw [← samePos, stage.value, isLast]
    rfl
  · rw [← samePos]
    exact stage.inside positive
  · intro i member
    obtain ⟨j, isWorker⟩ := List.mem_iff_getElem?.mp member
    rw [← samePos]
    refine stage.stored j i ?_ isWorker
    rw [isLast]
    exact (List.getElem?_eq_some_iff.mp isWorker).1

theorem RefineInvariant.masterSends
    (invariant : RefineInvariant session base log state) {sent : Datagram}
    (sends : DriverSends session.cluster.plan session.cluster.gen state.driver sent)
    (isCall : sent.msg.mtype = .call) (isHop : sent.msg.proc = procInferReq) :
    PayloadRight session (RowsKnown session state.worker) base
      (log ++ attemptOf state.driver.pc) sent.dst sent.msg.payload := by
  cases sends with
  | reply sent fromMaster isReply =>
    rw [isReply] at isCall
    cases isCall
  | notify dst xid payload =>
    have other : procSetNeighbor = procInferReq := isHop
    exact absurd other (by decide)
  | evict dst xid payload =>
    have other : procEvict = procInferReq := isHop
    exact absurd other (by decide)
  | setup todo call atPc =>
    have right := invariant.loop.right
    rw [atPc] at right
    exact right.elim
  | hop frame atPc within =>
    have right := invariant.loop.right
    rw [atPc] at right
    obtain ⟨inside, count, attempts, noFinal⟩ := right
    have room := inside.arrived.room
    intro dim live hop x decoded isSession
    obtain ⟨sameHop, sameX⟩ := inferDecodeHop_sent decoded
    have isPos : hop.pos.toNat = frame.pos := by
      rw [sameHop]
      exact UInt32.toNat_ofNat_of_lt' (Nat.lt_of_le_of_lt room (by decide))
    have isSeq : hop.seq = state.driver.seq + 1 := by
      rw [sameHop]
      rfl
    have logs : attemptOf state.driver.pc = [frame.pos] := by
      rw [atPc]
      exact if_pos within
    refine ⟨0, Nat.zero_le _, inside.head, ?_⟩
    refine ⟨?_, ⟨log.length, ?_, ?_⟩, ?_, ?_, ?_⟩
    · rw [sameX, isPos, Loop.carried_zero, inside.embeds, inside.arrived.isToken]
      rfl
    · rw [logs, isPos]
      exact List.getElem?_concat_length
    · rw [isSeq, invariant.loop.isSeq, UInt32.ofNat_add, UInt32.add_assoc]
      rfl
    · rw [isPos]
      exact inside.arrived.rows
    · intro j i before
      exact absurd before (Nat.not_lt_zero j)
    · intro impossible
      exact absurd impossible (Nat.lt_irrefl 0)

theorem RefineInvariant.masterActs
    (invariant : RefineInvariant session base log state) {tick : Tick}
    (heads : ∀ pos token, state.driver.pc = .tokenLoop pos token →
        headAddr session.cluster.plan state.driver.discovery.registry = session.stageAddr 0) :
    RefineInvariant session base (log ++ attemptOf state.driver.pc)
      (masterActs session.cluster state tick) := by
  have grows :
      ∀ i ∈ session.ring, ∀ count,
        RowsKnown session state.worker i count → RowsKnown session state.worker i count :=
    fun _ _ _ known => known
  refine ⟨driverRun_callFits invariant.fits, ?_, ?_, invariant.serves, ?_, invariant.strangers, ?_⟩
  · intro sent isSent isCall isHop
    rcases List.mem_append.mp isSent with isOld | isNew
    · exact (invariant.hops sent isOld isCall isHop).mono grows _
    · exact invariant.masterSends (driverRun_sent invariant.fits sent isNew) isCall isHop
  · intro received isQueued msg isMsg isCall isHop
    exact (invariant.queue received
      (driverRun_queue invariant.fits received isQueued) msg isMsg isCall
      isHop).mono grows _
  · intro k i isWorker
    exact (invariant.tracked k i isWorker).stageMono grows _
  · refine (driverRun_tokenMove invariant.fits).loopAt invariant.loop heads ?_
    intro caller received rest staging frame atPc isQueue accepted isWaiting
    exact invariant.final isQueue accepted isWaiting

section Worker

variable {k : Nat} {i : ι} {event : WorkerEvent}

/-- A pass that worker `i` makes: its hop is right, and so is what comes out. -/
structure PassRight (session : RingSession ι Row) (known : ι → Nat → Prop)
    (base : UInt32) (log : List Nat) (k : Nat) (i : ι) (hop : InferHop)
    (x result : Activation) (shard after : Shard Row) : Prop where
  isSession : hop.sessionId = session.epoch
  input : StageHop session known base log k hop x
  serves : ShardServes session i after
  inside : hop.pos.toNat < 256
  rows : session.loop.Agrees i shard.kv hop.pos.toNat
  output : (session.cluster.kernel i).tamper result = session.loop.carried hop.pos.toNat (k + 1)
  written :
    after.kv =
      update shard.kv hop.pos.toNat
        (session.loop.stage i (session.loop.carried hop.pos.toNat k)
          hop.pos.toNat (session.loop.rows hop.pos.toNat i)).2

theorem workerActs_shard (state : ClusterState ι Row) (i : ι) (event : WorkerEvent) :
    ((workerActs session.cluster state i event).worker i).shard =
      (workerStep (session.cluster.workerSelf i) (session.cluster.kernel i)
        (state.worker i) event).1.shard := congrArg Worker.shard (update_self _ _ _)

theorem workerActs_other (state : ClusterState ι Row) {i j : ι}
    (event : WorkerEvent) (other : j ≠ i) :
    (workerActs session.cluster state i event).worker j = state.worker j := update_of_ne other _ _

omit [DecidableEq ι] in
theorem ServesStage.workerStep {worker : Worker Row} (serves : ServesStage session k i worker)
    (undisturbed : Undisturbed event) :
    ServesStage session k i
      (workerStep (session.cluster.workerSelf i) (session.cluster.kernel i) worker event).1 := by
  have keeps : StepKeeps (session.cluster.kernel i) worker
      (DistInf.workerStep (session.cluster.workerSelf i)
        (session.cluster.kernel i) worker event).1 event :=
    workerStep_keeps serves.settled undisturbed
  obtain ⟨shard, resident, shardServes⟩ := serves.loaded
  refine ⟨keeps.session.trans serves.inSession, keeps.next.trans serves.next,
    workerStep_settled serves.settled undisturbed, ?_⟩
  rcases keeps.shard with unchanged | ⟨hop, x, before, after, result, forwards, isAfter⟩
  · exact ⟨shard, unchanged.trans resident, shardServes⟩
  · rw [Option.some.inj (resident.symm.trans forwards.resident)] at shardServes
    exact ⟨after, isAfter, (shardServes.forward forwards.pass).1⟩

theorem PayloadRight.grow {dst : RpcAddr} {payload : List UInt8}
    (right : PayloadRight session known base log dst payload)
    (grows : ∀ i ∈ session.ring, ∀ count, known i count → more i count) :
    PayloadRight session more base log dst payload := by
  have later := right.mono grows []
  rwa [List.append_nil] at later

theorem HopsOk.stageGrow {worker : Worker Row}
    (tracked : HopsOk (stageChecks session known base log k) worker)
    (grows : ∀ i ∈ session.ring, ∀ count, known i count → more i count) :
    HopsOk (stageChecks session more base log k) worker := by
  have later := tracked.stageMono grows []
  rwa [List.append_nil] at later

theorem rowsKnown_replace (outside : i ∉ session.ring) (later : Worker Row) :
    ∀ j ∈ session.ring, ∀ count,
      RowsKnown session state.worker j count →
        RowsKnown session (update state.worker i later) j count := by
  intro j member count known
  obtain ⟨shard, resident, agrees⟩ := known
  refine ⟨shard, ?_, agrees⟩
  have different : j ≠ i := fun same => outside (same ▸ member)
  rw [update_of_ne different]
  exact resident

section Invariant

variable (invariant : RefineInvariant session base log state)

include invariant

theorem RefineInvariant.passRight (isWorker : session.ring[k]? = some i)
    {hop : InferHop} {x result : Activation} {shard after : Shard Row} (forwards :
      Forwards (session.cluster.kernel i) (state.worker i) event hop x shard after result) :
    PassRight session (RowsKnown session state.worker) base log k i hop x result shard after := by
  have accepted := (invariant.tracked k i isWorker).infer
  rw [forwards.atPc] at accepted
  have serves : ShardServes session i shard := by
    obtain ⟨loaded, isLoaded, shardServes⟩ := (invariant.serves k i isWorker).loaded
    rw [← Option.some.inj (isLoaded.symm.trans forwards.resident)]
    exact shardServes
  have rows : session.loop.Agrees i shard.kv hop.pos.toNat := by
    obtain ⟨known, isKnown, agrees⟩ := accepted.2.reached i (List.mem_of_getElem? isWorker)
    rw [← Option.some.inj (isKnown.symm.trans forwards.resident)]
    exact agrees
  obtain ⟨serves', inside⟩ := serves.forward forwards.pass
  obtain ⟨output, written⟩ := accepted.2.forward isWorker serves rows forwards.pass
  exact ⟨accepted.1, accepted.2, serves', inside, rows, output, written⟩

theorem RefineInvariant.rowsGrow
    (isWorker : session.ring[k]? = some i) (undisturbed : Undisturbed event) :
    ∀ j ∈ session.ring, ∀ count,
      RowsKnown session state.worker j count →
        RowsKnown session (workerActs session.cluster state i event).worker j count := by
  intro j member count known
  obtain ⟨shard, resident, agrees⟩ := known
  by_cases same : j = i
  swap
  · refine ⟨shard, ?_, agrees⟩
    rw [workerActs_other state event same]
    exact resident
  rw [same] at resident agrees ⊢
  have settled := (invariant.serves k i isWorker).settled
  rcases (workerStep_keeps settled undisturbed).shard with
    unchanged | ⟨hop, x, before, after, result, forwards, isAfter⟩
  · refine ⟨shard, ?_, agrees⟩
    rw [workerActs_shard, unchanged]
    exact resident
  · refine ⟨after, (workerActs_shard state i event).trans isAfter, ?_⟩
    have isShard : before = shard := Option.some.inj (forwards.resident.symm.trans resident)
    rw [(invariant.passRight isWorker forwards).written, isShard]
    exact agrees.update isWorker

theorem RefineInvariant.passes
    (isWorker : session.ring[k]? = some i) (undisturbed : Undisturbed event)
    {hop : InferHop} {x result : Activation} {shard after : Shard Row} (forwards :
      Forwards (session.cluster.kernel i) (state.worker i) event hop x shard after result) :
    StageHop session (RowsKnown session (workerActs session.cluster state i event).worker)
      base log (k + 1) hop
      ((session.cluster.kernel i).tamper result) := by
  have pass := invariant.passRight isWorker forwards
  have grows := invariant.rowsGrow isWorker undisturbed
  have input := pass.input
  refine ⟨pass.output, input.logged, ?_, ?_, fun _ => pass.inside⟩
  · intro j member
    exact grows j member _ (input.reached j member)
  · intro j other before isOther
    rcases Nat.lt_succ_iff_lt_or_eq.mp before with earlier | isOwn
    · exact grows other (List.mem_of_getElem? isOther) _ (input.stored j other earlier isOther)
    · rw [isOwn, isWorker] at isOther
      rw [← Option.some.inj isOther]
      refine ⟨after, ?_, ?_⟩
      · rw [workerActs_shard]
        exact forwards.workerStep_shard
      · rw [pass.written]
        exact pass.rows.store isWorker

theorem RefineInvariant.rules (isWorker : session.ring[k]? = some i)
    (undisturbed : Undisturbed event) (deliverable : Deliverable session.cluster state i event) :
    HopRules
      (stageChecks session (RowsKnown session
          (workerActs session.cluster state i event).worker)
        base log k)
      (session.cluster.workerSelf i) (session.cluster.kernel i)
      (state.worker i) event := by
  have grows := invariant.rowsGrow isWorker undisturbed
  refine ⟨?_, ?_, ?_, ?_, ?_⟩
  · intro msg src isDeliver isCall isHop dim live hop x decoded isSession
    rw [isDeliver] at deliverable
    obtain ⟨j, bound, isAddr, stage⟩ :=
      invariant.hops _ deliverable isCall isHop dim live hop x decoded isSession
    have isIndex := RingSession.stageAddr_inj isAddr.symm
    rw [index_unique session.distinct isIndex isWorker] at stage
    have later := stage.mono grows []
    rwa [List.append_nil] at later
  · intro src payload dim hop x decoded arrived
    rw [(invariant.serves k i isWorker).inSession] at decoded
    have isSession := (inferDecodeHop_some decoded).2 session.nonzero
    exact ⟨isSession, arrived isSession⟩
  · intro src hop x ready decoded
    exact decoded
  · intro src hop x isListen atPc fromNeighbor admitted
    exact admitted
  · intro fetch fwdUs hop x shard result after isInfer atPc resident pass accepted
    have forwards :
        Forwards (session.cluster.kernel i) (state.worker i) event hop x shard after result :=
      ⟨⟨fetch, fwdUs, isInfer⟩, atPc, resident, pass⟩
    exact ⟨accepted.1, invariant.passes isWorker undisturbed forwards⟩

theorem RefineInvariant.workerSends (isWorker : session.ring[k]? = some i) {sent : Outgoing}
    (sends : WorkerSends (session.cluster.workerSelf i) (state.worker i) sent)
    (isCall : (sent.datagram (session.cluster.addr i) 0).msg.mtype = .call)
    (isHop : (sent.datagram (session.cluster.addr i) 0).msg.proc = procInferReq) :
    PayloadRight session (RowsKnown session state.worker) base log
      (sent.datagram (session.cluster.addr i) 0).dst
      (sent.datagram (session.cluster.addr i) 0).msg.payload := by
  cases sends with
  | reply dst replyXid stat payload => cases isCall
  | report assignment status atPc =>
    have other : procShardReady = procInferReq := isHop
    exact absurd other (by decide)
  | hop hop result fwdUs atPc =>
    intro dim live decodedHop x decoded isSession
    obtain ⟨sameHop, sameX⟩ := inferDecodeHop_sent decoded
    have passed := (invariant.tracked k i isWorker).infer
    rw [atPc] at passed
    have right := passed.2
    refine ⟨k + 1, (List.getElem?_eq_some_iff.mp isWorker).1,
      (invariant.serves k i isWorker).next, ?_⟩
    rw [sameHop, sameX]
    exact ⟨right.value, right.logged, right.reached, right.stored, right.inside⟩

/-- Worker `i` has become `later`. -/
theorem RefineInvariant.replace {later : Worker Row} {wire : List Datagram} {passes : List (Pass ι)}
    (grows : ∀ j ∈ session.ring, ∀ count,
        RowsKnown session state.worker j count →
          RowsKnown session (update state.worker i later) j count)
    (hops : ∀ sent ∈ wire, sent.msg.mtype = .call → sent.msg.proc = procInferReq →
          PayloadRight session (RowsKnown session state.worker) base log sent.dst sent.msg.payload)
    (member : ∀ k, session.ring[k]? = some i →
        ServesStage session k i later ∧
          HopsOk
            (stageChecks session (RowsKnown session
              (update state.worker i later)) base log k) later)
    (stranger : i ∉ session.ring → HopsOk (strangerChecks session) later) :
    RefineInvariant session base log ⟨state.driver, update state.worker i later, wire, passes⟩ := by
  have workers := (forall_update_iff state.worker
    (p := fun j worker =>
      (∀ k, session.ring[k]? = some j →
        ServesStage session k j worker ∧
          HopsOk
            (stageChecks session (RowsKnown session
              (update state.worker i later)) base log k) worker) ∧
      (j ∉ session.ring → HopsOk (strangerChecks session) worker))).2
    ⟨⟨member, stranger⟩, fun j _ =>
      ⟨fun k isIndex => ⟨invariant.serves k j isIndex,
        (invariant.tracked k j isIndex).stageGrow grows⟩,
        invariant.strangers j⟩⟩
  refine ⟨invariant.fits, ?_, ?_, ?_, ?_, fun j => (workers j).2,
    invariant.loop.isSeq, invariant.loop.right.mono grows⟩
  · intro sent isSent isCall isHop
    exact (hops sent isSent isCall isHop).grow grows
  · intro received isQueued msg isMsg isCall isHop
    exact (invariant.queue received isQueued msg isMsg isCall isHop).grow grows
  · intro k j isIndex
    exact ((workers j).1 k isIndex).1
  · intro k j isIndex
    exact ((workers j).1 k isIndex).2

theorem RefineInvariant.memberActs (isWorker : session.ring[k]? = some i)
    (undisturbed : Undisturbed event) (deliverable : Deliverable session.cluster state i event) :
    RefineInvariant session base log (workerActs session.cluster state i event) := by
  have grows := invariant.rowsGrow isWorker undisturbed
  refine invariant.replace grows ?_ ?_ ?_
  · refine workerActs_wire invariant.hops ?_
    intro outgoing sends isCall isHop
    exact invariant.workerSends isWorker sends isCall isHop
  · intro j isIndex
    exact ⟨(invariant.serves j i isIndex).workerStep undisturbed,
      ((invariant.tracked j i isIndex).stageGrow grows).workerStep
        (invariant.rules isIndex undisturbed deliverable)⟩
  · intro outside
    exact absurd (List.mem_of_getElem? isWorker) outside

theorem RefineInvariant.strangerRules (outside : i ∉ session.ring)
    (deliverable : Deliverable session.cluster state i event) :
    HopRules (strangerChecks session) (session.cluster.workerSelf i)
      (session.cluster.kernel i) (state.worker i) event := by
  refine ⟨?_, fun _ _ _ _ _ _ arrived => arrived,
    fun _ _ _ _ decoded => decoded, fun _ _ _ _ _ _ admitted => admitted,
    fun _ _ _ _ _ _ _ _ _ _ _ accepted => accepted⟩
  intro msg src isDeliver isCall isHop dim live hop x decoded isSession
  rw [isDeliver] at deliverable
  obtain ⟨j, bound, isAddr, stage⟩ :=
    invariant.hops _ deliverable isCall isHop dim live hop x decoded isSession
  exact outside (List.mem_of_getElem? (RingSession.stageAddr_inj isAddr.symm))

theorem RefineInvariant.strangerActs (outside : i ∉ session.ring)
    (deliverable : Deliverable session.cluster state i event) :
    RefineInvariant session base log (workerActs session.cluster state i event) := by
  refine invariant.replace (rowsKnown_replace outside _) ?_ ?_ ?_
  · refine workerActs_wire invariant.hops ?_
    intro outgoing sends isCall isHop
    cases sends with
    | reply dst replyXid stat payload => cases isCall
    | report assignment status atPc =>
      have other : procShardReady = procInferReq := isHop
      exact absurd other (by decide)
    | hop hop result fwdUs atPc =>
      intro dim live decodedHop x decoded isSession
      have passed := (invariant.strangers i outside).infer
      rw [atPc] at passed
      rw [(inferDecodeHop_sent decoded).1] at isSession
      exact absurd isSession passed
  · intro k isIndex
    exact absurd (List.mem_of_getElem? isIndex) outside
  · intro _
    exact (invariant.strangers i outside).workerStep (invariant.strangerRules outside deliverable)

theorem RefineInvariant.repoint (outside : i ∉ session.ring) (prev next : RpcAddr) :
    RefineInvariant session base log
      { state with
        worker := update state.worker i { state.worker i with prev := prev, next := next } } := by
  refine invariant.replace (rowsKnown_replace outside _) invariant.hops ?_ ?_
  · intro k isIndex
    exact absurd (List.mem_of_getElem? isIndex) outside
  · intro _
    have known := invariant.strangers i outside
    exact ⟨known.listen, known.mailbox, known.infer⟩

end Invariant

end Worker

/-- The cluster computes the pipeline, after some attempts. -/
def Refines (session : RingSession ι Row) (base : UInt32) (state : ClusterState ι Row) : Prop :=
  ∃ log, RefineInvariant session base log state

theorem Refines.step (event : ClusterEvent ι) (refines : Refines session base state)
    (steady : ringSteady session state event = true) :
    Refines session base (clusterNext session.cluster state event) := by
  refine clusterNext_cases session.cluster event refines ?_ ?_ ?_ ?_ <;>
    obtain ⟨log, invariant⟩ := refines
  · intro received isSent
    exact ⟨log, invariant.receives isSent⟩
  · intro tick isMaster
    refine ⟨_, invariant.masterActs ?_⟩
    intro pos token atPc
    rw [isMaster] at steady
    unfold ringSteady at steady
    rw [atPc] at steady
    exact of_decide_eq_true steady
  · intro i workerEvent isEvent deliverable
    rw [isEvent] at steady
    have undisturbed := of_decide_eq_true steady
    by_cases member : i ∈ session.ring
    · obtain ⟨k, isWorker⟩ := List.mem_iff_getElem?.mp member
      exact ⟨log, invariant.memberActs isWorker (undisturbed member) deliverable⟩
    · exact ⟨log, invariant.strangerActs member deliverable⟩
  · intro i prev next isEvent
    rw [isEvent] at steady
    exact ⟨log, invariant.repoint (of_decide_eq_true steady) prev next⟩

/-- While the ring stays as it is, whenever `master_run_token` is about to
return 0 the accepted activation and the cache rows of every worker up to its
position are those of the pipeline, and a generation that is completed has
emitted the tokens of the pipeline. -/
theorem session_refines_pipeline (session : RingSession ι Row) (start : ClusterState ι Row)
    (serving : Serving session start) (events : List (ClusterEvent ι))
    (steady : Along (clusterNext session.cluster)
        (fun state event => ringSteady session state event = true)
        start events) :
    (∀ frame waited,
      (after (clusterNext session.cluster) start events).driver.pc = .tokenTest frame waited →
        (after (clusterNext session.cluster) start
            events).driver.haveFinal = true →
          frame.token = session.loop.token frame.pos ∧
          (after (clusterNext session.cluster) start
            events).driver.finalX = session.loop.output frame.pos ∧
          ∀ i ∈ session.ring,
            ∃ shard,
              ((after (clusterNext session.cluster) start events).worker i).shard = some shard ∧
              rowsBelow shard.kv (frame.pos + 1) = session.loop.rows (frame.pos + 1) i) ∧
      ((after (clusterNext session.cluster) start events).driver.pc = .finished 0 →
        (after (clusterNext session.cluster) start
          events).driver.emitted = losslessStream session) := by
  have refines :
      Refines session start.driver.seq (after (clusterNext session.cluster) start events) := by
    refine history_invariant (clusterNext session.cluster)
      (fun _ state => Refines session start.driver.seq state)
      ⟨[], RefineInvariant.initially serving⟩ ?_ steady
    intro initial event refines guard
    exact refines.step event guard
  obtain ⟨log, invariant⟩ := refines
  have right := invariant.loop.right
  refine ⟨?_, ?_⟩
  · intro frame waited atPc accepted
    rw [atPc] at right
    obtain ⟨inside, count, attempts, last, inFlight, done⟩ := right
    have finished := done accepted
    exact ⟨inside.arrived.isToken, finished.isOutput, finished.rows⟩
  · intro atPc
    rw [atPc] at right
    exact right rfl

end Cluster

/-- Arithmetic that looks at the layers, the position and the rows. -/
def tallyKernel : Kernel UInt32 where
  block := fun layers x pos rows =>
    (x.map fun word =>
        word + layers.layerEnd + UInt32.ofNat pos + rows.sum,
      x.headD 0)
  blank := 0
  tamper := id

def tallyGeneration : Generation where
  dim := 1
  embed := fun token => [UInt32.ofNat token.toNat]
  classify := fun x => (x.headD 0).toNat
  prompt := [5]
  steps := 2

theorem two_le_workers : 2 ≤ 16 := by
  decide

def front : Fin 2 :=
  ⟨0, Nat.zero_lt_two⟩

def back : Fin 2 :=
  ⟨1, Nat.one_lt_two⟩

def tallySession : RingSession (Fin 2) UInt32 where
  cluster :=
    { plan := ringPlan 2
      gen := tallyGeneration
      addr := fun i => ringAddr i.val
      workerId := fun i => ringId i.val
      kernel := fun _ => tallyKernel
      addr_injective := (ringCluster 2 two_le_workers).addr_injective
      addr_ne_master := (ringCluster 2 two_le_workers).addr_ne_master
      workerId_injective := (ringCluster 2 two_le_workers).workerId_injective }
  nonzero := by decide +kernel
  ring := List.finRange 2
  distinct := by decide
  nonempty := by decide
  layers := ringAssignment 2

example : losslessStream tallySession = [8, 24] := by decide +kernel

/-- Both shards are loaded; their caches hold rows of another session. -/
def tallyStart : ClusterState (Fin 2) UInt32 where
  driver := { ringStart 2 with pc := .tokenLoop 0 5 }
  worker := fun i =>
    { (Worker.init (if i = front then ringMaster else ringAddr 0)
        (if i = front then ringAddr 1 else ringMaster) : Worker UInt32) with
      session := 1
      ready := true
      shardDim := 1
      shard := some ⟨ringAssignment 2 i, 256, fun _ => 7⟩ }
  wire := []
  passes := []

theorem tallyStart_serves (i : Fin 2) : ServesStage tallySession i.val i (tallyStart.worker i) := by
  have isEpoch : (1 : UInt32) = tallySession.epoch := by decide +kernel
  have isNext : ∀ j : Fin 2, (tallyStart.worker j).next = tallySession.stageAddr (j.val + 1) := by
    decide +kernel
  refine ⟨isEpoch, isNext i, ⟨?_, trivial, trivial⟩, ?_⟩
  · intro isStored
    rcases isStored with isFull | isCopied
    · cases isFull
    · cases isCopied
  · exact ⟨_, rfl, rfl, Int.le_refl 256⟩

theorem tallyStart_serving : Serving tallySession tallyStart where
  begins := rfl
  emitted := rfl
  hops := by
    intro sent isSent
    cases isSent
  queue := by
    intro received isQueued
    cases isQueued
  serves := by
    intro k i isWorker
    have isOwn : ∀ j : Fin 2, (List.finRange 2)[j.val]? = some j := by decide
    rw [index_unique tallySession.distinct isWorker (isOwn i)]
    exact tallyStart_serves i
  idle := by
    intro i _
    refine ⟨trivial, ?_, trivial⟩
    intro isFull
    cases isFull
  strangers := by
    intro i outside
    exact absurd (List.mem_finRange i) outside

def tallyHop (xid seq : UInt32) (pos : Nat) (passed flags : UInt32) (x : Activation) : RpcMsg :=
  rpcFillCall xid procInferReq
    (inferPayload { firstHop (ringPlan 2) tallyGeneration seq pos with
        hop := passed
        flags := flags } x)

/-- A hop reaches worker `k`, and both of its threads run. -/
def hopHandled (k : Fin 2) (src : RpcAddr) (msg : RpcMsg) : List (ClusterEvent (Fin 2)) :=
  .worker k (.deliver msg src) ::
    List.replicate 7 (.worker k .listen) ++
    List.replicate 6 (.worker k (.infer (ringFetch 2) 0))

/-- The master waits for the result of an attempt in vain. -/
def attemptExpires : List (ClusterEvent (Fin 2)) :=
  (List.replicate 75 [.master timeoutTick, .master quietTick, .master quietTick]).flatten

/-- The first attempt is late and its hop to worker 1 is lost; the second is
delivered twice, and so is its final. -/
def lossyToken : List (ClusterEvent (Fin 2)) :=
  masterRuns 2 2 ++ attemptExpires ++ masterRuns 2 1 ++
    hopHandled front ringMaster (tallyHop 1 1 0 0 0 [5]) ++
    hopHandled front ringMaster (tallyHop 2 2 0 0 0 [5]) ++
    hopHandled front ringMaster (tallyHop 2 2 0 0 0 [5]) ++
    hopHandled back (ringAddr 0) (tallyHop 0 2 0 1 0 [6]) ++
    [.arrive ⟨ringAddr 1, ringMaster, tallyHop 0 2 0 2 inferFlagFinal [8]⟩,
      .arrive ⟨ringAddr 1, ringMaster, tallyHop 0 2 0 2 inferFlagFinal [8]⟩] ++
    masterRuns 2 2

/-- The other final of the first token arrives in the second, too late. -/
def lossyRun : List (ClusterEvent (Fin 2)) :=
  lossyToken ++ masterRuns 2 7 ++
    hopHandled front ringMaster (tallyHop 3 3 1 0 0 [8]) ++
    hopHandled back (ringAddr 0) (tallyHop 0 3 1 1 0 [15]) ++
    [.arrive ⟨ringAddr 1, ringMaster, tallyHop 0 3 1 2 inferFlagFinal [24]⟩] ++
    masterRuns 2 5

def firstFrame : TokenFrame where
  pos := 0
  token := 5
  head := ringAddr 0
  x := [5]
  attempt := 1

theorem session_refines_pipeline_lossyRun :
    ((after (clusterNext tallySession.cluster) tallyStart
          lossyToken).driver.pc = .tokenTest firstFrame 200 ∧
      (after (clusterNext tallySession.cluster) tallyStart
        lossyToken).driver.finalX = tallySession.loop.output 0) ∧
    (after (clusterNext tallySession.cluster) tallyStart
        lossyRun).driver.pc = .finished 0 ∧
      (after (clusterNext tallySession.cluster) tallyStart
        lossyRun).driver.emitted = losslessStream tallySession := by
  have tested :
      (after (clusterNext tallySession.cluster) tallyStart
        lossyToken).driver.pc = .tokenTest firstFrame 200 := by
    decide +kernel
  have accepted :
      (after (clusterNext tallySession.cluster) tallyStart lossyToken).driver.haveFinal = true := by
    decide +kernel
  have ended :
      (after (clusterNext tallySession.cluster) tallyStart lossyRun).driver.pc = .finished 0 := by
    decide +kernel
  have atToken :=
    (session_refines_pipeline tallySession tallyStart tallyStart_serving
      lossyToken (by decide +kernel)).1 firstFrame 200 tested accepted
  have atEnd :=
    (session_refines_pipeline tallySession tallyStart tallyStart_serving
      lossyRun (by decide +kernel)).2 ended
  exact ⟨⟨tested, atToken.2.1⟩, ended, atEnd⟩

end LlmRuntime.DistInf
