import LlmRuntime.DistInf.Cluster
import LlmRuntime.DistInf.Readiness

/-!
# Generation starts on a loaded ring

`g_ready_count` counts reports, not workers.  As long as no worker is counted
twice the two agree.
-/

namespace LlmRuntime.DistInf

open Discovery Execution Function

universe u

/-- The next step counts a worker that has been counted before. -/
def countsAgain (session : UInt32) (driver : Driver) : Bool :=
  match driver.pc with
  | .pump .readiness =>
    driver.queue.head?.any fun received =>
      liveReport session received && decide (reportId received ∈ driver.counted)
  | _ => false

/-- The counter is this session's and the wait has not been left. -/
def counting : DriverPc → Bool
  | .setup todo _ => SetupOp.reset ∉ todo
  | .readiness => true
  | .pump .readiness => true
  | .pumpCall .readiness _ _ => true
  | .pumpExpire .readiness => true
  | _ => false

/-- The session is past the wait and has not ended. -/
def generating : DriverPc → Bool
  | .pump (.token _ _) => true
  | .pumpCall (.token _ _) _ _ => true
  | .pumpExpire (.token _ _) => true
  | .tokenLoop _ _ => true
  | .tokenSend _ => true
  | .tokenTest _ _ => true
  | _ => false

/-- What the counter stands for: before the wait is left it has counted
`vouched` workers, each once; afterwards `full` holds. -/
structure Tally (vouched : UInt32 → Prop) (full : Prop) (driver : Driver) : Prop where
  members : counting driver.pc = true → ∀ id ∈ driver.counted, vouched id
  once : counting driver.pc = true → driver.counted.Nodup
  count : counting driver.pc = true → driver.readyCount = driver.counted.length
  loaded : generating driver.pc = true → full

theorem Tally.mono {vouched more : UInt32 → Prop} {full later : Prop}
    {driver : Driver} (tally : Tally vouched full driver)
    (weaker : ∀ id, vouched id → more id) (stays : full → later) :
    Tally more later driver where
  members := fun isCounting id isCounted =>
    weaker id (tally.members isCounting id isCounted)
  once := tally.once
  count := tally.count
  loaded := fun isGenerating => stays (tally.loaded isGenerating)

section Driver

variable {vouched : UInt32 → Prop} {full : Prop} {driver later : Driver}

theorem Tally.move (tally : Tally vouched full driver)
    (wasCounting : counting later.pc = true → counting driver.pc = true)
    (wasGenerating : generating later.pc = true → generating driver.pc = true)
    (sameCounted : later.counted = driver.counted)
    (sameCount : later.readyCount = driver.readyCount) :
    Tally vouched full later where
  members := by
    intro isCounting
    rw [sameCounted]
    exact tally.members (wasCounting isCounting)
  once := by
    intro isCounting
    rw [sameCounted]
    exact tally.once (wasCounting isCounting)
  count := by
    intro isCounting
    rw [sameCounted, sameCount]
    exact tally.count (wasCounting isCounting)
  loaded := fun isGenerating => tally.loaded (wasGenerating isGenerating)

theorem Tally.ended (notCounting : counting later.pc = false)
    (notGenerating : generating later.pc = false) :
    Tally vouched full later where
  members := by
    intro isCounting
    rw [notCounting] at isCounting
    cases isCounting
  once := by
    intro isCounting
    rw [notCounting] at isCounting
    cases isCounting
  count := by
    intro isCounting
    rw [notCounting] at isCounting
    cases isCounting
  loaded := by
    intro isGenerating
    rw [notGenerating] at isGenerating
    cases isGenerating

theorem counting_iff_part (pc : DriverPc) :
    counting pc = true ↔
      partOf pc = .wait ∨ ∃ todo, partOf pc = .setup todo ∧ SetupOp.reset ∉ todo := by
  cases pc with
  | setup todo call => simp [counting, partOf]
  | pump caller | pumpCall caller call replies | pumpExpire caller =>
    cases caller <;> simp [counting, partOf, PumpCaller.part]
  | readiness | tokenLoop | tokenSend | tokenTest | finished => simp [counting, partOf]

theorem generating_iff_part (pc : DriverPc) : generating pc = true ↔ partOf pc = .tokens := by
  cases pc with
  | pump caller | pumpCall caller call replies | pumpExpire caller =>
    cases caller <;> simp [generating, partOf, PumpCaller.part]
  | setup | readiness | tokenLoop | tokenSend | tokenTest | finished => simp [generating, partOf]

variable {plan : SessionPlan} {gen : Generation} {received : Received} {tick : Tick}

theorem Dispatched.tally {caller : PumpCaller}
    (dispatched : Dispatched plan gen driver caller received tick later)
    (tally : Tally vouched full driver) (atPump : driver.pc = .pump caller)
    (isVouched : liveReport plan.session received = true → vouched (reportId received))
    (isNew : caller = .readiness → liveReport plan.session received = true →
        reportId received ∉ driver.counted) :
    Tally vouched full later := by
  have samePart : partOf later.pc = partOf driver.pc := by
    rw [dispatched.part, atPump]
    rfl
  have wasCounting : counting later.pc = true → counting driver.pc = true := by
    rw [counting_iff_part, counting_iff_part, samePart]
    exact id
  have wasGenerating : generating later.pc = true → generating driver.pc = true := by
    rw [generating_iff_part, generating_iff_part, samePart]
    exact id
  obtain ⟨counts, names⟩ := dispatched.counts
  cases live : liveReport plan.session received with
  | false =>
    rw [live] at counts names
    refine tally.move wasCounting wasGenerating ?_ counts
    rw [names]
    exact List.append_nil _
  | true =>
    rw [live] at counts names
    refine ⟨?_, ?_, ?_, ?_⟩
    · intro isCounting id isCounted
      rw [names] at isCounted
      rcases List.mem_append.mp isCounted with isOld | isReported
      · exact tally.members (wasCounting isCounting) id isOld
      · rw [List.mem_singleton.mp isReported]
        exact isVouched live
    · intro isCounting
      have isReadiness : caller = .readiness := by
        have pumping := wasCounting isCounting
        rw [atPump] at pumping
        cases caller with
        | readiness => rfl
        | token frame waited => cases pumping
      rw [names]
      refine List.nodup_append.mpr ⟨tally.once (wasCounting isCounting), List.nodup_singleton _, ?_⟩
      intro id isOld other isReported same
      rw [List.mem_singleton.mp isReported] at same
      rw [same] at isOld
      exact isNew isReadiness live isOld
    · intro isCounting
      rw [counts, names, tally.count (wasCounting isCounting), List.length_append]
      rfl
    · intro isGenerating
      exact tally.loaded (wasGenerating isGenerating)

theorem countsAgain_false {session : UInt32} {rest : List Received}
    (once : countsAgain session driver = false) (atPump : driver.pc = .pump .readiness)
    (isQueue : driver.queue = received :: rest) (live : liveReport session received = true) :
    reportId received ∉ driver.counted := by
  rw [countsAgain, atPump, isQueue] at once
  simpa [live] using once

/-- The wait is left towards the first token only with enough counted. -/
theorem driverRun_tally (tally : Tally vouched full driver) (fits : CallFits driver.pc)
    (vouches : ∀ received ∈ driver.queue,
        liveReport plan.session received = true → vouched (reportId received))
    (once : countsAgain plan.session driver = false)
    (enough : ∀ counted : List UInt32, (∀ id ∈ counted, vouched id) →
        counted.Nodup → plan.slots.length ≤ counted.length → full) :
    Tally vouched full (driverRun plan gen driver tick).1 := by
  cases @driverRun_sessionMove plan gen driver tick fits with
  | rests same passes =>
    refine tally.move ?_ ?_ passes.counted passes.readyCount
    · rw [counting_iff_part, counting_iff_part, same]
      exact id
    · rw [generating_iff_part, generating_iff_part, same]
      exact id
  | ends result isEnd passes => exact .ended (by rw [isEnd]; rfl) (by rw [isEnd]; rfl)
  | finishes op rest before notReset goesTo passes =>
    refine tally.move ?_ ?_ passes.counted passes.readyCount
    · rw [counting_iff_part, counting_iff_part, goesTo, before]
      simp [notReset.symm]
    · rw [generating_iff_part, goesTo]
      exact nofun
  | resets rest before goesTo noCount noneCounted queue =>
    refine ⟨?_, ?_, ?_, ?_⟩
    · rw [noneCounted]
      exact fun _ id isCounted => absurd isCounted List.not_mem_nil
    · rw [noneCounted]
      exact fun _ => List.nodup_nil
    · rw [noCount, noneCounted]
      exact fun _ => rfl
    · rw [generating_iff_part, goesTo]
      exact nofun
  | waits before goesTo passes =>
    refine tally.move ?_ ?_ passes.counted passes.readyCount
    · intro _
      rw [counting_iff_part, before]
      exact .inr ⟨[], rfl, List.not_mem_nil⟩
    · rw [generating_iff_part, goesTo]
      exact nofun
  | leaves before goesTo tooMany passes =>
    have isCounting : counting driver.pc = true := by
      rw [counting_iff_part, before]
      exact .inl rfl
    have notCounting : ¬ counting (driverRun plan gen driver tick).1.pc = true := by
      rw [counting_iff_part, goesTo]
      simp
    rw [tally.count isCounting] at tooMany
    exact ⟨fun isLater => absurd isLater notCounting,
      fun isLater => absurd isLater notCounting,
      fun isLater => absurd isLater notCounting,
      fun _ => enough driver.counted (tally.members isCounting) (tally.once isCounting) tooMany⟩
  | takes caller received rest atPc isQueue dispatched =>
    have taken : Tally vouched full { driver with queue := rest } := tally.move id id rfl rfl
    refine dispatched.tally taken atPc ?_ ?_
    · refine vouches received ?_
      rw [isQueue]
      exact List.mem_cons_self
    · intro isReadiness live
      rw [isReadiness] at atPc
      have isNew : reportId received ∉ driver.counted := countsAgain_false once atPc isQueue live
      exact isNew

end Driver

section Cluster

variable {ι : Type} {Row : Type u}
variable (cluster : Cluster ι Row) (ring : List ι)

/-- Worker `i` has itself reported status 0 for the session. -/
def Reported (wire : List Datagram) (i : ι) : Prop :=
  ∃ assignment : AssignLayers,
    assignment.sessionId = cluster.plan.session ∧
      ⟨cluster.addr i, cluster.plan.self, rpcFillCall 0 procShardReady
          (shardReport (cluster.workerSelf i) assignment 0).encode⟩ ∈ wire

/-- The id is that of a worker of the ring that has reported. -/
def Vouched (wire : List Datagram) (id : UInt32) : Prop :=
  ∃ i ∈ ring, cluster.workerId i = id ∧ Reported cluster wire i

def AssignsSession (session : UInt32) (msg : RpcMsg) : Prop :=
  msg.mtype = .call ∧ msg.proc = procAssignLayers ∧
    (AssignLayers.decode msg.payload).sessionId = session

/-- Nothing of the epoch has been sent or received yet. -/
structure FreshEpoch (state : ClusterState ι Row) : Prop where
  reports : ∀ sent ∈ state.wire, liveReport cluster.plan.session (some sent.msg, sent.src) = false
  assigns :
    ∀ sent ∈ state.wire, sent.src = cluster.plan.self →
      ¬ AssignsSession cluster.plan.session sent.msg
  queue : ∀ received ∈ state.driver.queue, liveReport cluster.plan.session received = false
  workers :
    ∀ i,
      HoldsOnly
        (fun assignment =>
          assignment.sessionId ≠ cluster.plan.session)
        (state.worker i)

/-- What holds in every state of the session: assignments of the epoch go to
workers of the ring only, so only they report, and the counter has counted
reports of theirs. -/
structure LoadInvariant (state : ClusterState ι Row) : Prop where
  fits : CallFits state.driver.pc
  todo : ∀ op ∈ todoOf state.driver.pc, op ∈ cluster.plan.ops
  reports :
    ∀ sent ∈ state.wire,
      liveReport cluster.plan.session (some sent.msg, sent.src) = true →
        Vouched cluster ring state.wire (reportId (some sent.msg, sent.src))
  assigns :
    ∀ sent ∈ state.wire, sent.src = cluster.plan.self →
      AssignsSession cluster.plan.session sent.msg → ∃ i ∈ ring, sent.dst = cluster.addr i
  workers :
    ∀ i,
      HoldsOnly
        (fun assignment =>
          assignment.sessionId = cluster.plan.session → i ∈ ring)
        (state.worker i)
  queue :
    ∀ received ∈ state.driver.queue,
      liveReport cluster.plan.session received = true →
        Vouched cluster ring state.wire (reportId received)
  tally :
    Tally (Vouched cluster ring state.wire) (∀ i ∈ ring, Reported cluster state.wire i) state.driver

variable {cluster} {ring}

variable {tmpl : AssignLayers} {wire : List Datagram} {i : ι} {driver : Driver}

theorem Reported.mono {more : List Datagram} (reported : Reported cluster wire i) :
    Reported cluster (wire ++ more) i := by
  obtain ⟨assignment, isSession, isSent⟩ := reported
  exact ⟨assignment, isSession, List.mem_append_left _ isSent⟩

theorem Vouched.mono {more : List Datagram} {id : UInt32} (vouched : Vouched cluster ring wire id) :
    Vouched cluster ring (wire ++ more) id := by
  obtain ⟨i, isMember, isId, reported⟩ := vouched
  exact ⟨i, isMember, isId, reported.mono⟩

theorem Tally.grow
    (tally : Tally (Vouched cluster ring wire) (∀ i ∈ ring, Reported cluster wire i) driver)
    (more : List Datagram) :
    Tally (Vouched cluster ring (wire ++ more))
      (∀ i ∈ ring, Reported cluster (wire ++ more) i) driver :=
  tally.mono (fun _ vouched => vouched.mono) (fun loaded i isMember => (loaded i isMember).mono)

/-- As many distinct vouched ids as there are workers leave no worker out. -/
theorem reported_of_enough (counted : List UInt32)
    (members : ∀ id ∈ counted, Vouched cluster ring wire id)
    (once : counted.Nodup) (enough : ring.length ≤ counted.length) :
    ∀ i ∈ ring, Reported cluster wire i := by
  classical
  have inRing : counted.toFinset ⊆ (ring.map cluster.workerId).toFinset := by
    intro id isCounted
    obtain ⟨i, isMember, isId, reported⟩ := members id (List.mem_toFinset.mp isCounted)
    rw [List.mem_toFinset, ← isId]
    exact List.mem_map_of_mem isMember
  have asMany : (ring.map cluster.workerId).toFinset.card ≤ counted.toFinset.card := by
    calc (ring.map cluster.workerId).toFinset.card
        ≤ (ring.map cluster.workerId).length := List.toFinset_card_le _
      _ = ring.length := List.length_map _
      _ ≤ counted.length := enough
      _ = counted.toFinset.card := (List.toFinset_card_of_nodup once).symm
  have same := Finset.eq_of_subset_of_card_le inRing asMany
  intro i isMember
  have isCounted : cluster.workerId i ∈ counted := by
    rw [← List.mem_toFinset, same, List.mem_toFinset]
    exact List.mem_map_of_mem isMember
  obtain ⟨other, isOther, sameId, reported⟩ := members (cluster.workerId i) isCounted
  rw [cluster.workerId_injective sameId] at reported
  exact reported

theorem HoldsOnly.mono {allowed more : AssignLayers → Prop}
    {worker : Worker Row} (holds : HoldsOnly allowed worker)
    (weaker : ∀ assignment, allowed assignment → more assignment) :
    HoldsOnly more worker := by
  refine ⟨?_, ?_, ?_⟩
  · intro pending
    exact weaker _ (holds.stored pending)
  · have held := holds.listen
    unfold ListenHolds at held ⊢
    cases pc : worker.listen <;> rw [pc] at held <;>
      first
      | trivial
      | exact weaker _ held
  · have held := holds.infer
    cases pc : worker.infer <;> rw [pc] at held <;>
      first
      | trivial
      | exact weaker _ held

theorem LoadInvariant.initially {state : ClusterState ι Row}
    (start : SessionStart cluster ring tmpl state.driver) (fresh : FreshEpoch cluster state) :
    LoadInvariant cluster ring state := by
  obtain ⟨before, drawn, now, started⟩ := start.begun
  have atSetup := (startSession_plan started).2.1
  have hasReset := startSession_reset started
  refine ⟨?_, ?_, ?_, ?_, ?_, ?_, ?_⟩
  · rw [atSetup]
    exact callFits_setup_none _
  · intro op isTodo
    rw [atSetup] at isTodo
    exact isTodo
  · intro sent isSent live
    rw [fresh.reports sent isSent] at live
    cases live
  · intro sent isSent fromMaster assigns
    exact absurd assigns (fresh.assigns sent isSent fromMaster)
  · intro i
    refine (fresh.workers i).mono ?_
    intro assignment otherSession isSession
    exact absurd isSession otherSession
  · intro received isQueued live
    rw [fresh.queue received isQueued] at live
    cases live
  · refine Tally.ended ?_ ?_
    · rw [atSetup]
      simpa [counting] using hasReset
    · rw [atSetup]
      rfl

/-! ## One step -/

theorem liveReport_call {session : UInt32} {msg : RpcMsg} {src : RpcAddr}
    (live : liveReport session (some msg, src) = true) :
    msg.mtype = .call := by
  simp only [liveReport, decide_eq_true_eq] at live
  exact live.1

/-- The request of a setup call: it notifies, or it assigns layers to a worker
of the ring. -/
theorem setup_request {todo : List SetupOp} {call : RpcCall}
    (planned : SessionOver cluster ring tmpl) (fits : CallFits driver.pc)
    (inPlan : ∀ op ∈ todoOf driver.pc, op ∈ cluster.plan.ops)
    (atPc : driver.pc = .setup todo (some call)) :
    call.request.proc = procSetNeighbor ∨
      ∃ k i, ring[k]? = some i ∧
        call.request =
          ⟨cluster.addr i, procAssignLayers, (assignedLayers tmpl ring.length k).encode⟩ := by
  rw [atPc] at fits inPlan
  obtain ⟨rest, isNotify | isAssign⟩ := callFits_setup fits
  · left
    refine planned.notifies call.request (inPlan _ ?_)
    rw [todoOf, isNotify]
    exact List.mem_cons_self
  · right
    refine planned.assigns call.request (inPlan _ ?_)
    rw [todoOf, isAssign]
    exact List.mem_cons_self

/-- The calls that the master sends in a session. -/
theorem driverSends_call {gen : Generation} {sent : Datagram}
    (planned : SessionOver cluster ring tmpl) (fits : CallFits driver.pc)
    (inPlan : ∀ op ∈ todoOf driver.pc, op ∈ cluster.plan.ops)
    (sends : DriverSends cluster.plan gen driver sent) (isCall : sent.msg.mtype = .call) :
    (sent.msg.proc = procSetNeighbor ∨ sent.msg.proc = procEvict) ∨
      (sent.msg.proc = procAssignLayers ∧
        ∃ k i, ring[k]? = some i ∧ sent.dst = cluster.addr i ∧
          sent.msg.payload = (assignedLayers tmpl ring.length k).encode) ∨
      ∃ frame hop, driver.pc = .tokenSend frame ∧
        sent.msg.proc = procInferReq ∧ sent.src = cluster.plan.self ∧
          sent.msg.payload = inferPayload hop frame.x := by
  cases sends with
  | reply sent fromMaster isReply =>
    rw [isReply] at isCall
    cases isCall
  | notify dst xid payload => exact .inl (.inl rfl)
  | evict dst xid payload => exact .inl (.inr rfl)
  | setup todo call atPc =>
    rcases setup_request planned fits inPlan atPc with isNotify | ⟨k, i, isWorker, isRequest⟩
    · exact .inl (.inl isNotify)
    · dsimp only [RpcCall.datagram, rpcFillCall]
      rw [isRequest]
      exact .inr (.inl ⟨rfl, k, i, isWorker, rfl, rfl⟩)
  | hop frame atPc within => exact .inr (.inr ⟨frame, _, atPc, rfl, rfl, rfl⟩)

theorem workerSends_loads {worker : Worker Row} {sent : Outgoing} {xid : UInt32}
    (sends : WorkerSends (cluster.workerSelf i) worker sent) (live : liveReport cluster.plan.session
        (some (sent.datagram (cluster.addr i) xid).msg,
          (sent.datagram (cluster.addr i) xid).src) = true) :
    ∃ assignment,
      worker.infer = .report assignment 0 ∧
        assignment.sessionId = cluster.plan.session ∧
        sent =
          .call cluster.plan.self procShardReady
            (shardReport (cluster.workerSelf i) assignment 0).encode := by
  cases sends with
  | reply dst replyXid stat payload => cases liveReport_call live
  | report assignment status atPc =>
    rw [liveReport_of_msg _ rfl rfl rfl] at live
    have read :
        ShardReady.decode (shardReport (cluster.workerSelf i) assignment status).encode =
          shardReport (cluster.workerSelf i) assignment status :=
      ShardReady.decode_encode _
    simp only [livePayload, Outgoing.datagram, rpcFillCall, read,
      Bool.decide_and, Bool.and_eq_true, decide_eq_true_eq] at live
    obtain ⟨long, isSession, isSuccess⟩ := live
    have statusZero : status = 0 := isSuccess
    rw [statusZero] at atPc ⊢
    exact ⟨assignment, atPc, isSession, rfl⟩
  | hop hop result fwdUs atPc =>
    rw [liveReport_of_other _ rfl] at live
    · cases live
    · change procInferReq ≠ procShardReady
      decide

variable {state : ClusterState ι Row}

theorem LoadInvariant.receives (invariant : LoadInvariant cluster ring state) {received : Received}
    (isSent : ∀ msg, received.1 = some msg → ⟨received.2, cluster.plan.self, msg⟩ ∈ state.wire) :
    LoadInvariant cluster ring (masterReceives cluster state received) := by
  refine ⟨invariant.fits, invariant.todo, invariant.reports,
    invariant.assigns, invariant.workers, ?_, ?_⟩
  · intro each isQueued live
    rcases List.mem_append.mp isQueued with isOld | isNew
    · exact invariant.queue each isOld live
    · rw [List.mem_singleton.mp isNew] at live ⊢
      obtain ⟨content, src⟩ := received
      cases content with
      | none => cases live
      | some msg => exact invariant.reports _ (isSent msg rfl) live
  · exact invariant.tally.move id id rfl rfl

theorem LoadInvariant.masterActs {tick : Tick} (invariant : LoadInvariant cluster ring state)
    (planned : SessionOver cluster ring tmpl)
    (once : countsAgain cluster.plan.session state.driver = false) :
    LoadInvariant cluster ring (masterActs cluster state tick) := by
  have calls (sent : Datagram) (isNew : sent ∈ (driverRun cluster.plan
      cluster.gen state.driver tick).2) :=
    driverSends_call planned invariant.fits invariant.todo
      (driverRun_sent invariant.fits sent isNew)
  refine ⟨driverRun_callFits invariant.fits, ?_, ?_, ?_, invariant.workers, ?_, ?_⟩
  · intro op isTodo
    exact invariant.todo op (driverRun_todo invariant.fits op isTodo)
  · intro sent isSent live
    rcases List.mem_append.mp isSent with isOld | isNew
    · exact (invariant.reports sent isOld live).mono
    · have isCall := liveReport_call live
      have notReport : sent.msg.proc ≠ procShardReady := by
        rcases calls sent isNew isCall with
          (isProc | isProc) | ⟨isProc, -⟩ | ⟨frame, hop, -, isProc, -⟩ <;>
        · rw [isProc]
          decide
      rw [liveReport_of_other _ rfl notReport] at live
      cases live
  · intro sent isSent fromMaster assigns
    rcases List.mem_append.mp isSent with isOld | isNew
    · exact invariant.assigns sent isOld fromMaster assigns
    · rcases calls sent isNew assigns.1 with (isProc | isProc) |
          ⟨isProc, k, i, isWorker, isDst, -⟩ | ⟨frame, hop, -, isProc, -⟩
      · exact absurd (isProc.symm.trans assigns.2.1) (by decide)
      · exact absurd (isProc.symm.trans assigns.2.1) (by decide)
      · exact ⟨i, List.mem_of_getElem? isWorker, isDst⟩
      · exact absurd (isProc.symm.trans assigns.2.1) (by decide)
  · intro received isQueued live
    exact (invariant.queue received (driverRun_queue invariant.fits received isQueued) live).mono
  · refine driverRun_tally (invariant.tally.grow _) invariant.fits ?_ once ?_
    · intro received isQueued live
      exact (invariant.queue received isQueued live).mono
    · intro counted members nodup enough
      rw [planned.size] at enough
      exact reported_of_enough counted members nodup enough

variable [DecidableEq ι]

theorem LoadInvariant.workerActs {event : WorkerEvent}
    (invariant : LoadInvariant cluster ring state)
    (deliverable : Deliverable cluster state i event) :
    LoadInvariant cluster ring (workerActs cluster state i event) := by
  refine ⟨invariant.fits, invariant.todo, ?_, ?_, ?_, ?_, ?_⟩
  · intro sent isSent live
    rcases List.mem_append.mp isSent with isOld | isNew
    · exact (invariant.reports sent isOld live).mono
    · obtain ⟨outgoing, isOutgoing, isDatagram⟩ := List.mem_map.mp isNew
      rw [← isDatagram] at live ⊢
      obtain ⟨assignment, atPc, isSession, isReport⟩ :=
        workerSends_loads (workerStep_sent event outgoing isOutgoing) live
      have held := (invariant.workers i).infer
      rw [atPc] at held
      rw [isReport] at isOutgoing ⊢
      refine ⟨i, held isSession, ?_, assignment, isSession,
        List.mem_append_right _ (List.mem_map_of_mem isOutgoing)⟩
      change
        _ = (ShardReady.decode (shardReport (cluster.workerSelf i) assignment 0).encode).workerId
      rw [ShardReady.decode_encode]
      rfl
  · intro sent isSent fromMaster assigns
    rcases List.mem_append.mp isSent with isOld | isNew
    · exact invariant.assigns sent isOld fromMaster assigns
    · exact absurd fromMaster (not_master_of_outgoing isNew)
  · refine (forall_update_iff state.worker
      (p := fun j => HoldsOnly fun assignment =>
        assignment.sessionId = cluster.plan.session → j ∈ ring)).2
      ⟨?_, fun j _ => invariant.workers j⟩
    refine (invariant.workers i).workerStep ?_
    intro msg src isDeliver accepted isSession
    rw [isDeliver] at deliverable
    obtain ⟨other, isMember, sameAddr⟩ :=
      invariant.assigns _ deliverable accepted.2.2.2 ⟨accepted.1, accepted.2.1, isSession⟩
    rw [cluster.addr_injective sameAddr]
    exact isMember
  · intro received isQueued live
    exact (invariant.queue received isQueued live).mono
  · exact invariant.tally.grow _

theorem LoadInvariant.repoint (invariant : LoadInvariant cluster ring state)
    (i : ι) (prev next : RpcAddr) :
    LoadInvariant cluster ring
      { state with
        worker := update state.worker i { state.worker i with prev := prev, next := next } } := by
  refine ⟨invariant.fits, invariant.todo, invariant.reports,
    invariant.assigns, ?_, invariant.queue, invariant.tally⟩
  refine (forall_update_iff state.worker
    (p := fun j => HoldsOnly fun assignment =>
      assignment.sessionId = cluster.plan.session → j ∈ ring)).2
    ⟨?_, fun j _ => invariant.workers j⟩
  have held := invariant.workers i
  exact ⟨held.stored, held.listen, held.infer⟩

/-- No step of the wait counts a worker a second time. -/
def reportsOnce (cluster : Cluster ι Row) (state : ClusterState ι Row) :
    ClusterEvent ι → Prop
  | .master _ => countsAgain cluster.plan.session state.driver = false
  | _ => True

instance (cluster : Cluster ι Row) (state : ClusterState ι Row) (event : ClusterEvent ι) :
    Decidable (reportsOnce cluster state event) :=
  match event with
  | .master _ => inferInstanceAs (Decidable (_ = _))
  | .arrive _ => inferInstanceAs (Decidable True)
  | .garble _ => inferInstanceAs (Decidable True)
  | .worker _ _ => inferInstanceAs (Decidable True)
  | .repoint _ _ _ => inferInstanceAs (Decidable True)

theorem LoadInvariant.step (planned : SessionOver cluster ring tmpl) (event : ClusterEvent ι)
    (invariant : LoadInvariant cluster ring state) (once : reportsOnce cluster state event) :
    LoadInvariant cluster ring (clusterNext cluster state event) := by
  refine clusterNext_cases cluster event invariant ?_ ?_ ?_ ?_
  · intro received isSent
    exact invariant.receives isSent
  · intro tick isMaster
    rw [isMaster] at once
    exact invariant.masterActs planned once
  · intro i workerEvent isWorker deliverable
    exact invariant.workerActs deliverable
  · intro i prev next _
    exact invariant.repoint i prev next

/-- If no worker is counted twice, then in every state between the end of the
wait and the end of the session every worker of the ring has itself reported
its shard of this session resident. -/
theorem generating_all_reported (cluster : Cluster ι Row) (ring : List ι) (tmpl : AssignLayers)
    (start : ClusterState ι Row) (begun : SessionStart cluster ring tmpl start.driver)
    (fresh : FreshEpoch cluster start) (events : List (ClusterEvent ι))
    (once : Along (clusterNext cluster) (reportsOnce cluster) start events)
    (isGenerating : generating (after (clusterNext cluster) start events).driver.pc = true) :
    ∀ i ∈ ring, Reported cluster (after (clusterNext cluster) start events).wire i := by
  have invariant : LoadInvariant cluster ring (after (clusterNext cluster) start events) := by
    refine history_invariant (clusterNext cluster) (fun _ state => LoadInvariant cluster ring state)
      (LoadInvariant.initially begun fresh) ?_ once
    intro initial event invariant guard
    exact invariant.step begun.planned event guard
  exact invariant.tally.loaded isGenerating

end Cluster

abbrev twoWorkers : Cluster (Fin 2) Unit := ringCluster 2 (by decide)

abbrev twoWorkersInit : ClusterState (Fin 2) Unit :=
  ringInit 2 (fun _ => ringMaster) (fun _ => ringMaster)

theorem twoWorkers_start :
    SessionStart twoWorkers (List.finRange 2)
      (ringTemplate (UInt32.ofNat 2)) twoWorkersInit.driver where
  begun := ⟨ringDriver 2, some 1, 0, rfl⟩
  members := by decide +kernel

theorem twoWorkers_fresh : FreshEpoch twoWorkers twoWorkersInit where
  reports := by
    intro sent isSent
    cases isSent
  assigns := by
    intro sent isSent
    cases isSent
  queue := by
    intro received isQueued
    cases isQueued
  workers := by
    intro i
    refine ⟨?_, trivial, trivial⟩
    intro pending
    rcases pending with isFlag | isCopy
    · cases isFlag
    · cases isCopy

/-- Both workers load and report before the first token. -/
def loadedRun : List (ClusterEvent (Fin 2)) :=
  callLost 2 ++ callLost 2 ++ masterRuns 2 1 ++ assignAccepted 0 6 ++
    assignAccepted 1 8 ++ masterRuns 2 1 ++ shardLoaded 0 ++
    shardLoaded 1 ++ reportTaken 0 ++ reportTaken 1 ++ masterRuns 2 1

/-- The assignment of worker 0 is sent twice because the first reply is late;
worker 0 loads twice and reports twice, worker 1 has not begun to load. -/
def repeatedReportRun : List (ClusterEvent (Fin 2)) :=
  callLost 2 ++ callLost 2 ++ masterRuns 2 1 ++ masterRuns 2 2 ++
    [.master timeoutTick] ++ masterRuns 2 1 ++ assignDelivered 0 6 ++
    shardLoaded 0 ++ assignDelivered 0 6 ++ shardLoaded 0 ++
    replyReceived 0 6 ++ assignAccepted 1 8 ++ masterRuns 2 1 ++
    reportTaken 0 ++ reportTaken 0 ++ masterRuns 2 1

theorem generating_all_reported_loadedRun :
    generating
        (after (clusterNext twoWorkers) twoWorkersInit loadedRun).driver.pc = true ∧
      ∀ i ∈ List.finRange 2,
        Reported twoWorkers (after (clusterNext twoWorkers) twoWorkersInit loadedRun).wire i :=
  ⟨by decide +kernel, generating_all_reported twoWorkers (List.finRange 2)
      (ringTemplate (UInt32.ofNat 2)) twoWorkersInit twoWorkers_start
      twoWorkers_fresh loadedRun (by decide +kernel)
      (by decide +kernel)⟩

theorem repeatedReportRun_generates_unloaded :
    SessionStart twoWorkers (List.finRange 2)
        (ringTemplate (UInt32.ofNat 2)) twoWorkersInit.driver ∧
      FreshEpoch twoWorkers twoWorkersInit ∧
      generating
        (after (clusterNext twoWorkers) twoWorkersInit repeatedReportRun).driver.pc = true ∧
      ¬ Reported twoWorkers
        (after (clusterNext twoWorkers) twoWorkersInit repeatedReportRun).wire 1 := by
  refine ⟨twoWorkers_start, twoWorkers_fresh, by decide +kernel, ?_⟩
  have silent :
      ∀ sent ∈ (after (clusterNext twoWorkers) twoWorkersInit repeatedReportRun).wire,
        sent.src = ringAddr 1 → sent.msg.proc ≠ procShardReady := by
    decide +kernel
  intro reported
  obtain ⟨assignment, isSession, isSent⟩ := reported
  exact silent _ isSent rfl rfl

end LlmRuntime.DistInf
