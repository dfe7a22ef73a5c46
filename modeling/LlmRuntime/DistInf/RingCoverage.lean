import LlmRuntime.Discovery.RingStitch
import LlmRuntime.DistInf.HopTracking
import LlmRuntime.DistInf.LayerSplit
import LlmRuntime.DistInf.RingLoaded
import LlmRuntime.DistInf.SessionIsolation
import LlmRuntime.DistInf.TokenLoop

/-!
# An accepted activation has passed every layer

When every hop a worker lets in comes from its predecessor in the ring, the
activation that the master accepts has been through `shard_forward` of every
worker once, in ring order.
-/

namespace LlmRuntime.DistInf

open Discovery Execution Function

universe u

section Traversal

variable {ι : Type} {Row : Type u}

def Chained (first : Activation) : List (Pass ι) → Activation → Prop
  | [], last => first = last
  | pass :: rest, last => pass.input = first ∧ Chained pass.output rest last

theorem chained_snoc {passes : List (Pass ι)} {pass : Pass ι} :
    ∀ {first middle : Activation}, Chained first passes middle → pass.input = middle →
      Chained first (passes ++ [pass]) pass.output := by
  induction passes with
  | nil =>
    intro first middle chained takes
    refine ⟨?_, rfl⟩
    rw [takes]
    exact chained.symm
  | cons head rest ih =>
    intro first middle chained takes
    exact ⟨chained.1, ih chained.2 takes⟩

variable (cluster : Cluster ι Row) (ring : List ι) (tmpl : AssignLayers)

/-- The passes by which an embedding became `x` on its way through the first
`k` workers of the ring, with the sequence number `seq`. -/
structure Traversal (history : List (Pass ι)) (k : Nat) (seq : UInt32) (x : Activation)
    (passes : List (Pass ι)) : Prop where
  made : ∀ pass ∈ passes, pass ∈ history ∧ pass.hop.seq = seq
  workers : passes.map Pass.worker = ring.take k
  layers : passes.map Pass.assignment = (List.range k).map (assignedLayers tmpl ring.length)
  chained : ∃ token, Chained (cluster.gen.embed token) passes x

def Traced (history : List (Pass ι)) (k : Nat) (seq : UInt32) (x : Activation) : Prop :=
  ∃ passes, Traversal cluster ring tmpl history k seq x passes

variable {cluster ring tmpl}

theorem traced_first (history : List (Pass ι)) (seq : UInt32) (token : Int) :
    Traced cluster ring tmpl history 0 seq (cluster.gen.embed token) := by
  refine ⟨[], ?_, rfl, rfl, token, rfl⟩
  intro pass isPass
  cases isPass

theorem Traced.mono {history more : List (Pass ι)} {k : Nat} {seq : UInt32}
    {x : Activation} (traced : Traced cluster ring tmpl history k seq x) :
    Traced cluster ring tmpl (history ++ more) k seq x := by
  obtain ⟨passes, traversal⟩ := traced
  refine ⟨passes, ?_, traversal.workers, traversal.layers, traversal.chained⟩
  intro pass isPass
  have made := traversal.made pass isPass
  exact ⟨List.mem_append_left _ made.1, made.2⟩

theorem Traced.extend {history : List (Pass ι)} {k : Nat} {seq : UInt32} {pass : Pass ι}
    (traced : Traced cluster ring tmpl history k seq pass.input) (isMade : pass ∈ history)
    (sameSeq : pass.hop.seq = seq) (isNext : ring[k]? = some pass.worker)
    (ownRange : pass.assignment = assignedLayers tmpl ring.length k) :
    Traced cluster ring tmpl history (k + 1) seq pass.output := by
  obtain ⟨passes, traversal⟩ := traced
  refine ⟨passes ++ [pass], ?_, ?_, ?_, ?_⟩
  · intro each isEach
    rcases List.mem_append.mp isEach with isOld | isNew
    · exact traversal.made each isOld
    · rw [List.mem_singleton.mp isNew]
      exact ⟨isMade, sameSeq⟩
  · rw [List.map_append, traversal.workers, List.take_add_one, isNext]
    rfl
  · rw [List.map_append, traversal.layers, List.range_succ,
      List.map_append, List.map_singleton, List.map_singleton, ownRange]
  · obtain ⟨token, chained⟩ := traversal.chained
    exact ⟨token, chained_snoc chained rfl⟩

end Traversal

section Session

variable {Row : Type u}

/-- Between the load and the moment the session is live. -/
def InferArms (session : UInt32) (worker : Worker Row) : Prop :=
  match worker.infer with
  | .setSession assignment => ∀ shard, worker.shard = some shard → shard.assignment = assignment
  | .setReady _ => worker.session = session
  | _ => True

/-- Whenever the worker's live session is `session`, its shard is one of the
`allowed` ranges. -/
structure ServesOnly (allowed : AssignLayers → Prop) (session : UInt32)
    (worker : Worker Row) : Prop where
  holds : HoldsOnly allowed worker
  armed : worker.ready = true → worker.session ≠ 0
  resident :
    worker.session = session → ∀ shard, worker.shard = some shard → allowed shard.assignment
  arms : InferArms session worker

variable {allowed : AssignLayers → Prop} {session : UInt32}
variable {self : WorkerSelf} {kernel : Kernel Row}
variable {worker next : Worker Row}

section Serves

variable (serves : ServesOnly allowed session worker)

include serves

theorem ServesOnly.listen (frame : ListenFrame worker next) (holds : HoldsOnly allowed next) :
    ServesOnly allowed session next := by
  refine ⟨holds, ?_, ?_, ?_⟩
  · intro ready
    rw [frame.session]
    exact serves.armed (frame.ready ready)
  · rw [frame.session, frame.shard]
    exact serves.resident
  · have arms := serves.arms
    unfold InferArms at arms ⊢
    rw [frame.infer, frame.shard, frame.session]
    exact arms

theorem ServesOnly.move (holds : HoldsOnly allowed next)
    (sameSession : next.session = worker.session) (ready : next.ready = true → worker.ready = true)
    (shard : ∀ shard, next.shard = some shard →
        ∃ old, worker.shard = some old ∧ shard.assignment = old.assignment)
    (arms : InferArms session next) :
    ServesOnly allowed session next := by
  refine ⟨holds, ?_, ?_, arms⟩
  · intro isReady
    rw [sameSession]
    exact serves.armed (ready isReady)
  · intro isSession found isFound
    obtain ⟨old, isOld, sameRange⟩ := shard found isFound
    rw [sameRange]
    rw [sameSession] at isSession
    exact serves.resident isSession old isOld

theorem ServesOnly.moveOn (holds : HoldsOnly allowed next)
    (sameSession : next.session = worker.session) (sameReady : next.ready = worker.ready)
    (sameShard : next.shard = worker.shard) (arms : InferArms session next) :
    ServesOnly allowed session next := by
  refine serves.move holds sameSession ?_ ?_ arms
  · intro ready
    rwa [sameReady] at ready
  · intro shard isShard
    rw [sameShard] at isShard
    exact ⟨shard, isShard, rfl⟩

theorem ServesOnly.forward {hop : InferHop} {x : Activation} {fwdUs : UInt32}
    (holds : HoldsOnly allowed (forwardHop kernel worker hop x fwdUs)) :
    ServesOnly allowed session (forwardHop kernel worker hop x fwdUs) := by
  rcases forwardHop_cases kernel worker hop x fwdUs with
    refused | ⟨shard, result, after, resident, pass, isNext⟩
  · rw [refused] at holds ⊢
    exact serves.moveOn holds rfl rfl rfl trivial
  · rw [isNext] at holds ⊢
    refine serves.move holds rfl id ?_ trivial
    intro found isFound
    refine ⟨shard, resident, ?_⟩
    rw [← Option.some.inj isFound, (shardForward_some pass).2.2]

theorem ServesOnly.inferStep
    (rightSession : ∀ assignment, allowed assignment → assignment.sessionId = session)
    (nonzero : session ≠ 0) (fetch : Fetch) (fwdUs : UInt32) :
    ServesOnly allowed session (inferStep self kernel worker fetch fwdUs).1 := by
  have holds : HoldsOnly allowed (DistInf.inferStep self kernel worker fetch fwdUs).1 :=
    serves.holds.inferStep fetch fwdUs
  have held := serves.holds.infer
  have arms := serves.arms
  unfold InferArms at arms
  unfold DistInf.inferStep at holds ⊢
  cases pc : worker.infer with
  | top =>
    rw [pc] at holds
    refine serves.moveOn holds rfl rfl rfl ?_
    dsimp only [InferArms]
    cases worker.haveAssignment <;> trivial
  | copyAssignment | clearAssignment | report | send =>
    rw [pc] at holds
    exact serves.moveOn holds rfl rfl rfl trivial
  | clearReady assignment =>
    rw [pc] at holds
    refine serves.move holds rfl (fun ready => nomatch ready) ?_ trivial
    intro shard isShard
    exact ⟨shard, isShard, rfl⟩
  | release assignment =>
    rw [pc] at holds
    exact serves.move holds rfl id (fun _ isShard => nomatch isShard) trivial
  | load assignment =>
    rw [pc] at held holds
    have ownRange :
        ∀ shard, loadShard kernel assignment fetch = some shard → shard.assignment = assignment :=
      fun shard isShard => loadShard_assignment isShard
    refine ⟨holds, serves.armed, ?_, ?_⟩
    · intro isSession shard isShard
      rw [ownRange shard isShard]
      exact held
    · dsimp only [InferArms]
      split_ifs with loaded
      · exact ownRange
      · trivial
  | setSession assignment =>
    rw [pc] at held holds arms
    have isSession := rightSession assignment held
    refine ⟨holds, ?_, ?_, isSession⟩
    · intro ready
      change assignment.sessionId ≠ 0
      rw [isSession]
      exact nonzero
    · intro live shard isShard
      rw [arms shard isShard]
      exact held
  | setReady assignment =>
    rw [pc] at holds arms
    refine ⟨holds, ?_, serves.resident, trivial⟩
    intro ready
    change worker.session ≠ 0
    rw [arms]
    exact nonzero
  | testHop =>
    rw [pc] at holds
    refine serves.moveOn holds rfl rfl rfl ?_
    dsimp only [InferArms]
    cases worker.haveHop <;> trivial
  | testReady =>
    rw [pc] at holds
    refine serves.moveOn holds rfl rfl rfl ?_
    dsimp only [InferArms]
    cases worker.ready <;> trivial
  | drain =>
    rw [pc] at holds
    dsimp only [drainHop] at holds ⊢
    split_ifs at holds ⊢ <;> exact serves.moveOn holds rfl rfl rfl trivial
  | forward hop x =>
    rw [pc] at holds
    exact serves.forward holds

theorem ServesOnly.workerStep
    (rightSession : ∀ assignment, allowed assignment → assignment.sessionId = session)
    (nonzero : session ≠ 0) {event : WorkerEvent} (admits :
      ∀ msg src, event = .deliver msg src → AcceptedAssign self msg src →
        allowed (AssignLayers.decode msg.payload)) :
    ServesOnly allowed session (workerStep self kernel worker event).1 := by
  have holds : HoldsOnly allowed (DistInf.workerStep self kernel worker event).1 :=
    serves.holds.workerStep admits
  cases event with
  | deliver msg src => exact serves.listen (deliverStep_frame self worker msg src) holds
  | listen => exact serves.listen (listenStep_frame self worker) holds
  | infer fetch fwdUs => exact serves.inferStep rightSession nonzero fetch fwdUs

omit serves in
theorem inferStep_session (self : WorkerSelf) (kernel : Kernel Row)
    (worker : Worker Row) (fetch : Fetch) (fwdUs : UInt32) :
    (inferStep self kernel worker fetch fwdUs).1.session = worker.session ∨
      ∃ assignment, worker.infer = .setSession assignment ∧
        (inferStep self kernel worker fetch fwdUs).1.session = assignment.sessionId := by
  unfold DistInf.inferStep
  cases pc : worker.infer with
  | setSession assignment => exact .inr ⟨assignment, rfl, rfl⟩
  | drain =>
    left
    dsimp only [drainHop]
    split_ifs <;> rfl
  | forward hop x =>
    left
    dsimp only [forwardHop]
    split <;> rfl
  | top | copyAssignment | clearAssignment | clearReady | release | load
  | setReady | report | testHop | testReady | send => exact .inl rfl

theorem ServesOnly.session_step (self : WorkerSelf) (kernel : Kernel Row)
    (rightSession : ∀ assignment, allowed assignment → assignment.sessionId = session)
    (event : WorkerEvent) :
    (DistInf.workerStep self kernel worker event).1.session = worker.session ∨
      (DistInf.workerStep self kernel worker event).1.session = session := by
  cases event with
  | deliver msg src => exact .inl (deliverStep_frame self worker msg src).session
  | listen => exact .inl (listenStep_frame self worker).session
  | infer fetch fwdUs =>
    rcases inferStep_session self kernel worker fetch fwdUs with same | changes
    · exact .inl same
    · obtain ⟨assignment, atPc, isSession⟩ := changes
      have held := serves.holds.infer
      rw [atPc] at held
      right
      rw [rightSession assignment held] at isSession
      exact isSession

end Serves

end Session

/-- Inside `master_run_token` the activation sent is the embedding of the token,
and one that has been accepted is `covered`. -/
structure TokenOk (gen : Generation) (covered : Activation → Prop) (driver : Driver) : Prop where
  embeds : ∀ frame, frameOf driver.pc = some frame → frame.x = gen.embed frame.token
  final : ∀ frame, frameOf driver.pc = some frame → driver.haveFinal = true → covered driver.finalX

section Token

variable {plan : SessionPlan} {gen : Generation}
variable {covered : Activation → Prop} {driver later : Driver}

theorem TokenOk.mono {more : Activation → Prop} (ok : TokenOk gen covered driver)
    (weaker : ∀ x, covered x → more x) : TokenOk gen more driver :=
  ⟨ok.embeds, fun frame isFrame accepted =>
    weaker _ (ok.final frame isFrame accepted)⟩

theorem TokenOk.outside (noFrame : (tokenPhase later.pc).frame = none) :
    TokenOk gen covered later := by
  rw [← frameOf_eq_phase] at noFrame
  refine ⟨?_, ?_⟩
  · intro frame isFrame
    rw [noFrame] at isFrame
    cases isFrame
  · intro frame isFrame
    rw [noFrame] at isFrame
    cases isFrame

theorem TokenOk.inside {frame : TokenFrame} (isFrame : (tokenPhase later.pc).frame = some frame)
    (embeds : frame.x = gen.embed frame.token)
    (final : later.haveFinal = true → covered later.finalX) :
    TokenOk gen covered later := by
  rw [← frameOf_eq_phase] at isFrame
  refine ⟨?_, fun _ _ => final⟩
  intro other isOther
  rw [← Option.some.inj (isFrame.symm.trans isOther)]
  exact embeds

theorem TokenOk.move (ok : TokenOk gen covered driver)
    (phase : tokenPhase later.pc = tokenPhase driver.pc) (final : later.haveFinal = true →
      covered later.finalX ∨ driver.haveFinal = true ∧ later.finalX = driver.finalX) :
    TokenOk gen covered later := by
  have sameFrame : frameOf later.pc = frameOf driver.pc := by
    rw [frameOf_eq_phase, frameOf_eq_phase, phase]
  refine ⟨?_, ?_⟩
  · intro frame isFrame
    exact ok.embeds frame (sameFrame.symm.trans isFrame)
  · intro frame isFrame accepted
    rcases final accepted with isCovered | ⟨before, sameX⟩
    · exact isCovered
    · rw [sameX]
      exact ok.final frame (sameFrame.symm.trans isFrame) before

theorem TokenMove.tokenOk (move : TokenMove plan gen driver later) (ok : TokenOk gen covered driver)
    (accepts : ∀ caller received rest staging, driver.pc = .pump caller →
        driver.queue = received :: rest →
        AcceptsFinal plan gen driver received staging →
        covered staging) :
    TokenOk gen covered later := by
  cases move with
  | rests _ notSending phase vars =>
    refine ok.move phase ?_
    intro accepted
    exact .inr ⟨(congrArg TokenVars.haveFinal vars).symm.trans accepted,
      congrArg TokenVars.finalX vars⟩
  | enters _ isOutside noFrame vars => exact TokenOk.outside noFrame
  | begins pos token _ atPc within phase vars =>
    refine TokenOk.inside (congrArg TokenPhase.frame phase) rfl ?_
    intro accepted
    have cleared : later.haveFinal = false := congrArg TokenVars.haveFinal vars
    rw [cleared] at accepted
    cases accepted
  | completes pos token _ atPc done phase vars
  | givesUp frame _ atPc exhausted phase vars =>
    exact TokenOk.outside (congrArg TokenPhase.frame phase)
  | sends frame _ atPc within phase vars =>
    have isFrame : frameOf driver.pc = some frame := by
      rw [atPc]
      rfl
    refine TokenOk.inside (congrArg TokenPhase.frame phase) (ok.embeds frame isFrame) ?_
    intro accepted
    have sameX : later.finalX = driver.finalX := congrArg TokenVars.finalX vars
    rw [sameX]
    exact ok.final frame isFrame ((congrArg TokenVars.haveFinal vars).symm.trans accepted)
  | accepts caller received rest staging _ atPc isQueue accepted phase
      vars =>
    refine ok.move phase ?_
    intro _
    have isX : later.finalX = staging := congrArg TokenVars.finalX vars
    rw [isX]
    exact .inl (accepts caller received rest staging atPc isQueue accepted)
  | advances frame waited _ atPc accepted goesOn phase vars =>
    exact TokenOk.outside (congrArg TokenPhase.frame phase)
  | stops frame waited _ atPc accepted isEnd phase vars =>
    exact TokenOk.outside (congrArg TokenPhase.frame phase)
  | retries frame waited _ atPc noFinal phase vars =>
    have isFrame : frameOf driver.pc = some frame := by
      rw [atPc]
      rfl
    refine TokenOk.inside (congrArg TokenPhase.frame phase) (ok.embeds frame isFrame) ?_
    intro accepted
    have same : later.haveFinal = driver.haveFinal := congrArg TokenVars.haveFinal vars
    rw [same, noFinal] at accepted
    cases accepted

end Token

section Links

variable {ι : Type} {Row : Type u}

/-- Where a hop that has passed `k` workers of the ring comes from. -/
def ComesFrom (cluster : Cluster ι Row) (ring : List ι) :
    Nat → RpcAddr → Prop
  | 0, src => src = cluster.plan.self
  | k + 1, src => ∃ i, ring[k]? = some i ∧ src = cluster.addr i

variable {cluster : Cluster ι Row} {ring : List ι} {src : RpcAddr}

theorem comesFrom_unique (distinct : ring.Nodup) {j k : Nat} (first : ComesFrom cluster ring j src)
    (second : ComesFrom cluster ring k src) : j = k := by
  cases j with
  | zero =>
    cases k with
    | zero => rfl
    | succ k =>
      obtain ⟨i, isWorker, isAddr⟩ := second
      have isMaster : src = cluster.plan.self := first
      rw [isAddr] at isMaster
      exact absurd isMaster (cluster.addr_ne_master i)
  | succ j =>
    obtain ⟨i, isWorker, isAddr⟩ := first
    cases k with
    | zero =>
      have isMaster : src = cluster.plan.self := second
      rw [isAddr] at isMaster
      exact absurd isMaster (cluster.addr_ne_master i)
    | succ k =>
      obtain ⟨other, isOther, isOtherAddr⟩ := second
      rw [isAddr] at isOtherAddr
      rw [← cluster.addr_injective isOtherAddr] at isOther
      rw [index_unique distinct isWorker isOther]

variable [DecidableEq ι]

/-- The address before worker `i` in a list of workers that `prev` precedes. -/
def addrBefore (cluster : Cluster ι Row) (i : ι) :
    RpcAddr → List ι → Option RpcAddr
  | _, [] => none
  | prev, j :: rest =>
    if j = i then some prev
    else addrBefore cluster i (cluster.addr j) rest

theorem addrBefore_some {i : ι} {workers : List ι} :
    ∀ {prev : RpcAddr},
      addrBefore cluster i prev workers = some src →
        (workers[0]? = some i ∧ src = prev) ∨
          ∃ k j, workers[k + 1]? = some i ∧ workers[k]? = some j ∧ src = cluster.addr j := by
  induction workers with
  | nil =>
    intro prev found
    cases found
  | cons first rest ih =>
    intro prev found
    unfold addrBefore at found
    split_ifs at found with isFirst
    · left
      exact ⟨congrArg some isFirst, (Option.some.inj found).symm⟩
    · right
      rcases ih found with isSecond | isLater
      · exact ⟨0, first, isSecond.1, rfl, isSecond.2⟩
      · obtain ⟨k, j, isWorker, isBefore, isAddr⟩ := isLater
        exact ⟨k + 1, j, isWorker, isBefore, isAddr⟩

/-- The predecessor of a worker in the ring; the first has the master. -/
def ringPrev (cluster : Cluster ι Row) (ring : List ι) (i : ι) : Option RpcAddr :=
  addrBefore cluster i cluster.plan.self ring

theorem ringPrev_some {i : ι} (isPrev : ringPrev cluster ring i = some src) :
    ∃ k, ring[k]? = some i ∧ ComesFrom cluster ring k src := by
  rcases addrBefore_some isPrev with isFirst | isLater
  · exact ⟨0, isFirst⟩
  · obtain ⟨k, j, isWorker, isBefore, isAddr⟩ := isLater
    exact ⟨k + 1, isWorker, j, isBefore, isAddr⟩

def ringLast (cluster : Cluster ι Row) (ring : List ι) : Option RpcAddr :=
  ring.getLast?.map cluster.addr

omit [DecidableEq ι] in
theorem ringLast_some (isLast : ringLast cluster ring = some src) :
    ComesFrom cluster ring ring.length src := by
  obtain ⟨i, isWorker, isAddr⟩ := Option.map_eq_some_iff.mp isLast
  rw [List.getLast?_eq_getElem?] at isWorker
  cases length : ring.length with
  | zero =>
    rw [List.length_eq_zero_iff.mp length] at isWorker
    cases isWorker
  | succ k =>
    rw [length] at isWorker
    exact ⟨i, isWorker, isAddr.symm⟩

/-- A hop of the session that a worker's source test would let in comes from
the worker before it in the ring. -/
def linkedListen (cluster : Cluster ι Row) (ring : List ι) (i : ι) (worker : Worker Row) : Bool :=
  match worker.listen with
  | .hopTestSource src hop _ =>
    decide (hop.sessionId ≠ cluster.plan.session ∨
      ¬ (src = worker.prev ∨ src = cluster.plan.self) ∨
      ringPrev cluster ring i = some src)
  | _ => true

/-- An activation that the pump takes from the worker the registry has as ring
tail comes from the last worker of the session. -/
def linkedFinal (cluster : Cluster ι Row) (ring : List ι) (driver : Driver) : Bool :=
  match driver.pc with
  | .pump _ =>
    driver.queue.head?.all fun received =>
      received.1.all fun msg =>
        decide (msg.mtype ≠ .call ∨ msg.proc ≠ procInferReq ∨
          (masterRingTail cluster.plan.self driver.discovery.registry).map
              (fun tail =>
                (driver.discovery.registry tail).info.addr) ≠
            some received.2 ∨
          ringLast cluster ring = some received.2)
  | _ => true

def ringLinked (cluster : Cluster ι Row) (ring : List ι)
    (state : ClusterState ι Row) : ClusterEvent ι → Bool
  | .worker i .listen => linkedListen cluster ring i (state.worker i)
  | .master _ => linkedFinal cluster ring state.driver
  | _ => true

theorem linkedListen_source {i : ι} {worker : Worker Row} {hop : InferHop}
    {x : Activation} (linked : linkedListen cluster ring i worker = true)
    (atPc : worker.listen = .hopTestSource src hop x)
    (isSession : hop.sessionId = cluster.plan.session)
    (fromNeighbor : src = worker.prev ∨ src = cluster.plan.self) :
    ∃ k, ring[k]? = some i ∧ ComesFrom cluster ring k src := by
  rw [linkedListen, atPc] at linked
  have choices := of_decide_eq_true linked
  rcases choices with otherSession | notNeighbor | isPrev
  · exact absurd isSession otherSession
  · exact absurd fromNeighbor notNeighbor
  · exact ringPrev_some isPrev

omit [DecidableEq ι] in
theorem linkedFinal_source {driver : Driver} {caller : PumpCaller} {received : Received}
    {rest : List Received} {staging : Activation} (linked : linkedFinal cluster ring driver = true)
    (atPump : driver.pc = .pump caller) (isQueue : driver.queue = received :: rest)
    (accepts : AcceptsFinal cluster.plan cluster.gen driver received staging) :
    ComesFrom cluster ring ring.length received.2 := by
  obtain ⟨msg, hop, tail, isMsg, isCall, isHop, decoded, sameSeq, isTail, isSource⟩ := accepts
  simp only [linkedFinal, atPump, isQueue, List.head?_cons, Option.all_some, isMsg] at linked
  have choices := of_decide_eq_true linked
  rcases choices with notCall | notHop | notTail | isLast
  · exact absurd isCall notCall
  · exact absurd isHop notHop
  · rw [isTail, Option.map_some, isSource] at notTail
    exact absurd rfl notTail
  · exact ringLast_some isLast

end Links

/-! ## The invariant of the session -/

section Coverage

variable {ι : Type} {Row : Type u}
variable (cluster : Cluster ι Row) (ring : List ι) (tmpl : AssignLayers)

/-- The range that the session gives to worker `i`. -/
def AssignedTo (i : ι) (assignment : AssignLayers) : Prop :=
  ∃ k, ring[k]? = some i ∧ assignment = assignedLayers tmpl ring.length k

/-- A hop of the session from `src` has passed the workers up to `src`. -/
def TracedFrom (history : List (Pass ι)) (src : RpcAddr) (hop : InferHop) (x : Activation) : Prop :=
  ∃ k, ComesFrom cluster ring k src ∧ Traced cluster ring tmpl history k hop.seq x

/-- A hop of the session at worker `i` has passed the workers before `i`. -/
def TracedAt (history : List (Pass ι)) (i : ι) (hop : InferHop) (x : Activation) : Prop :=
  ∃ k, ring[k]? = some i ∧ Traced cluster ring tmpl history k hop.seq x

/-- What is known of the hops of the session in worker `i`, whose live session
is `live`. -/
def coverChecks (history : List (Pass ι)) (i : ι) (live : UInt32) : HopChecks where
  arrived := fun src hop x =>
    hop.sessionId = cluster.plan.session → TracedFrom cluster ring tmpl history src hop x
  decoded := fun src hop x =>
    hop.sessionId = cluster.plan.session →
      TracedFrom cluster ring tmpl history src hop x ∧ (live = 0 ∨ live = cluster.plan.session)
  admitted := fun src hop x =>
    hop.sessionId = cluster.plan.session →
      TracedFrom cluster ring tmpl history src hop x ∧ live = cluster.plan.session
  accepted := fun hop x =>
    hop.sessionId = cluster.plan.session →
      TracedAt cluster ring tmpl history i hop x ∧ live = cluster.plan.session
  passed := fun hop x =>
    hop.sessionId = cluster.plan.session →
      TracedFrom cluster ring tmpl history (cluster.addr i) hop x

/-- The payload holds no hop of the session, or one that is traced. -/
def PayloadTraced (history : List (Pass ι)) (src : RpcAddr) (payload : List UInt8) : Prop :=
  ∀ dim session hop x,
    inferDecodeHop payload dim session = some (hop, x) →
      hop.sessionId = cluster.plan.session → TracedFrom cluster ring tmpl history src hop x

structure CoverInvariant (state : ClusterState ι Row) : Prop where
  fits : CallFits state.driver.pc
  todo : ∀ op ∈ todoOf state.driver.pc, op ∈ cluster.plan.ops
  hops :
    ∀ sent ∈ state.wire, sent.msg.mtype = .call → sent.msg.proc = procInferReq →
        PayloadTraced cluster ring tmpl state.passes sent.src sent.msg.payload
  assigns :
    ∀ sent ∈ state.wire, sent.src = cluster.plan.self →
      sent.msg.mtype = .call → sent.msg.proc = procAssignLayers →
        ∃ i, sent.dst = cluster.addr i ∧
          AssignedTo ring tmpl i (AssignLayers.decode sent.msg.payload)
  serves : ∀ i, ServesOnly (AssignedTo ring tmpl i) cluster.plan.session (state.worker i)
  tracked :
    ∀ i,
      HopsOk (coverChecks cluster ring tmpl state.passes i (state.worker i).session)
        (state.worker i)
  queue :
    ∀ received ∈ state.driver.queue, ∀ msg, received.1 = some msg →
      msg.mtype = .call → msg.proc = procInferReq →
        PayloadTraced cluster ring tmpl state.passes received.2 msg.payload
  token :
    TokenOk cluster.gen
      (fun x =>
        ∃ seq, Traced cluster ring tmpl state.passes ring.length seq x)
      state.driver

/-- At the start nothing of the session has been sent, no assignment is under
way and the workers are not in this session; their neighbours, shards, counters
and hops of earlier sessions are arbitrary. -/
structure CleanStart (state : ClusterState ι Row) : Prop where
  hops :
    ∀ sent ∈ state.wire, sent.msg.mtype = .call → sent.msg.proc = procInferReq →
        ∀ dim session hop x,
          inferDecodeHop sent.msg.payload dim session = some (hop, x) →
            hop.sessionId ≠ cluster.plan.session
  assigns :
    ∀ sent ∈ state.wire, sent.src = cluster.plan.self →
      sent.msg.mtype = .call → sent.msg.proc ≠ procAssignLayers
  queue :
    ∀ received ∈ state.driver.queue, ∀ msg, received.1 = some msg →
      msg.mtype = .call → msg.proc = procInferReq →
        ∀ dim session hop x,
          inferDecodeHop msg.payload dim session = some (hop, x) →
            hop.sessionId ≠ cluster.plan.session
  workers :
    ∀ i, HoldsOnly (fun _ => False) (state.worker i) ∧
      (state.worker i).session ≠ cluster.plan.session ∧
      ((state.worker i).ready = true → (state.worker i).session ≠ 0)
  oldHops :
    ∀ i,
      HopsOk
        { arrived := fun _ hop _ =>
            hop.sessionId ≠ cluster.plan.session
          decoded := fun _ hop _ =>
            hop.sessionId ≠ cluster.plan.session
          admitted := fun _ hop _ =>
            hop.sessionId ≠ cluster.plan.session
          accepted := fun hop _ => hop.sessionId ≠ cluster.plan.session
          passed := fun hop _ => hop.sessionId ≠ cluster.plan.session }
        (state.worker i)

variable {cluster ring tmpl}

variable {history more : List (Pass ι)} {i : ι} {hop : InferHop} {x : Activation}

theorem TracedFrom.mono {src : RpcAddr} (traced : TracedFrom cluster ring tmpl history src hop x) :
    TracedFrom cluster ring tmpl (history ++ more) src hop x := by
  obtain ⟨k, comesFrom, passes⟩ := traced
  exact ⟨k, comesFrom, passes.mono⟩

theorem TracedAt.mono (traced : TracedAt cluster ring tmpl history i hop x) :
    TracedAt cluster ring tmpl (history ++ more) i hop x := by
  obtain ⟨k, isWorker, passes⟩ := traced
  exact ⟨k, isWorker, passes.mono⟩

theorem PayloadTraced.mono {src : RpcAddr} {payload : List UInt8}
    (traced : PayloadTraced cluster ring tmpl history src payload) :
    PayloadTraced cluster ring tmpl (history ++ more) src payload := by
  intro dim session hop x decoded isSession
  exact (traced dim session hop x decoded isSession).mono

theorem HopsOk.coverMono {live now : UInt32} {worker : Worker Row}
    (tracked : HopsOk (coverChecks cluster ring tmpl history i live) worker)
    (more : List (Pass ι)) (moves : now = live ∨ now = cluster.plan.session) :
    HopsOk (coverChecks cluster ring tmpl (history ++ more) i now) worker := by
  have stays : live = cluster.plan.session → now = cluster.plan.session := by
    intro isLive
    rcases moves with same | changed
    · rw [same]
      exact isLive
    · exact changed
  refine tracked.mono ?_ ?_ ?_ ?_ ?_
  · intro src hop x known isSession
    exact (known isSession).mono
  · intro src hop x known isSession
    obtain ⟨traced, isFresh | isLive⟩ := known isSession
    · refine ⟨traced.mono, ?_⟩
      rcases moves with same | changed
      · rw [same]
        exact .inl isFresh
      · exact .inr changed
    · exact ⟨traced.mono, .inr (stays isLive)⟩
  · intro src hop x known isSession
    obtain ⟨traced, isLive⟩ := known isSession
    exact ⟨traced.mono, stays isLive⟩
  · intro hop x known isSession
    obtain ⟨traced, isLive⟩ := known isSession
    exact ⟨traced.mono, stays isLive⟩
  · intro hop x known isSession
    exact (known isSession).mono

theorem assignedTo_session {assignment : AssignLayers}
    (isSession : tmpl.sessionId = cluster.plan.session)
    (assigned : AssignedTo ring tmpl i assignment) :
    assignment.sessionId = cluster.plan.session := by
  obtain ⟨k, isWorker, isRange⟩ := assigned
  rw [isRange]
  exact isSession

theorem passOf_forward {kernel : Kernel Row} {worker : Worker Row} {fetch : Fetch} {fwdUs : UInt32}
    {result : Activation} {shard after : Shard Row} (atPc : worker.infer = .forward hop x)
    (resident : worker.shard = some shard)
    (pass : shardForward kernel shard x hop.pos = some (result, after)) :
    passOf kernel i worker (.infer fetch fwdUs) =
      some ⟨i, shard.assignment, hop, x, kernel.tamper result⟩ := by
  unfold passOf
  rw [atPc]
  dsimp only
  rw [resident, Option.bind_some, pass, Option.map_some]

variable {state : ClusterState ι Row} {i : ι} {event : WorkerEvent}

section Invariant

variable (invariant : CoverInvariant cluster ring tmpl state)

include invariant

/-- How the stages of a hop follow from each other in a worker of the
session. -/
theorem CoverInvariant.rules [DecidableEq ι] (distinct : ring.Nodup)
    (deliverable : Deliverable cluster state i event) (linked : event = .listen →
        linkedListen cluster ring i (state.worker i) = true) :
    HopRules
      (coverChecks cluster ring tmpl (state.passes ++
          (passOf (cluster.kernel i) i (state.worker i) event).toList)
        i (state.worker i).session)
      (cluster.workerSelf i) (cluster.kernel i) (state.worker i)
      event := by
  refine ⟨?_, ?_, ?_, ?_, ?_⟩
  · intro msg src isDeliver isCall isHop dim session hop x decoded
    rw [isDeliver] at deliverable
    exact (invariant.hops _ deliverable isCall isHop).mono dim session hop x decoded
  · intro src payload dim hop x decoded arrived isSession
    refine ⟨arrived isSession, ?_⟩
    by_cases unset : (state.worker i).session = 0
    · exact .inl unset
    · right
      rw [← isSession]
      exact ((inferDecodeHop_some decoded).2 unset).symm
  · intro src hop x ready decoded isSession
    obtain ⟨traced, unset | isLive⟩ := decoded isSession
    · exact absurd unset ((invariant.serves i).armed ready)
    · exact ⟨traced, isLive⟩
  · intro src hop x isListen atPc fromNeighbor admitted isSession
    obtain ⟨⟨k, comesFrom, traced⟩, isLive⟩ := admitted isSession
    obtain ⟨j, isWorker, isBefore⟩ :=
      linkedListen_source (linked isListen) atPc isSession fromNeighbor
    rw [comesFrom_unique distinct comesFrom isBefore] at traced
    exact ⟨⟨j, isWorker, traced⟩, isLive⟩
  · intro fetch fwdUs hop x shard result after isInfer atPc resident pass accepted isSession
    obtain ⟨⟨k, isWorker, traced⟩, isLive⟩ := accepted isSession
    obtain ⟨j, isOwn, ownRange⟩ := (invariant.serves i).resident isLive shard resident
    rw [index_unique distinct isOwn isWorker] at ownRange
    have isMade :
        (⟨i, shard.assignment, hop, x, (cluster.kernel i).tamper result⟩ : Pass ι) ∈
          state.passes ++ (passOf (cluster.kernel i) i (state.worker i) event).toList := by
      rw [isInfer, passOf_forward atPc resident pass]
      exact List.mem_append_right _ List.mem_cons_self
    refine ⟨k + 1, ⟨i, isWorker, rfl⟩, ?_⟩
    exact Traced.extend traced isMade rfl isWorker ownRange

theorem CoverInvariant.sends {sent : Outgoing} {xid : UInt32}
    (sends : WorkerSends (cluster.workerSelf i) (state.worker i) sent)
    (isCall : (sent.datagram (cluster.addr i) xid).msg.mtype = .call)
    (isHop : (sent.datagram (cluster.addr i) xid).msg.proc = procInferReq) :
    PayloadTraced cluster ring tmpl state.passes (cluster.addr i)
      (sent.datagram (cluster.addr i) xid).msg.payload := by
  cases sends with
  | reply dst replyXid stat payload => cases isCall
  | report assignment status atPc =>
    have other : procShardReady = procInferReq := isHop
    exact absurd other (by decide)
  | hop hop result fwdUs atPc =>
    intro dim session decodedHop x decoded isSession
    obtain ⟨sameHop, sameX⟩ := inferDecodeHop_sent decoded
    have known := (invariant.tracked i).infer
    rw [atPc] at known
    rw [sameHop] at isSession ⊢
    rw [sameX]
    exact known isSession

theorem CoverInvariant.masterSends (planned : SessionOver cluster ring tmpl) {sent : Datagram}
    (sends : DriverSends cluster.plan cluster.gen state.driver sent)
    (isCall : sent.msg.mtype = .call) :
    (sent.msg.proc = procInferReq →
        PayloadTraced cluster ring tmpl state.passes sent.src sent.msg.payload) ∧
      (sent.msg.proc = procAssignLayers →
        ∃ i, sent.dst = cluster.addr i ∧
          AssignedTo ring tmpl i (AssignLayers.decode sent.msg.payload)) := by
  rcases driverSends_call planned invariant.fits invariant.todo sends isCall
    with (isProc | isProc) | ⟨isProc, k, i, isWorker, isDst, isPayload⟩ |
      ⟨frame, sentHop, atPc, isProc, isSource, isPayload⟩ <;>
    rw [isProc]
  · exact ⟨fun isHop => absurd isHop (by decide), fun isAssign => absurd isAssign (by decide)⟩
  · exact ⟨fun isHop => absurd isHop (by decide), fun isAssign => absurd isAssign (by decide)⟩
  · refine ⟨fun isHop => absurd isHop (by decide), ?_⟩
    intro isAssign
    rw [isPayload, AssignLayers.decode_encode]
    exact ⟨i, isDst, k, isWorker, rfl⟩
  · refine ⟨?_, fun isAssign => absurd isAssign (by decide)⟩
    intro isHop dim session hop x decoded isSession
    rw [isPayload] at decoded
    have isFrame : frameOf state.driver.pc = some frame := by
      rw [atPc]
      rfl
    rw [isSource, (inferDecodeHop_sent decoded).2, invariant.token.embeds frame isFrame]
    exact ⟨0, rfl, traced_first _ _ _⟩

omit invariant in
theorem CoverInvariant.initially (start : SessionStart cluster ring tmpl state.driver)
    (clean : CleanStart cluster state) :
    CoverInvariant cluster ring { tmpl with sessionId := cluster.plan.session } state := by
  obtain ⟨before, drawn, now, started⟩ := start.begun
  have atSetup := (startSession_plan started).2.1
  refine ⟨?_, ?_, ?_, ?_, ?_, ?_, ?_, ?_⟩
  · rw [atSetup]
    exact callFits_setup_none _
  · intro op isTodo
    rw [atSetup] at isTodo
    exact isTodo
  · intro sent isSent isCall isHop dim session hop x decoded isSession
    exact absurd isSession (clean.hops sent isSent isCall isHop dim session hop x decoded)
  · intro sent isSent fromMaster isCall isAssign
    exact absurd isAssign (clean.assigns sent isSent fromMaster isCall)
  · intro i
    obtain ⟨noAssignment, otherSession, armed⟩ := clean.workers i
    refine ⟨noAssignment.mono ?_, armed, ?_, ?_⟩
    · intro assignment impossible
      exact impossible.elim
    · intro isSession
      exact absurd isSession otherSession
    · have held := noAssignment.infer
      unfold InferArms
      cases pc : (state.worker i).infer <;> rw [pc] at held <;> trivial
  · intro i
    exact (clean.oldHops i).mono
      (fun _ _ _ otherSession isSession => absurd isSession otherSession)
      (fun _ _ _ otherSession isSession => absurd isSession otherSession)
      (fun _ _ _ otherSession isSession => absurd isSession otherSession)
      (fun _ _ otherSession isSession => absurd isSession otherSession)
      (fun _ _ otherSession isSession => absurd isSession otherSession)
  · intro received isQueued msg isMsg isCall isHop dim session hop x decoded isSession
    exact absurd isSession
      (clean.queue received isQueued msg isMsg isCall isHop dim session hop x decoded)
  · refine TokenOk.outside ?_
    rw [atSetup]
    rfl

theorem CoverInvariant.receives {received : Received} (isSent : ∀ msg, received.1 = some msg →
        ⟨received.2, cluster.plan.self, msg⟩ ∈ state.wire) :
    CoverInvariant cluster ring tmpl (masterReceives cluster state received) := by
  refine ⟨invariant.fits, invariant.todo, invariant.hops,
    invariant.assigns, invariant.serves, invariant.tracked, ?_,
    invariant.token.move rfl fun accepted => .inr ⟨accepted, rfl⟩⟩
  intro each isQueued msg isMsg isCall isHop
  rcases List.mem_append.mp isQueued with isOld | isNew
  · exact invariant.queue each isOld msg isMsg isCall isHop
  · rw [List.mem_singleton.mp isNew] at isMsg ⊢
    exact invariant.hops _ (isSent msg isMsg) isCall isHop

theorem CoverInvariant.masterActs (planned : SessionOver cluster ring tmpl)
    (distinct : ring.Nodup) (nonzero : cluster.plan.session ≠ 0) {tick : Tick}
    (linked : linkedFinal cluster ring state.driver = true) :
    CoverInvariant cluster ring tmpl (masterActs cluster state tick) := by
  have sends :
      ∀ sent ∈ (driverRun cluster.plan cluster.gen state.driver tick).2,
        DriverSends cluster.plan cluster.gen state.driver sent :=
    driverRun_sent invariant.fits
  refine ⟨driverRun_callFits invariant.fits, ?_, ?_, ?_,
    invariant.serves, invariant.tracked, ?_, ?_⟩
  · intro op isTodo
    exact invariant.todo op (driverRun_todo invariant.fits op isTodo)
  · intro sent isSent isCall isHop
    rcases List.mem_append.mp isSent with isOld | isNew
    · exact invariant.hops sent isOld isCall isHop
    · exact (invariant.masterSends planned (sends sent isNew) isCall).1 isHop
  · intro sent isSent fromMaster isCall isAssign
    rcases List.mem_append.mp isSent with isOld | isNew
    · exact invariant.assigns sent isOld fromMaster isCall isAssign
    · exact (invariant.masterSends planned (sends sent isNew) isCall).2 isAssign
  · intro received isQueued
    exact invariant.queue received (driverRun_queue invariant.fits received isQueued)
  · refine (driverRun_tokenMove invariant.fits).tokenOk invariant.token ?_
    intro caller received rest staging atPump isQueue accepts
    have fromLast := linkedFinal_source linked atPump isQueue accepts
    obtain ⟨msg, hop, tail, isMsg, isCall, isHop, decoded, sameSeq, isTail, isSource⟩ := accepts
    have isQueued : received ∈ state.driver.queue := by
      rw [isQueue]
      exact List.mem_cons_self
    have isSession := (inferDecodeHop_some decoded).2 nonzero
    obtain ⟨k, comesFrom, traced⟩ :=
      invariant.queue received isQueued msg isMsg isCall isHop _ _ hop staging decoded isSession
    rw [comesFrom_unique distinct comesFrom fromLast] at traced
    exact ⟨hop.seq, traced⟩

variable [DecidableEq ι]

theorem CoverInvariant.workerActs (distinct : ring.Nodup) (nonzero : cluster.plan.session ≠ 0)
    (isSession : tmpl.sessionId = cluster.plan.session)
    (deliverable : Deliverable cluster state i event) (linked : event = .listen →
        linkedListen cluster ring i (state.worker i) = true) :
    CoverInvariant cluster ring tmpl (workerActs cluster state i event) := by
  have rightSession :
      ∀ assignment, AssignedTo ring tmpl i assignment →
        assignment.sessionId = cluster.plan.session :=
    fun _ assigned => assignedTo_session isSession assigned
  refine ⟨invariant.fits, invariant.todo, ?_, ?_, ?_, ?_, ?_, ?_⟩
  · refine workerActs_wire ?_ ?_
    · intro sent isOld isCall isHop
      exact (invariant.hops sent isOld isCall isHop).mono
    · intro outgoing sends isCall isHop
      rw [datagram_src]
      exact (invariant.sends sends isCall isHop).mono
  · intro sent isSent fromMaster isCall isAssign
    rcases List.mem_append.mp isSent with isOld | isNew
    · exact invariant.assigns sent isOld fromMaster isCall isAssign
    · exact absurd fromMaster (not_master_of_outgoing isNew)
  · refine (forall_update_iff state.worker
      (p := fun j => ServesOnly (AssignedTo ring tmpl j)
        cluster.plan.session)).2 ⟨?_, fun j _ => invariant.serves j⟩
    refine (invariant.serves i).workerStep rightSession nonzero ?_
    intro msg src isDeliver accepted
    rw [isDeliver] at deliverable
    obtain ⟨other, sameAddr, assigned⟩ :=
      invariant.assigns _ deliverable accepted.2.2.2 accepted.1 accepted.2.1
    rw [cluster.addr_injective sameAddr]
    exact assigned
  · refine (forall_update_iff state.worker (p := fun j worker =>
        HopsOk (coverChecks cluster ring tmpl _ j worker.session) worker)).2
      ⟨?_, fun j _ => (invariant.tracked j).coverMono _ (.inl rfl)⟩
    have known :=
      ((invariant.tracked i).coverMono _ (.inl rfl)).workerStep
        (invariant.rules distinct deliverable linked)
    have moved :=
      known.coverMono []
        ((invariant.serves i).session_step (cluster.workerSelf i)
          (cluster.kernel i) rightSession event)
    rwa [List.append_nil] at moved
  · intro received isQueued msg isMsg isCall isHop
    exact (invariant.queue received isQueued msg isMsg isCall isHop).mono
  · refine invariant.token.mono ?_
    intro x covered
    obtain ⟨seq, traced⟩ := covered
    exact ⟨seq, traced.mono⟩

theorem CoverInvariant.repoint (i : ι) (prev next : RpcAddr) :
    CoverInvariant cluster ring tmpl
      { state with
        worker := update state.worker i { state.worker i with prev := prev, next := next } } := by
  refine ⟨invariant.fits, invariant.todo, invariant.hops,
    invariant.assigns, ?_, ?_, invariant.queue, invariant.token⟩
  · refine (forall_update_iff state.worker
      (p := fun j => ServesOnly (AssignedTo ring tmpl j)
        cluster.plan.session)).2 ⟨?_, fun j _ => invariant.serves j⟩
    have serves := invariant.serves i
    exact ⟨⟨serves.holds.stored, serves.holds.listen,
      serves.holds.infer⟩, serves.armed, serves.resident, serves.arms⟩
  · refine (forall_update_iff state.worker (p := fun j worker =>
        HopsOk (coverChecks cluster ring tmpl _ j worker.session)
          worker)).2 ⟨?_, fun j _ => invariant.tracked j⟩
    have tracked := invariant.tracked i
    exact ⟨tracked.listen, tracked.mailbox, tracked.infer⟩

theorem CoverInvariant.step (planned : SessionOver cluster ring tmpl) (distinct : ring.Nodup)
    (nonzero : cluster.plan.session ≠ 0) (isSession : tmpl.sessionId = cluster.plan.session)
    (event : ClusterEvent ι) (linked : ringLinked cluster ring state event = true) :
    CoverInvariant cluster ring tmpl (clusterNext cluster state event) := by
  refine clusterNext_cases cluster event invariant ?_ ?_ ?_ ?_
  · intro received isSent
    exact invariant.receives isSent
  · intro tick isMaster
    rw [isMaster] at linked
    exact invariant.masterActs planned distinct nonzero linked
  · intro i workerEvent isWorker deliverable
    refine invariant.workerActs distinct nonzero isSession deliverable ?_
    intro isListen
    rw [isWorker, isListen] at linked
    exact linked
  · intro i prev next _
    exact invariant.repoint i prev next

end Invariant

variable [DecidableEq ι]

theorem startSession_slots {self : RpcAddr} {before driver : Driver} {tmpl : AssignLayers}
    {drawn : Option UInt32} {now : UInt32} {plan : SessionPlan}
    (started : startSession self before tmpl drawn now = some (plan, driver)) :
    0 < plan.slots.length := by
  obtain ⟨registry, isRegistry, nonempty, isPlan, _⟩ := startSession_some started
  rw [isPlan, isRegistry]
  dsimp only [sessionPlan, discoveryRingOrder]
  rw [discoveryRestitchRing_activeSlots]
  exact nonempty

/-- If the links that are used are those of the ring, then in every state
inside `master_run_token` an accepted activation is an embedding that each
worker of the ring has passed through `shard_forward` once, in ring order, and
the ranges of these passes are all layers in order. -/
theorem accepted_final_covers_layers (cluster : Cluster ι Row) (ring : List ι) (tmpl : AssignLayers)
    (start : ClusterState ι Row) (begun : SessionStart cluster ring tmpl start.driver)
    (distinct : ring.Nodup) (clean : CleanStart cluster start) (events : List (ClusterEvent ι))
    (linked : Along (clusterNext cluster)
        (fun state event => ringLinked cluster ring state event = true)
        start events)
    (frame : TokenFrame)
    (isFrame : frameOf (after (clusterNext cluster) start events).driver.pc = some frame)
    (accepted : (after (clusterNext cluster) start events).driver.haveFinal = true) :
    ∃ passes,
      (∀ pass ∈ passes, pass ∈ (after (clusterNext cluster) start events).passes) ∧
      passes.map Pass.worker = ring ∧
      (∃ token, Chained (cluster.gen.embed token) passes
          (after (clusterNext cluster) start events).driver.finalX) ∧
      (passes.map Pass.assignment).flatMap layersOf = List.range tmpl.nLayersTotal.toNat := by
  obtain ⟨before, drawn, now, started⟩ := begun.begun
  have isPlan := (startSession_plan started).1
  have nonzero : cluster.plan.session ≠ 0 := by
    rw [isPlan]
    exact freshSession_ne_zero drawn now
  have positive : 0 < ring.length := by
    rw [← begun.planned.size]
    exact startSession_slots started
  have invariant :
      CoverInvariant cluster ring
        { tmpl with sessionId := cluster.plan.session }
        (after (clusterNext cluster) start events) := by
    refine history_invariant (clusterNext cluster)
      (fun _ state =>
        CoverInvariant cluster ring { tmpl with sessionId := cluster.plan.session } state)
      (CoverInvariant.initially begun clean) ?_ linked
    intro initial event invariant guard
    exact invariant.step begun.planned distinct nonzero rfl event guard
  obtain ⟨seq, passes, traversal⟩ := invariant.token.final frame isFrame accepted
  refine ⟨passes, ?_, ?_, traversal.chained, ?_⟩
  · intro pass isPass
    exact (traversal.made pass isPass).1
  · rw [traversal.workers, List.take_length]
  · rw [traversal.layers]
    exact assignedLayers_tile _ positive

end Coverage

def threeWorkers : Cluster (Fin 3) Unit := ringCluster 3 (by decide)

theorem threeWorkers_start (prev next : Fin 3 → RpcAddr) :
    SessionStart threeWorkers (List.finRange 3)
      (ringTemplate (UInt32.ofNat 3)) (ringInit 3 prev next).driver where
  begun := ⟨ringDriver 3, some 1, 0, rfl⟩
  members := by
    change (ringPlan 3).slots.map
        (fun slot =>
          ((ringStart 3).discovery.registry slot).info.addr) =
      (List.finRange 3).map threeWorkers.addr
    decide +kernel

theorem threeWorkers_clean (prev next : Fin 3 → RpcAddr) :
    CleanStart threeWorkers (ringInit 3 prev next) where
  hops := by
    intro sent isSent
    cases isSent
  assigns := by
    intro sent isSent
    cases isSent
  queue := by
    intro received isQueued
    cases isQueued
  workers := by
    intro i
    refine ⟨⟨?_, trivial, trivial⟩, ?_, ?_⟩
    · intro isStored
      rcases isStored with isFull | isCopied
      · cases isFull
      · cases isCopied
    · change (0 : UInt32) ≠ (ringPlan 3).session
      decide +kernel
    · intro isReady
      cases isReady
  oldHops := by
    intro i
    refine ⟨trivial, ?_, trivial⟩
    intro isMail
    cases isMail

/-- No notification arrives, every assignment does, and every shard loads. -/
def unnotifiedSetup : List (ClusterEvent (Fin 3)) :=
  callLost 3 ++ callLost 3 ++ callLost 3 ++ masterRuns 3 1 ++
    assignAccepted 0 8 ++ assignAccepted 1 10 ++ assignAccepted 2 12 ++
    masterRuns 3 1 ++ shardLoaded 0 ++ shardLoaded 1 ++ shardLoaded 2 ++
    reportTaken 0 ++ reportTaken 1 ++ reportTaken 2 ++ masterRuns 3 3

/-- The workers know their neighbours from an earlier session. -/
def orderlyInit : ClusterState (Fin 3) Unit :=
  ringInit 3 (fun i => if i = 0 then ringMaster else ringAddr (i.val - 1))
    (fun i => if i = 2 then ringMaster else ringAddr (i.val + 1))

def coveredRun : List (ClusterEvent (Fin 3)) :=
  unnotifiedSetup ++ hopPassed 0 ringMaster 13 0 ++
    hopPassed 1 (ringAddr 0) 0 1 ++ hopPassed 2 (ringAddr 1) 0 2 ++
    finalTaken 2 3

/-- Worker 1 was not in the ring before, so its neighbours still know each
other as neighbours. -/
def staleInit : ClusterState (Fin 3) Unit :=
  ringInit 3 (fun i => if i = 2 then ringAddr 0 else ringMaster)
    (fun i => if i = 0 then ringAddr 2 else ringMaster)

def skippingRun : List (ClusterEvent (Fin 3)) :=
  unnotifiedSetup ++ hopPassed 0 ringMaster 13 0 ++ hopPassed 2 (ringAddr 0) 0 1 ++ finalTaken 2 2

def soleFrame : TokenFrame where
  pos := 0
  token := 1
  head := ringAddr 0
  x := [0]
  attempt := 0

theorem accepted_final_covers_layers_coveredRun :
    frameOf
        (after (clusterNext threeWorkers) orderlyInit coveredRun).driver.pc = some soleFrame ∧
      (after (clusterNext threeWorkers) orderlyInit coveredRun).driver.haveFinal = true ∧
      ∃ passes,
        (∀ pass ∈ passes, pass ∈ (after (clusterNext threeWorkers) orderlyInit coveredRun).passes) ∧
        passes.map Pass.worker = List.finRange 3 ∧
        (∃ token, Chained (threeWorkers.gen.embed token) passes
            (after (clusterNext threeWorkers) orderlyInit coveredRun).driver.finalX) ∧
        (passes.map Pass.assignment).flatMap layersOf =
          List.range (ringTemplate (UInt32.ofNat 3)).nLayersTotal.toNat :=
  ⟨by decide +kernel, by decide +kernel,
    accepted_final_covers_layers threeWorkers (List.finRange 3)
      (ringTemplate (UInt32.ofNat 3)) orderlyInit
      (threeWorkers_start _ _) (by decide) (threeWorkers_clean _ _)
      coveredRun (by decide +kernel) soleFrame (by decide +kernel)
      (by decide +kernel)⟩

/-- The notifications are lost and the old neighbours carry the token past
worker 1, whose layer the accepted activation has not seen. -/
theorem skippingRun_skips_worker :
    SessionStart threeWorkers (List.finRange 3)
        (ringTemplate (UInt32.ofNat 3)) staleInit.driver ∧
      CleanStart threeWorkers staleInit ∧
      frameOf (after (clusterNext threeWorkers) staleInit skippingRun).driver.pc = some soleFrame ∧
      (after (clusterNext threeWorkers) staleInit skippingRun).driver.haveFinal = true ∧
      ∀ pass ∈ (after (clusterNext threeWorkers) staleInit skippingRun).passes,
        pass.worker ≠ 1 := by
  refine ⟨threeWorkers_start _ _, threeWorkers_clean _ _, ?_, ?_, ?_⟩
  · decide +kernel
  · decide +kernel
  · decide +kernel

end LlmRuntime.DistInf
