import LlmRuntime.DistInf.SessionIsolation

/-!
# Anti-replay on a worker

A hop is accepted only if its sequence number exceeds `g_last_seq`, which every
assignment resets.  An assignment may be delivered again, so the counter alone
does not keep the hops of a session in increasing order.
-/

namespace LlmRuntime.DistInf

open Execution

universe u

variable {Row : Type u}

/-- The hops of one session are committed with strictly increasing sequence
numbers, hence no pair of session and number twice. -/
def CommitsIncrease (commits : List InferHop) : Prop :=
  commits.Pairwise fun earlier later =>
    earlier.sessionId = later.sessionId → earlier.seq < later.seq

/-- The assignment the inference thread has taken and not yet made live. -/
def InferPc.loading : InferPc → Option AssignLayers
  | .clearAssignment assignment => some assignment
  | .clearReady assignment => some assignment
  | .release assignment => some assignment
  | .load assignment => some assignment
  | .setSession assignment => some assignment
  | .setReady assignment => some assignment
  | _ => none

def hasNoCommits (worker : Worker Row) (session : UInt32) : Bool :=
  worker.commits.all fun hop => hop.sessionId != session

/-- An assignment is stored before any hop of its session, or of the session
being loaded, was committed; and a hop is committed while its session is the
live one. -/
def keepsCounter (worker : Worker Row) : WorkerEvent → Bool
  | .listen =>
    match worker.listen with
    | .assignStore _ _ assignment =>
      hasNoCommits worker assignment.sessionId &&
        worker.infer.loading.all fun taken =>
          hasNoCommits worker taken.sessionId
    | .hopCommit hop _ => worker.haveHop || hop.sessionId == worker.session
    | _ => true
  | _ => true

def NoCommits (worker : Worker Row) (session : UInt32) : Prop :=
  ∀ hop ∈ worker.commits, hop.sessionId ≠ session

/-- The counter still covers every hop committed for the session. -/
def Covered (worker : Worker Row) (session : UInt32) : Prop :=
  ∀ hop ∈ worker.commits, hop.sessionId = session → hop.seq ≤ worker.lastSeq

variable {worker next : Worker Row} {session : UInt32}

theorem NoCommits.covered (noCommits : NoCommits worker session) : Covered worker session := by
  intro hop member same
  exact absurd same (noCommits hop member)

/-- While the hook handles an assignment, neither it nor what is being loaded
has hops. -/
def HookQuiet (worker : Worker Row) : Prop :=
  NoCommits worker worker.assignment.sessionId ∧
    ∀ taken, worker.infer.loading = some taken → NoCommits worker taken.sessionId

/-- What holds where the listen thread stands. -/
def ListenCovered (worker : Worker Row) : Prop :=
  match worker.listen with
  | .assignClearReady _ _ _ => HookQuiet worker
  | .assignResetSeq _ _ _ =>
    HookQuiet worker ∧ (worker.ready = true → NoCommits worker worker.session)
  | .assignRaise _ _ _ => NoCommits worker worker.assignment.sessionId
  | .hopTestSource _ _ _ => Covered worker worker.session
  | .hopTestSeq _ _ => Covered worker worker.session
  | .hopCommit hop _ => Covered worker worker.session ∧ worker.lastSeq < hop.seq
  | _ => True

/-- Every session that can go live, or is live, is covered by the counter. -/
structure CounterKept (worker : Worker Row) : Prop where
  increasing : CommitsIncrease worker.commits
  pending : worker.haveAssignment = true → Covered worker worker.assignment.sessionId
  copying : worker.infer = .copyAssignment → worker.haveAssignment = true
  loading : ∀ taken, worker.infer.loading = some taken → Covered worker taken.sessionId
  goingLive :
    ∀ assignment, worker.infer = .setReady assignment → worker.session = assignment.sessionId
  live : worker.ready = true → Covered worker worker.session
  listening : ListenCovered worker

/-- What a step of the inference thread can do to the fields the invariant is
about. -/
structure InferFrame (worker next : Worker Row) : Prop where
  commits : next.commits = worker.commits
  lastSeq : next.lastSeq = worker.lastSeq
  assignment : next.assignment = worker.assignment
  listen : next.listen = worker.listen
  flag : next.haveAssignment = true → worker.haveAssignment = true
  loading :
    ∀ taken, next.infer.loading = some taken →
      worker.infer.loading = some taken ∨
        (worker.infer = .copyAssignment ∧ taken = worker.assignment)
  copying : next.infer = .copyAssignment → next.haveAssignment = true
  goingLive :
    ∀ assignment, next.infer = .setReady assignment →
      next.session = assignment.sessionId
  live :
    (next.session = worker.session ∧ (next.ready = true → worker.ready = true)) ∨
      ∃ taken, worker.infer.loading = some taken ∧
        next.session = taken.sessionId

theorem InferFrame.covered (frame : InferFrame worker next) (covered : Covered worker session) :
    Covered next session := by
  unfold Covered
  rw [frame.commits, frame.lastSeq]
  exact covered

theorem InferFrame.noCommits (frame : InferFrame worker next)
    (noCommits : NoCommits worker session) :
    NoCommits next session := by
  unfold NoCommits
  rw [frame.commits]
  exact noCommits

theorem InferFrame.hookQuiet (frame : InferFrame worker next)
    (quiet : HookQuiet worker) : HookQuiet next := by
  refine ⟨?_, ?_⟩
  · rw [frame.assignment]
    exact frame.noCommits quiet.1
  · intro taken isLoading
    rcases frame.loading taken isLoading with wasLoading | ⟨_, copied⟩
    · exact frame.noCommits (quiet.2 taken wasLoading)
    · rw [copied]
      exact frame.noCommits quiet.1

section Kept

variable (kept : CounterKept worker)

include kept

theorem InferFrame.session_covered (frame : InferFrame worker next)
    (served : next.session = worker.session → Covered worker worker.session) :
    Covered next next.session := by
  rcases frame.live with ⟨same, _⟩ | ⟨taken, isLoading, goesLive⟩
  · rw [same]
    exact frame.covered (served same)
  · rw [goesLive]
    exact frame.covered (kept.loading taken isLoading)

theorem InferFrame.listenCovered (frame : InferFrame worker next) : ListenCovered next := by
  have listening := kept.listening
  unfold ListenCovered at listening ⊢
  rw [frame.listen]
  cases pc : worker.listen with
  | assignClearReady src xid assignment =>
    rw [pc] at listening
    exact frame.hookQuiet listening
  | assignResetSeq src xid assignment =>
    rw [pc] at listening
    refine ⟨frame.hookQuiet listening.1, ?_⟩
    intro ready
    rcases frame.live with ⟨same, wasReady⟩ | ⟨taken, isLoading, goesLive⟩
    · rw [same]
      exact frame.noCommits (listening.2 (wasReady ready))
    · rw [goesLive]
      exact frame.noCommits (listening.1.2 taken isLoading)
  | assignRaise src xid assignment =>
    rw [pc] at listening
    dsimp only at listening ⊢
    rw [frame.assignment]
    exact frame.noCommits listening
  | hopTestSource | hopTestSeq =>
    rw [pc] at listening
    exact frame.session_covered kept (fun _ => listening)
  | hopCommit hop staging =>
    rw [pc] at listening
    dsimp only at listening ⊢
    rw [frame.lastSeq]
    exact ⟨frame.session_covered kept (fun _ => listening.1), listening.2⟩
  | _ => trivial

theorem InferFrame.counterKept (frame : InferFrame worker next) : CounterKept next := by
  refine ⟨?_, ?_, frame.copying, ?_, frame.goingLive, ?_, frame.listenCovered kept⟩
  · rw [frame.commits]
    exact kept.increasing
  · intro flag
    rw [frame.assignment]
    exact frame.covered (kept.pending (frame.flag flag))
  · intro taken isLoading
    rcases frame.loading taken isLoading with wasLoading | ⟨atCopy, copied⟩
    · exact frame.covered (kept.loading taken wasLoading)
    · rw [copied]
      exact frame.covered (kept.pending (kept.copying atCopy))
  · intro ready
    rcases frame.live with ⟨same, wasReady⟩ | ⟨taken, isLoading, goesLive⟩
    · rw [same]
      exact frame.covered (kept.live (wasReady ready))
    · rw [goesLive]
      exact frame.covered (kept.loading taken isLoading)

end Kept

/-- A step that only moves the inference thread on, to a place where nothing is
being loaded. -/
theorem InferFrame.of_moved (commits : next.commits = worker.commits)
    (lastSeq : next.lastSeq = worker.lastSeq) (assignment : next.assignment = worker.assignment)
    (listen : next.listen = worker.listen) (flag : next.haveAssignment = worker.haveAssignment)
    (session : next.session = worker.session) (ready : next.ready = worker.ready)
    (notLoading : next.infer.loading = none)
    (copying : next.infer = .copyAssignment → worker.haveAssignment = true) :
    InferFrame worker next := by
  refine ⟨commits, lastSeq, assignment, listen, ?_, ?_, ?_, ?_, ?_⟩
  · rw [flag]
    exact id
  · intro taken isLoading
    rw [notLoading] at isLoading
    cases isLoading
  · rw [flag]
    exact copying
  · intro goingLive atReady
    rw [atReady] at notLoading
    cases notLoading
  · exact Or.inl ⟨session, by rw [ready]; exact id⟩

theorem InferFrame.of_loading (commits : next.commits = worker.commits)
    (lastSeq : next.lastSeq = worker.lastSeq) (assignment : next.assignment = worker.assignment)
    (listen : next.listen = worker.listen)
    (flag : next.haveAssignment = true → worker.haveAssignment = true)
    (session : next.session = worker.session) (ready : next.ready = true → worker.ready = true)
    (loading : next.infer.loading = worker.infer.loading)
    (notCopying : next.infer ≠ .copyAssignment)
    (notGoingLive : ∀ taken, next.infer ≠ .setReady taken) :
    InferFrame worker next := by
  refine ⟨commits, lastSeq, assignment, listen, flag, ?_, ?_, ?_, Or.inl ⟨session, ready⟩⟩
  · intro taken isLoading
    rw [loading] at isLoading
    exact Or.inl isLoading
  · intro atCopy
    exact absurd atCopy notCopying
  · intro taken atReady
    exact absurd atReady (notGoingLive taken)

theorem inferStep_frame (self : WorkerSelf) (kernel : Kernel Row)
    (fetch : Fetch) (fwdUs : UInt32) (kept : CounterKept worker) :
    InferFrame worker (inferStep self kernel worker fetch fwdUs).1 := by
  unfold inferStep
  cases pc : worker.infer with
  | top =>
    by_cases flag : worker.haveAssignment = true
    · rw [if_pos flag]
      exact .of_moved rfl rfl rfl rfl rfl rfl rfl rfl (fun _ => flag)
    · rw [if_neg flag]
      exact .of_moved rfl rfl rfl rfl rfl rfl rfl rfl nofun
  | copyAssignment =>
    refine ⟨rfl, rfl, rfl, rfl, id, ?_, nofun, nofun, Or.inl ⟨rfl, id⟩⟩
    intro taken isLoading
    exact Or.inr ⟨pc, (Option.some.inj isLoading).symm⟩
  | clearAssignment assignment =>
    exact .of_loading rfl rfl rfl rfl nofun rfl id (by rw [pc]; rfl) nofun nofun
  | clearReady assignment =>
    exact .of_loading rfl rfl rfl rfl id rfl nofun (by rw [pc]; rfl) nofun nofun
  | release assignment => exact .of_loading rfl rfl rfl rfl id rfl id (by rw [pc]; rfl) nofun nofun
  | load assignment =>
    dsimp only
    split_ifs with succeeded
    · exact .of_loading rfl rfl rfl rfl id rfl id (by rw [pc]; rfl) nofun nofun
    · exact .of_moved rfl rfl rfl rfl rfl rfl rfl rfl nofun
  | setSession assignment =>
    have isLoading : worker.infer.loading = some assignment := by
      rw [pc]
      rfl
    refine ⟨rfl, rfl, rfl, rfl, id, ?_, nofun, ?_, Or.inr ⟨assignment, isLoading, rfl⟩⟩
    · intro taken stillLoading
      rw [isLoading]
      exact Or.inl stillLoading
    · intro taken same
      cases same
      rfl
  | setReady assignment =>
    have isLoading : worker.infer.loading = some assignment := by
      rw [pc]
      rfl
    exact ⟨rfl, rfl, rfl, rfl, id, nofun, nofun, nofun,
      Or.inr ⟨assignment, isLoading, kept.goingLive assignment pc⟩⟩
  | report | send => exact .of_moved rfl rfl rfl rfl rfl rfl rfl rfl nofun
  | testHop | testReady =>
    dsimp only
    split_ifs <;> exact .of_moved rfl rfl rfl rfl rfl rfl rfl rfl nofun
  | drain =>
    dsimp only [drainHop]
    split_ifs <;> exact .of_moved rfl rfl rfl rfl rfl rfl rfl rfl nofun
  | forward hop compute =>
    dsimp only [forwardHop]
    split <;> exact .of_moved rfl rfl rfl rfl rfl rfl rfl rfl nofun

/-! ## Steps of the listen thread -/

/-- A step that moves the listen thread and nothing else the invariant is
about. -/
theorem CounterKept.of_moved (kept : CounterKept worker) (commits : next.commits = worker.commits)
    (lastSeq : next.lastSeq = worker.lastSeq) (assignment : next.assignment = worker.assignment)
    (flag : next.haveAssignment = worker.haveAssignment) (infer : next.infer = worker.infer)
    (session : next.session = worker.session) (ready : next.ready = true → worker.ready = true)
    (listening : ListenCovered next) :
    CounterKept next := by
  have covered : ∀ served, Covered worker served → Covered next served := by
    intro served before
    unfold Covered
    rw [commits, lastSeq]
    exact before
  refine ⟨?_, ?_, ?_, ?_, ?_, ?_, listening⟩
  · rw [commits]
    exact kept.increasing
  · rw [flag, assignment]
    exact fun raised => covered _ (kept.pending raised)
  · rw [infer, flag]
    exact kept.copying
  · rw [infer]
    exact fun taken isLoading => covered _ (kept.loading taken isLoading)
  · rw [infer, session]
    exact kept.goingLive
  · rw [session]
    exact fun isReady => covered _ (kept.live (ready isReady))

theorem hasNoCommits_iff (worker : Worker Row) (session : UInt32) :
    hasNoCommits worker session = true ↔ NoCommits worker session := by
  simp [hasNoCommits, NoCommits]

/-- Storing an assignment whose session, like the one being loaded, has no
hops. -/
theorem counterKept_assignStore (kept : CounterKept worker) (src : RpcAddr) (xid : UInt32)
    (assignment : AssignLayers) (noCommits : NoCommits worker assignment.sessionId)
    (loadingNoCommits : ∀ taken, worker.infer.loading = some taken →
        NoCommits worker taken.sessionId) :
    CounterKept
      { worker with
        assignment := assignment
        listen := .assignClearReady src xid assignment } :=
  ⟨kept.increasing, fun _ => noCommits.covered, kept.copying,
    kept.loading, kept.goingLive, kept.live, noCommits, loadingNoCommits⟩

theorem counterKept_assignResetSeq (kept : CounterKept worker) (src : RpcAddr)
    (xid : UInt32) (assignment : AssignLayers) (quiet : HookQuiet worker)
    (liveQuiet : worker.ready = true → NoCommits worker worker.session) :
    CounterKept
      { worker with
        lastSeq := 0
        listen := .assignRaise src xid assignment } := by
  have covered :
      ∀ {session}, NoCommits worker session →
        Covered
          { worker with
            lastSeq := 0
            listen := .assignRaise src xid assignment } session := by
    intro session noCommits hop member same
    exact absurd same (noCommits hop member)
  exact ⟨kept.increasing, fun _ => covered quiet.1, kept.copying,
    fun taken isLoading => covered (quiet.2 taken isLoading),
    kept.goingLive, fun ready => covered (liveQuiet ready), quiet.1⟩

/-- A hop above the counter, of the live session, extends the log in order and
leaves every session covered that was. -/
theorem counterKept_commitHop (kept : CounterKept worker) {hop : InferHop} {staging : Activation}
    (covered : Covered worker worker.session) (above : worker.lastSeq < hop.seq)
    (isLive : worker.haveHop = false → hop.sessionId = worker.session) :
    CounterKept (commitHop worker hop staging) := by
  unfold commitHop
  split_ifs with busy
  · exact kept.of_moved rfl rfl rfl rfl rfl rfl id trivial
  · have sameSession := isLive (by simpa using busy)
    have increasing : CommitsIncrease (worker.commits ++ [hop]) := by
      refine List.pairwise_append.mpr ⟨kept.increasing, List.pairwise_singleton _ hop, ?_⟩
      intro earlier member later isHop
      rw [List.mem_singleton.mp isHop]
      intro same
      have bounded := covered earlier member (same.trans sameSession)
      exact UInt32.lt_of_le_of_lt bounded above
    have extend :
        ∀ {session}, Covered worker session →
          ∀ committed ∈ worker.commits ++ [hop],
            committed.sessionId = session → committed.seq ≤ hop.seq := by
      intro session before committed member same
      rcases List.mem_append.mp member with old | new
      · exact UInt32.le_of_lt (UInt32.lt_of_le_of_lt (before committed old same) above)
      · rw [List.mem_singleton.mp new]
        exact UInt32.le_refl _
    exact ⟨increasing, fun raised => extend (kept.pending raised), kept.copying,
      fun taken isLoading => extend (kept.loading taken isLoading),
      kept.goingLive, fun ready => extend (kept.live ready), trivial⟩

theorem counterKept_listenStep (self : WorkerSelf) (kept : CounterKept worker)
    (guard : keepsCounter worker .listen = true) :
    CounterKept (listenStep self worker).1 := by
  have listening := kept.listening
  unfold ListenCovered at listening
  unfold listenStep
  unfold keepsCounter at guard
  cases pc : worker.listen with
  | idle => exact kept
  | assignStore src xid assignment =>
    simp only [pc, Bool.and_eq_true, hasNoCommits_iff, Option.all_eq_true] at guard
    exact counterKept_assignStore kept src xid assignment guard.1 guard.2
  | assignClearReady src xid assignment =>
    rw [pc] at listening
    exact kept.of_moved rfl rfl rfl rfl rfl rfl nofun ⟨listening, nofun⟩
  | assignResetSeq src xid assignment =>
    rw [pc] at listening
    exact counterKept_assignResetSeq kept src xid assignment listening.1 listening.2
  | assignRaise src xid assignment =>
    rw [pc] at listening
    have noCommits : NoCommits worker worker.assignment.sessionId := listening
    exact ⟨kept.increasing, fun _ => noCommits.covered,
      fun atCopy => rfl, kept.loading, kept.goingLive, kept.live,
      trivial⟩
  | hopReadReady src payload =>
    refine kept.of_moved rfl rfl rfl rfl rfl rfl id ?_
    dsimp only [ListenCovered]
    split_ifs <;> trivial
  | hopReadDim src payload => exact kept.of_moved rfl rfl rfl rfl rfl rfl id trivial
  | hopDecode src payload dim =>
    refine kept.of_moved rfl rfl rfl rfl rfl rfl id ?_
    dsimp only [ListenCovered]
    cases inferDecodeHop payload dim worker.session with
    | none => trivial
    | some decoded => trivial
  | hopTestReady src hop staging =>
    refine kept.of_moved rfl rfl rfl rfl rfl rfl id ?_
    dsimp only [ListenCovered]
    split_ifs with ready
    · exact kept.live ready
    · trivial
  | hopTestSource src hop staging =>
    rw [pc] at listening
    refine kept.of_moved rfl rfl rfl rfl rfl rfl id ?_
    dsimp only [ListenCovered]
    split_ifs
    · exact listening
    · trivial
  | hopTestSeq hop staging =>
    rw [pc] at listening
    refine kept.of_moved rfl rfl rfl rfl rfl rfl id ?_
    dsimp only [ListenCovered]
    split_ifs with replayed
    · trivial
    · exact ⟨listening, UInt32.not_le.mp replayed⟩
  | hopCommit hop staging =>
    rw [pc] at listening
    refine counterKept_commitHop kept listening.1 listening.2 ?_
    intro isEmpty
    simpa [pc, isEmpty] using guard

theorem counterKept_deliverStep (self : WorkerSelf) (kept : CounterKept worker)
    (msg : RpcMsg) (src : RpcAddr) :
    CounterKept (deliverStep self worker msg src).1 := by
  unfold deliverStep
  split_ifs with received
  · have idle : ListenCovered worker := by
      rw [ListenCovered, received.1]
      trivial
    unfold receive
    split_ifs
    · exact kept
    · exact kept.of_moved rfl rfl rfl rfl rfl rfl id idle
    · exact kept
    · exact kept
    · exact kept
    · exact kept.of_moved rfl rfl rfl rfl rfl rfl id trivial
    · exact kept.of_moved rfl rfl rfl rfl rfl rfl id trivial
    · exact kept
  · exact kept

theorem counterKept_workerNext (self : WorkerSelf) (kernel : Kernel Row) {event : WorkerEvent}
    (kept : CounterKept worker) (guard : keepsCounter worker event = true) :
    CounterKept (workerNext self kernel worker event) := by
  cases event with
  | deliver msg src => exact counterKept_deliverStep self kept msg src
  | listen => exact counterKept_listenStep self kept guard
  | infer fetch fwdUs => exact (inferStep_frame self kernel fetch fwdUs kept).counterKept kept

/-- In every run that keeps the condition, a worker commits the hops of each
session in strictly increasing order of their sequence numbers, and so no pair
of session and sequence number twice. -/
theorem commits_increase (self : WorkerSelf) (kernel : Kernel Row)
    (prev next : RpcAddr) (events : List WorkerEvent) (guarded : Along (workerNext self kernel)
        (fun worker event => keepsCounter worker event = true)
        (Worker.init prev next) events) :
    CommitsIncrease (after (workerNext self kernel) (Worker.init prev next) events).commits := by
  have kept : CounterKept (after (workerNext self kernel) (Worker.init prev next) events) := by
    refine history_invariant (workerNext self kernel)
      (fun _ worker => CounterKept worker) ?_ ?_ guarded
    · exact ⟨List.Pairwise.nil, nofun, nofun, nofun, nofun, nofun, trivial⟩
    · intro initial event kept guard
      exact counterKept_workerNext self kernel kept guard
  exact kept.increasing

/-- Two hops of one session are committed in order, and a second session
starts its own count. -/
def orderedRun : List WorkerEvent :=
  assignEvents 1 ++ inferEvents 9 ++ hopEvents 1 1 ++ inferEvents 6 ++
    hopEvents 1 2 ++ inferEvents 6 ++ assignEvents 2 ++ inferEvents 9 ++
    hopEvents 2 1

theorem commits_increase_orderedRun :
    (after (workerNext exampleSelf echoKernel)
        (Worker.init exampleSelf.master exampleSelf.master)
        orderedRun).commits =
        [exampleHop 1 1, exampleHop 1 2, exampleHop 2 1] ∧
      CommitsIncrease
        (after (workerNext exampleSelf echoKernel)
          (Worker.init exampleSelf.master exampleSelf.master)
          orderedRun).commits :=
  ⟨by decide +kernel, commits_increase exampleSelf echoKernel exampleSelf.master
      exampleSelf.master orderedRun (by decide +kernel)⟩

/-- The assignment and the hop of session 1 are both delivered twice. -/
def replayedRun : List WorkerEvent :=
  assignEvents 1 ++ inferEvents 9 ++ hopEvents 1 1 ++ inferEvents 6 ++
    assignEvents 1 ++ inferEvents 9 ++ hopEvents 1 1

/-- The duplicate of the assignment resets the counter, and the duplicate of
the hop is committed again. -/
theorem replayedRun_commits_twice :
    (after (workerNext exampleSelf echoKernel)
        (Worker.init exampleSelf.master exampleSelf.master)
        replayedRun).commits = [exampleHop 1 1, exampleHop 1 1] ∧
      ¬ CommitsIncrease
        (after (workerNext exampleSelf echoKernel)
          (Worker.init exampleSelf.master exampleSelf.master)
          replayedRun).commits := by
  have committed :
      (after (workerNext exampleSelf echoKernel)
        (Worker.init exampleSelf.master exampleSelf.master)
        replayedRun).commits = [exampleHop 1 1, exampleHop 1 1] := by
    decide +kernel
  refine ⟨committed, ?_⟩
  rw [committed, CommitsIncrease]
  decide

end LlmRuntime.DistInf
