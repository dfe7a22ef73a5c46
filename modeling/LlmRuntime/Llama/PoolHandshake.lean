import LlmRuntime.Llama.ThreadPool

/-!
# No dispatched item is lost

While the dispatcher waits for a thread whose `work_done` is still 0, the item
must be on its way.  This holds in every run in which no item is handed to a
thread that is between its two last writes.
-/

namespace LlmRuntime.Llama

open Function Execution

/-- Between reading `work_ready[t] = 1` and writing `work_done[t] = 1`. -/
def PoolPc.isBusy : PoolPc → Bool
  | .spin => false
  | .clearReady => false
  | _ => true

def DispatchPc.waitingFor : DispatchPc → Option Nat
  | .wait _ t => some t
  | _ => none

/-- The item the dispatcher waits for is raised, or taken and in work. -/
def ItemPending (state : Pool) : Prop :=
  ∀ t, state.dispatcher.waitingFor = some t → state.done t = false →
      state.ready t = true ∨ ((state.worker t).isBusy = true ∧ state.taken t = state.issued t)

/-- A thread is handed an item only once it has lowered the `work_ready` of
the item before. -/
def handsToSettled (state : Pool) : PoolEvent → Bool
  | .dispatcher =>
    match state.dispatcher with
    | .raiseReady _ t => state.worker t != .clearReady
    | _ => true
  | _ => true

/-- An item of the current call has been handed to thread `t` and its
completion not yet been seen. -/
def DispatchPc.isOpen : DispatchPc → Nat → Bool
  | .idle, _ => false
  | .fill _ u _, t => decide (t < u)
  | .clearDone _ u, t => decide (t < u)
  | .raiseReady _ u, t => decide (t < u)
  | .wait call u, t => decide (u ≤ t) && decide (t < call.active)

/-- The two flags of a thread as its program counter and the dispatcher's
leave them. -/
def ThreadOk (pc : PoolPc) (ready done isOpen : Bool) (taken issued : Nat) : Prop :=
  match pc with
  | .spin => ready = (isOpen && !done)
  | .clearReady => ready = true ∧ (isOpen = true → done = true)
  | _ => ready = true ∧ isOpen = true ∧ done = false ∧ taken = issued

/-- The thread the dispatcher is serving exists in this call, and its
`work_done` is lowered before `work_ready` is raised. -/
def DispatchOk (dispatcher : DispatchPc) (done : Nat → Bool) : Prop :=
  match dispatcher with
  | .idle => True
  | .fill call t _ => call.Covers ∧ t < call.active
  | .clearDone call t => call.Covers ∧ t < call.active
  | .raiseReady call t => call.Covers ∧ t < call.active ∧ done t = false
  | .wait call t => call.Covers ∧ t < call.active

structure PoolOk (state : Pool) : Prop where
  threads :
    ∀ t, ThreadOk (state.worker t) (state.ready t) (state.done t)
      (state.dispatcher.isOpen t) (state.taken t) (state.issued t)
  dispatch : DispatchOk state.dispatcher state.done

variable {state : Pool} {pc : PoolPc} {ready done : Bool} {taken issued : Nat}

theorem ThreadOk.of_isBusy {isOpen : Bool} (busy : pc.isBusy = true) :
    ThreadOk pc ready done isOpen taken issued ↔
      ready = true ∧ isOpen = true ∧ done = false ∧ taken = issued := by
  cases pc <;> simp_all [PoolPc.isBusy, ThreadOk]

theorem ThreadOk.closed_done (ok : ThreadOk pc ready done false taken issued) (value : Bool) :
    ThreadOk pc ready value false taken issued := by
  cases pc <;> simp_all [ThreadOk]

theorem ThreadOk.hand (ok : ThreadOk pc ready false false taken issued)
    (settled : pc ≠ .clearReady) :
    ThreadOk pc true false true taken (issued + 1) := by
  cases pc <;> simp_all [ThreadOk]

theorem ThreadOk.close {isOpen : Bool} (ok : ThreadOk pc ready true isOpen taken issued) :
    ThreadOk pc ready true false taken issued := by
  cases pc <;> simp_all [ThreadOk]

theorem ItemPending.of_ok (ok : PoolOk state) : ItemPending state := by
  intro t waiting notDone
  have dispatch := ok.dispatch
  have thread := ok.threads t
  cases position : state.dispatcher with
  | wait call u =>
    rw [position] at waiting dispatch thread
    injection waiting with same
    subst same
    have isOpen : DispatchPc.isOpen (.wait call u) u = true := by
      simp [DispatchPc.isOpen, dispatch.2]
    rw [isOpen, notDone] at thread
    cases here : state.worker u with
    | spin =>
      rw [here] at thread
      exact Or.inl thread
    | clearReady =>
      rw [here] at thread
      exact Or.inl thread.1
    | _ =>
      rw [here] at thread
      exact Or.inr ⟨rfl, thread.2.2.2⟩
  | _ =>
    rw [position] at waiting
    cases waiting

theorem enter_of_covers {call : Dispatch} (covers : call.Covers) (t : Nat) :
    enter call t =
      if t < call.active then .fill call t (call.writes t)
      else waitFrom call 0 := by
  rw [enter]
  by_cases within : t < call.active
  · have below := covers t within
    rw [if_pos within, if_pos within, if_neg (by omega)]
  · rw [if_neg within, if_neg within]

theorem enter_isOpen {call : Dispatch} (covers : call.Covers) {t : Nat}
    (upTo : t ≤ call.active) (u : Nat) :
    (enter call t).isOpen u = decide (u < t) := by
  rw [enter_of_covers covers]
  by_cases within : t < call.active
  · rw [if_pos within]
    rfl
  · have last : t = call.active := by omega
    subst last
    rw [if_neg within, waitFrom]
    split_ifs with some
    · simp [DispatchPc.isOpen]
    · simp only [DispatchPc.isOpen]
      symm
      apply decide_eq_false
      omega

theorem enter_dispatchOk {call : Dispatch} (covers : call.Covers) (t : Nat) (done : Nat → Bool) :
    DispatchOk (enter call t) done := by
  rw [enter_of_covers covers]
  by_cases within : t < call.active
  · rw [if_pos within]
    exact ⟨covers, within⟩
  · rw [if_neg within, waitFrom]
    split_ifs with some
    · exact ⟨covers, some⟩
    · trivial

theorem PoolOk.begin (ok : PoolOk state) {call : Option Dispatch}
    (covers : ∀ given, call = some given → given.Covers) :
    PoolOk (state.begin call) := by
  unfold Pool.begin
  split
  · rename_i call idle
    have covered : call.Covers := covers call rfl
    constructor
    · intro t
      have thread := ok.threads t
      rw [idle] at thread
      have closed : (enter call 0).isOpen t = false := by
        rw [enter_isOpen covered (Nat.zero_le _)]
        rfl
      dsimp only
      rw [closed]
      exact thread
    · exact enter_dispatchOk covered 0 state.done
  · exact ok

theorem PoolOk.clearDone (ok : PoolOk state) {call : Dispatch} {t : Nat}
    (position : state.dispatcher = .clearDone call t) :
    PoolOk state.dispatcherStep := by
  have dispatch := ok.dispatch
  rw [position] at dispatch
  simp only [Pool.dispatcherStep, position]
  constructor
  · intro u
    have thread := ok.threads u
    rw [position] at thread
    by_cases same : u = t
    · subst same
      have closed : DispatchPc.isOpen (.clearDone call u) u = false := by simp [DispatchPc.isOpen]
      rw [closed] at thread
      dsimp only
      rw [update_self]
      have closedNext : DispatchPc.isOpen (.raiseReady call u) u = false := by
        simp [DispatchPc.isOpen]
      rw [closedNext]
      exact thread.closed_done false
    · dsimp only
      rw [update_of_ne same]
      exact thread
  · exact ⟨dispatch.1, dispatch.2, update_self _ _ _⟩

theorem PoolOk.raiseReady (ok : PoolOk state) {call : Dispatch} {t : Nat}
    (position : state.dispatcher = .raiseReady call t) (settled : state.worker t ≠ .clearReady) :
    PoolOk state.dispatcherStep := by
  have dispatch := ok.dispatch
  rw [position] at dispatch
  obtain ⟨covers, within, lowered⟩ := dispatch
  simp only [Pool.dispatcherStep, position]
  constructor
  · intro u
    have thread := ok.threads u
    rw [position] at thread
    dsimp only
    rw [enter_isOpen covers within]
    by_cases same : u = t
    · subst same
      have closed : DispatchPc.isOpen (.raiseReady call u) u = false := by simp [DispatchPc.isOpen]
      rw [closed, lowered] at thread
      rw [update_self, update_self, lowered]
      have opened : decide (u < u + 1) = true := by simp
      rw [opened]
      exact thread.hand settled
    · rw [update_of_ne same, update_of_ne same]
      have unchanged :
          decide (u < t + 1) = DispatchPc.isOpen (.raiseReady call t) u := by
        simp only [DispatchPc.isOpen, decide_eq_decide]
        omega
      rw [unchanged]
      exact thread
  · exact enter_dispatchOk covers (t + 1) state.done

theorem waitFrom_isOpen (call : Dispatch) (t u : Nat) :
    (waitFrom call t).isOpen u = (decide (t ≤ u) && decide (u < call.active)) := by
  rw [waitFrom]
  split_ifs with within
  · rfl
  · simp only [DispatchPc.isOpen]
    symm
    rw [Bool.and_eq_false_iff, decide_eq_false_iff_not, decide_eq_false_iff_not]
    omega

theorem PoolOk.wait (ok : PoolOk state) {call : Dispatch} {t : Nat}
    (position : state.dispatcher = .wait call t) (finished : state.done t = true) :
    PoolOk { state with dispatcher := waitFrom call (t + 1) } := by
  have dispatch := ok.dispatch
  rw [position] at dispatch
  constructor
  · intro u
    have thread := ok.threads u
    rw [position] at thread
    dsimp only
    by_cases same : u = t
    · subst same
      rw [finished] at thread ⊢
      have closed : (waitFrom call (u + 1)).isOpen u = false := by
        rw [waitFrom_isOpen]
        simp
      rw [closed]
      exact thread.close
    · have unchanged :
          (waitFrom call (t + 1)).isOpen u = DispatchPc.isOpen (.wait call t) u := by
        rw [waitFrom_isOpen]
        simp only [DispatchPc.isOpen]
        congr 1
        rw [decide_eq_decide]
        omega
      rw [unchanged]
      exact thread
  · dsimp only
    rw [waitFrom]
    split_ifs with within
    · exact ⟨dispatch.1, within⟩
    · trivial

theorem PoolOk.dispatcherStep (ok : PoolOk state)
    (settled : handsToSettled state .dispatcher = true) :
    PoolOk state.dispatcherStep := by
  cases position : state.dispatcher with
  | idle =>
    simp only [Pool.dispatcherStep, position]
    exact ok
  | fill call t writes =>
    have dispatch := ok.dispatch
    have threads := ok.threads
    rw [position] at dispatch threads
    cases writes with
    | nil =>
      simp only [Pool.dispatcherStep, position]
      exact ⟨threads, dispatch⟩
    | cons write rest =>
      simp only [Pool.dispatcherStep, position]
      split_ifs with last <;> exact ⟨threads, dispatch⟩
  | clearDone call t => exact ok.clearDone position
  | raiseReady call t =>
    apply ok.raiseReady position
    simp only [handsToSettled, position, bne_iff_ne] at settled
    exact settled
  | wait call t =>
    simp only [Pool.dispatcherStep, position]
    split_ifs with finished
    · exact ok.wait position finished
    · exact ok

/-! ## Steps of a pool thread -/

/-- A step of thread `t` leaves every other thread as it was, so only its own
flags have to be looked at. -/
structure OwnStep (state after : Pool) (t : Nat) : Prop where
  dispatcher : after.dispatcher = state.dispatcher
  issued : after.issued = state.issued
  others :
    ∀ u, u ≠ t →
      after.worker u = state.worker u ∧ after.ready u = state.ready u ∧
        after.done u = state.done u ∧ after.taken u = state.taken u

theorem PoolOk.ownStep {after : Pool} (ok : PoolOk state) {t : Nat} (own : OwnStep state after t)
    (thread : ThreadOk (after.worker t) (after.ready t) (after.done t)
        (state.dispatcher.isOpen t) (after.taken t) (state.issued t))
    (kept : after.done t = state.done t ∨ state.dispatcher.isOpen t = true) :
    PoolOk after := by
  have done : ∀ u, u ≠ t → after.done u = state.done u :=
    fun u different => (own.others u different).2.2.1
  constructor
  · intro u
    rw [own.dispatcher, own.issued]
    by_cases same : u = t
    · subst same
      exact thread
    · obtain ⟨worker, ready, done, taken⟩ := own.others u same
      rw [worker, ready, done, taken]
      exact ok.threads u
  · have dispatch := ok.dispatch
    rw [own.dispatcher]
    cases position : state.dispatcher with
    | raiseReady call u =>
      rw [position] at dispatch kept
      refine ⟨dispatch.1, dispatch.2.1, ?_⟩
      by_cases same : u = t
      · subst same
        rcases kept with unchanged | isOpen
        · rw [unchanged]
          exact dispatch.2.2
        · simp [DispatchPc.isOpen] at isOpen
      · rw [done u same]
        exact dispatch.2.2
    | _ =>
      rw [position] at dispatch
      exact dispatch

/-- What a step of thread `t` can be: spinning on, taking an item, a step
inside the task, and the two writes at its end. -/
inductive WorkerMove (state : Pool) (t : Nat) : Pool → Prop
  | rests : WorkerMove state t state
  | takes
      (spinning : state.worker t = .spin) (raised : state.ready t = true) :
      WorkerMove state t
        { state.goTo t .readTask with
          taken := update state.taken t (state.issued t) }
  | works
      (busy : (state.worker t).isBusy = true) (pc : PoolPc)
      (stillBusy : pc.isBusy = true) (computed : Nat → List Computed) :
      WorkerMove state t { state.goTo t pc with computed := computed }
  | signals (position : state.worker t = .signalDone) :
      WorkerMove state t
        { state.goTo t .clearReady with
          done := update state.done t true }
  | clears (position : state.worker t = .clearReady) :
      WorkerMove state t
        { state.goTo t .spin with
          ready := update state.ready t false }

theorem workerStep_move (state : Pool) (t : Nat) : WorkerMove state t (state.workerStep t) := by
  cases position : state.worker t with
  | spin =>
    simp only [Pool.workerStep, position]
    split_ifs with raised
    · exact .takes position raised
    · exact .rests
  | readTask =>
    simp only [Pool.workerStep, position]
    have busy : (state.worker t).isBusy = true := by rw [position]; rfl
    cases (state.item t).task with
    | matmul => exact .works busy .matmulStart rfl state.computed
    | attention => exact .works busy .attentionStart rfl state.computed
  | matmulStart =>
    simp only [Pool.workerStep, position]
    exact .works (by rw [position]; rfl) (.matmulRow _) rfl state.computed
  | matmulRow i =>
    simp only [Pool.workerStep, position]
    have busy : (state.worker t).isBusy = true := by rw [position]; rfl
    split_ifs with inside
    · exact .works busy (.matmulRow (i + 1)) rfl _
    · exact .works busy .signalDone rfl state.computed
  | attentionStart =>
    simp only [Pool.workerStep, position]
    exact .works (by rw [position]; rfl) (.attentionHead _ _ _ _ _) rfl state.computed
  | attentionHead s p layer pos h =>
    simp only [Pool.workerStep, position]
    have busy : (state.worker t).isBusy = true := by rw [position]; rfl
    split_ifs with inside
    · exact .works busy (.attentionHead s p layer pos (h + 1)) rfl _
    · exact .works busy .signalDone rfl state.computed
  | signalDone =>
    simp only [Pool.workerStep, position]
    exact .signals position
  | clearReady =>
    simp only [Pool.workerStep, position]
    exact .clears position

theorem WorkerMove.ownStep {after : Pool} {t : Nat} (move : WorkerMove state t after) :
    OwnStep state after t := by
  cases move with
  | rests => exact ⟨rfl, rfl, fun _ _ => ⟨rfl, rfl, rfl, rfl⟩⟩
  | takes spinning raised =>
    refine ⟨rfl, rfl, fun u different => ?_⟩
    exact ⟨update_of_ne different _ _, rfl, rfl, update_of_ne different _ _⟩
  | works busy pc stillBusy computed =>
    refine ⟨rfl, rfl, fun u different => ?_⟩
    exact ⟨update_of_ne different _ _, rfl, rfl, rfl⟩
  | signals position =>
    refine ⟨rfl, rfl, fun u different => ?_⟩
    exact ⟨update_of_ne different _ _, rfl, update_of_ne different _ _, rfl⟩
  | clears position =>
    refine ⟨rfl, rfl, fun u different => ?_⟩
    exact ⟨update_of_ne different _ _, update_of_ne different _ _, rfl, rfl⟩

theorem PoolOk.workerStep (ok : PoolOk state) (t : Nat) : PoolOk (state.workerStep t) := by
  have move := workerStep_move state t
  have own := move.ownStep
  have thread := ok.threads t
  generalize state.workerStep t = after at move own ⊢
  cases move with
  | rests => exact ok
  | takes spinning raised =>
    rw [spinning, raised] at thread
    simp only [ThreadOk, Bool.true_eq, Bool.and_eq_true,
      Bool.not_eq_eq_eq_not, Bool.not_true] at thread
    apply ok.ownStep own
    · simp only [Pool.goTo, update_self]
      exact ⟨raised, thread.1, thread.2, rfl⟩
    · exact Or.inl rfl
  | works busy pc stillBusy computed =>
    apply ok.ownStep own
    · simp only [Pool.goTo, update_self]
      rw [ThreadOk.of_isBusy stillBusy]
      exact (ThreadOk.of_isBusy busy).1 thread
    · exact Or.inl rfl
  | signals position =>
    rw [position] at thread
    obtain ⟨raised, isOpen, -, -⟩ := thread
    apply ok.ownStep own
    · simp only [Pool.goTo, update_self]
      exact ⟨raised, fun _ => rfl⟩
    · exact Or.inr isOpen
  | clears position =>
    rw [position] at thread
    obtain ⟨-, signalled⟩ := thread
    apply ok.ownStep own
    · simp only [Pool.goTo, update_self, ThreadOk]
      cases isOpen : state.dispatcher.isOpen t with
      | false => rfl
      | true =>
        rw [signalled isOpen]
        rfl
    · exact Or.inl rfl

theorem PoolOk.step {threads : Nat} (ok : PoolOk state) (event : PoolEvent)
    (settled : handsToSettled state event = true) :
    PoolOk (poolNext threads state event) := by
  cases event with
  | matmul xout x w n d => exact ok.begin fun _ given => matmul_covers given
  | attention s p w nHeads layer pos =>
    exact ok.begin fun _ given => multiheadAttention_covers given
  | dispatcher => exact ok.dispatcherStep settled
  | worker t =>
    rw [poolNext]
    split_ifs with created
    · exact ok.workerStep t
    · exact ok

theorem poolOk_init (items : Nat → WorkItem) : PoolOk (Pool.init items) :=
  ⟨fun _ => rfl, trivial⟩

/-- However the calls, the dispatcher and the pool threads interleave: as long
as items go to settled threads only, the item waited for is never lost. -/
theorem dispatched_item_pending (threads : Nat) (items : Nat → WorkItem) (events : List PoolEvent)
    (settled : Execution.Along (poolNext threads)
        (fun state event => handsToSettled state event = true)
        (Pool.init items) events) :
    ItemPending (after (poolNext threads) (Pool.init items) events) := by
  apply ItemPending.of_ok
  exact history_invariant (poolNext threads) (fun _ state => PoolOk state) (poolOk_init items)
    (fun _ event ok settled => ok.step event settled) settled

/-- An item whose `work_ready` was lowered before its thread took it is never
done: the dispatcher waits on whatever happens next. -/
structure ItemLost (state : Pool) (t : Nat) : Prop where
  waiting : ∃ call, state.dispatcher = .wait call t
  lowered : state.ready t = false
  notDone : state.done t = false
  spinning : state.worker t = .spin

theorem ItemLost.workerStep {t : Nat} (lost : ItemLost state t) (u : Nat) :
    ItemLost (state.workerStep u) t := by
  obtain ⟨⟨call, waiting⟩, lowered, notDone, spinning⟩ := lost
  by_cases same : u = t
  · subst same
    have unchanged : state.workerStep u = state := by simp [Pool.workerStep, spinning, lowered]
    rw [unchanged]
    exact ⟨⟨call, waiting⟩, lowered, notDone, spinning⟩
  · have different : t ≠ u := fun equal => same equal.symm
    have own := (workerStep_move state u).ownStep
    obtain ⟨worker, ready, done, -⟩ := own.others t different
    exact ⟨⟨call, own.dispatcher.trans waiting⟩, ready.trans lowered,
      done.trans notDone, worker.trans spinning⟩

theorem ItemLost.step {threads : Nat} {t : Nat} (lost : ItemLost state t) (event : PoolEvent) :
    ItemLost (poolNext threads state event) t := by
  obtain ⟨call, waiting⟩ := lost.waiting
  have notBegun (given : Option Dispatch) : state.begin given = state := by
    simp [Pool.begin, waiting]
  cases event with
  | matmul | attention =>
    rw [poolNext, notBegun]
    exact lost
  | dispatcher =>
    have unchanged : state.dispatcherStep = state := by
      simp [Pool.dispatcherStep, waiting, lost.notDone]
    rw [poolNext, unchanged]
    exact lost
  | worker u =>
    rw [poolNext]
    split_ifs with created
    · exact lost.workerStep u
    · exact lost

theorem ItemLost.forever {t : Nat} (lost : ItemLost state t) (threads : Nat)
    (events : List PoolEvent) :
    ItemLost (after (poolNext threads) state events) t :=
  invariant_after (poolNext threads) (fun state => ItemLost state t)
    lost (fun _ event lost => lost.step event) events

def blankItem : WorkItem where
  mm := ⟨0, 0, 0, 0, 0, 0, 0⟩
  att := ⟨0, 0, 0, 0, 0, 0, 0⟩
  task := .matmul

/-- One attention call over a single head, handed to the only thread. -/
def handOut : List PoolEvent := PoolEvent.attention 1 2 0 1 0 32 :: List.replicate 10 .dispatcher

/-- The thread takes the item, computes the head and raises `work_done`. -/
def computeHead : List PoolEvent := List.replicate 6 (.worker 0)

/-- The second call begins after the thread has lowered `work_ready`. -/
def settledCalls : List PoolEvent := handOut ++ computeHead ++ [.worker 0, .dispatcher] ++ handOut

/-- The second call begins as soon as `work_done` is seen. -/
def backToBackCalls : List PoolEvent :=
  handOut ++ computeHead ++ [.dispatcher] ++ handOut ++ [.worker 0]

theorem dispatched_item_pending_settledCalls :
    (after (poolNext 1) (Pool.init fun _ => blankItem)
        settledCalls).dispatcher.waitingFor = some 0 ∧
      ItemPending (after (poolNext 1) (Pool.init fun _ => blankItem) settledCalls) :=
  ⟨by decide +kernel,
    dispatched_item_pending 1 (fun _ => blankItem) settledCalls (by decide +kernel)⟩

/-- The thread lowers the `work_ready` of the second item, and the dispatcher
waits for it in every later state. -/
theorem backToBackCalls_lose_item :
    let state := after (poolNext 1) (Pool.init fun _ => blankItem) backToBackCalls
    ¬ ItemPending state ∧
      ∀ events, (after (poolNext 1) state events).dispatcher.waitingFor = some 0 := by
  intro state
  have waiting : state.dispatcher.waitingFor = some 0 := by decide +kernel
  have lowered : state.ready 0 = false := by decide +kernel
  have notDone : state.done 0 = false := by decide +kernel
  have spinning : state.worker 0 = .spin := by decide +kernel
  have waits : ∃ call, state.dispatcher = .wait call 0 := by
    cases position : state.dispatcher with
    | wait call t =>
      rw [position] at waiting
      injection waiting with first
      exact ⟨call, by rw [first]⟩
    | _ =>
      rw [position] at waiting
      cases waiting
  constructor
  · intro pending
    rcases pending 0 waiting notDone with raised | ⟨busy, -⟩
    · rw [lowered] at raised
      cases raised
    · rw [spinning] at busy
      cases busy
  · intro events
    have lost : ItemLost state 0 := ⟨waits, lowered, notDone, spinning⟩
    obtain ⟨call, still⟩ := (lost.forever 1 events).waiting
    rw [still]
    rfl

end LlmRuntime.Llama
