import LlmRuntime.Library.Execution

/-!
# The matmul and attention thread pool

`matmul` and `multihead_attention` write one item a thread, lower
`work_done[t]`, raise `work_ready[t]`, and wait for `work_done`.  Every read or
write of a flag is a step, and so is every assignment to a field of a work item.
`thread_pool_exit` is left out; pointers are numbers.
-/

namespace LlmRuntime.Llama

open Function

inductive TaskType where
  | matmul
  | attention
  deriving DecidableEq, Repr

structure MatmulWork where
  xout : Nat
  x : Nat
  w : Nat
  n : Nat
  d : Nat
  startRow : Nat
  endRow : Nat
  deriving DecidableEq, Repr

structure AttentionWork where
  s : Nat
  p : Nat
  w : Nat
  layer : Nat
  pos : Nat
  headStart : Nat
  headEnd : Nat
  deriving DecidableEq, Repr

/-- The two items and the task type of one pool thread. -/
structure WorkItem where
  mm : MatmulWork
  att : AttentionWork
  task : TaskType
  deriving DecidableEq, Repr

/-- One assignment of a dispatcher to a field of a work item. -/
inductive ItemWrite where
  | mmXout (value : Nat)
  | mmX (value : Nat)
  | mmW (value : Nat)
  | mmN (value : Nat)
  | mmD (value : Nat)
  | mmStartRow (value : Nat)
  | mmEndRow (value : Nat)
  | attS (value : Nat)
  | attP (value : Nat)
  | attW (value : Nat)
  | attLayer (value : Nat)
  | attPos (value : Nat)
  | attHeadStart (value : Nat)
  | attHeadEnd (value : Nat)
  | task (value : TaskType)
  deriving DecidableEq, Repr

def ItemWrite.apply (item : WorkItem) : ItemWrite → WorkItem
  | .mmXout value => { item with mm := { item.mm with xout := value } }
  | .mmX value => { item with mm := { item.mm with x := value } }
  | .mmW value => { item with mm := { item.mm with w := value } }
  | .mmN value => { item with mm := { item.mm with n := value } }
  | .mmD value => { item with mm := { item.mm with d := value } }
  | .mmStartRow value => { item with mm := { item.mm with startRow := value } }
  | .mmEndRow value => { item with mm := { item.mm with endRow := value } }
  | .attS value => { item with att := { item.att with s := value } }
  | .attP value => { item with att := { item.att with p := value } }
  | .attW value => { item with att := { item.att with w := value } }
  | .attLayer value => { item with att := { item.att with layer := value } }
  | .attPos value => { item with att := { item.att with pos := value } }
  | .attHeadStart value => { item with att := { item.att with headStart := value } }
  | .attHeadEnd value => { item with att := { item.att with headEnd := value } }
  | .task value => { item with task := value }

/-- What a call of `matmul` or `multihead_attention` hands out: `active`
threads, of which thread `t` gets the items from `start t` on, up to at most
`limit`, by the assignments `writes t`. -/
structure Dispatch where
  active : Nat
  start : Nat → Nat
  limit : Nat
  writes : Nat → List ItemWrite

/-- The rounding-up quotient both dispatchers use. -/
def partsOf (total size : Nat) : Nat := (total + size - 1) / size

/-- Rows of one thread, a multiple of sixteen. -/
def rowsPerThread (threads d : Nat) : Nat := (partsOf d threads + 15) / 16 * 16

/-- The parallel part of `matmul`; a small matrix is multiplied by the caller
itself. -/
def matmul (threads xout x w n d : Nat) : Option Dispatch :=
  if d < 128 then none
  else
    let rows := rowsPerThread threads d
    some
      { active := min (partsOf d rows) threads
        start := fun t => t * rows
        limit := d
        writes := fun t =>
          [.mmXout xout, .mmX x, .mmW w, .mmN n, .mmD d,
            .mmStartRow (t * rows), .mmEndRow (min (t * rows + rows) d),
            .task .matmul] }

/-- The parallel part of `multihead_attention`; short sequences are attended
to by the caller itself. -/
def multiheadAttention (threads s p w nHeads layer pos : Nat) : Option Dispatch :=
  if pos < 32 then none
  else
    let heads := partsOf nHeads threads
    some
      { active := min (partsOf nHeads heads) threads
        start := fun t => t * heads
        limit := nHeads
        writes := fun t =>
          [.attS s, .attP p, .attW w, .attLayer layer, .attPos pos,
            .attHeadStart (t * heads),
            .attHeadEnd (min (t * heads + heads) nHeads),
            .task .attention] }

/-- No active thread starts at or past the end, so the `break` in the dispatch
loop is never taken and every thread waited for has been given an item. -/
def Dispatch.Covers (call : Dispatch) : Prop := ∀ t, t < call.active → call.start t < call.limit

theorem mul_lt_of_lt_partsOf {total size t : Nat} (within : t < partsOf total size) :
    t * size < total := by
  by_cases empty : size = 0
  · subst empty
    simp [partsOf] at within
  · have positive : 0 < size := Nat.pos_of_ne_zero empty
    have below : (t + 1) * size ≤ total + size - 1 := by
      rw [← Nat.le_div_iff_mul_le positive]
      exact within
    rw [Nat.succ_mul] at below
    omega

theorem matmul_covers {threads xout x w n d : Nat} {call : Dispatch}
    (dispatched : matmul threads xout x w n d = some call) :
    call.Covers := by
  rw [matmul] at dispatched
  split_ifs at dispatched
  cases dispatched
  intro t within
  exact mul_lt_of_lt_partsOf (Nat.lt_of_lt_of_le within (Nat.min_le_left _ _))

theorem multiheadAttention_covers {threads s p w nHeads layer pos : Nat} {call : Dispatch}
    (dispatched : multiheadAttention threads s p w nHeads layer pos = some call) :
    call.Covers := by
  rw [multiheadAttention] at dispatched
  split_ifs at dispatched
  cases dispatched
  intro t within
  exact mul_lt_of_lt_partsOf (Nat.lt_of_lt_of_le within (Nat.min_le_left _ _))

/-- The next access of the dispatching thread. -/
inductive DispatchPc where
  | idle
  | fill (call : Dispatch) (t : Nat) (writes : List ItemWrite)
  | clearDone (call : Dispatch) (t : Nat)
  | raiseReady (call : Dispatch) (t : Nat)
  | wait (call : Dispatch) (t : Nat)

/-- The next access of `universal_worker_thread`. -/
inductive PoolPc where
  | spin
  | readTask
  | matmulStart
  | matmulRow (i : Nat)
  | attentionStart
  | attentionHead (s p layer pos h : Nat)
  | signalDone
  | clearReady
  deriving DecidableEq, Repr

/-- One row or one head as a pool thread has computed it. -/
inductive Computed where
  | row (xout x w n i : Nat)
  | head (s p layer pos h : Nat)
  deriving DecidableEq, Repr

/-- The shared arrays and the program counters.  `issued t` counts the items
given to thread `t`, `taken t` is the number of the item thread `t` last read
`work_ready[t] = 1` for, and `computed t` lists what it has done. -/
structure Pool where
  ready : Nat → Bool
  done : Nat → Bool
  item : Nat → WorkItem
  worker : Nat → PoolPc
  dispatcher : DispatchPc
  issued : Nat → Nat
  taken : Nat → Nat
  computed : Nat → List Computed

inductive PoolEvent where
  | matmul (xout x w n d : Nat)
  | attention (s p w nHeads layer pos : Nat)
  | dispatcher
  | worker (t : Nat)
  deriving DecidableEq, Repr

/-- The pool after `init_thread_pool`; the items are not initialised. -/
def Pool.init (items : Nat → WorkItem) : Pool where
  ready := fun _ => false
  done := fun _ => false
  item := items
  worker := fun _ => .spin
  dispatcher := .idle
  issued := fun _ => 0
  taken := fun _ => 0
  computed := fun _ => []

def waitFrom (call : Dispatch) (t : Nat) : DispatchPc :=
  if t < call.active then .wait call t else .idle

/-- The head of the dispatch loop, with its `break`. -/
def enter (call : Dispatch) (t : Nat) : DispatchPc :=
  if t < call.active then
    if call.limit ≤ call.start t then waitFrom call 0
    else .fill call t (call.writes t)
  else waitFrom call 0

/-- A call of `matmul` or `multihead_attention` by an idle dispatcher. -/
def Pool.begin (state : Pool) (call : Option Dispatch) : Pool :=
  match state.dispatcher, call with
  | .idle, some call => { state with dispatcher := enter call 0 }
  | _, _ => state

def Pool.dispatcherStep (state : Pool) : Pool :=
  match state.dispatcher with
  | .idle => state
  | .fill call t [] => { state with dispatcher := .clearDone call t }
  | .fill call t (write :: rest) =>
    { state with
      item := update state.item t (write.apply (state.item t))
      dispatcher :=
        if rest.isEmpty then .clearDone call t else .fill call t rest }
  | .clearDone call t =>
    { state with
      done := update state.done t false
      dispatcher := .raiseReady call t }
  | .raiseReady call t =>
    { state with
      ready := update state.ready t true
      issued := update state.issued t (state.issued t + 1)
      dispatcher := enter call (t + 1) }
  | .wait call t =>
    if state.done t then
      { state with dispatcher := waitFrom call (t + 1) }
    else state

def Pool.goTo (state : Pool) (t : Nat) (pc : PoolPc) : Pool :=
  { state with worker := update state.worker t pc }

def Pool.log (state : Pool) (t : Nat) (unit : Computed) : Pool :=
  { state with
    computed := update state.computed t (state.computed t ++ [unit]) }

def Pool.workerStep (state : Pool) (t : Nat) : Pool :=
  let item := state.item t
  match state.worker t with
  | .spin =>
    if state.ready t then
      { state.goTo t .readTask with
        taken := update state.taken t (state.issued t) }
    else state
  | .readTask =>
    match item.task with
    | .matmul => state.goTo t .matmulStart
    | .attention => state.goTo t .attentionStart
  | .matmulStart => state.goTo t (.matmulRow item.mm.startRow)
  | .matmulRow i =>
    if i < item.mm.endRow then
      (state.log t (.row item.mm.xout item.mm.x item.mm.w item.mm.n i)).goTo t (.matmulRow (i + 1))
    else state.goTo t .signalDone
  | .attentionStart =>
    state.goTo t
      (.attentionHead item.att.s item.att.p item.att.layer item.att.pos item.att.headStart)
  | .attentionHead s p layer pos h =>
    if h < item.att.headEnd then
      (state.log t (.head s p layer pos h)).goTo t (.attentionHead s p layer pos (h + 1))
    else state.goTo t .signalDone
  | .signalDone =>
    { state.goTo t .clearReady with
      done := update state.done t true }
  | .clearReady =>
    { state.goTo t .spin with
      ready := update state.ready t false }

/-- One step of the pool; only threads below `threads` exist. -/
def poolNext (threads : Nat) (state : Pool) : PoolEvent → Pool
  | .matmul xout x w n d => state.begin (matmul threads xout x w n d)
  | .attention s p w nHeads layer pos =>
    state.begin (multiheadAttention threads s p w nHeads layer pos)
  | .dispatcher => state.dispatcherStep
  | .worker t => if t < threads then state.workerStep t else state

end LlmRuntime.Llama
