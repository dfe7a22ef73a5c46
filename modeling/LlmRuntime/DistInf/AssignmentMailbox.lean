import LlmRuntime.DistInf.SessionIsolation

/-!
# Acknowledged assignments

The hook stores an assignment, raises `have_assignment` and acknowledges it; the
inference thread copies the assignment and then lowers the flag.  One that is
acknowledged in between is never handled.
-/

namespace LlmRuntime.DistInf

open Execution

universe u

variable {Row : Type u}

/-- A worker with the assignment its listen thread last acknowledged with
`SUCCESS` and the one its inference thread last reported on. -/
structure AssignmentLog (Row : Type u) where
  worker : Worker Row
  acked : Option AssignLayers
  handled : Option AssignLayers

def acknowledgedBy (worker : Worker Row) : WorkerEvent → Option AssignLayers
  | .listen =>
    match worker.listen with
    | .assignRaise _ _ assignment => some assignment
    | _ => none
  | _ => none

/-- The assignment a step reports on, which ends its handling. -/
def handledBy (worker : Worker Row) : WorkerEvent → Option AssignLayers
  | .infer _ _ =>
    match worker.infer with
    | .report assignment _ => some assignment
    | _ => none
  | _ => none

def AssignmentLog.init (prev next : RpcAddr) : AssignmentLog Row where
  worker := Worker.init prev next
  acked := none
  handled := none

def assignmentNext (self : WorkerSelf) (kernel : Kernel Row)
    (log : AssignmentLog Row) (event : WorkerEvent) : AssignmentLog Row where
  worker := workerNext self kernel log.worker event
  acked := (acknowledgedBy log.worker event).or log.acked
  handled := (handledBy log.worker event).or log.handled

/-- With the inference thread at the top of its loop and the flag down, the
assignment acknowledged last is the one handled last. -/
def NoneOutstanding (log : AssignmentLog Row) : Prop :=
  log.worker.infer = .top → log.worker.haveAssignment = false → log.acked = log.handled

/-- When the inference thread lowers `have_assignment`, the assignment it has
copied is still the one acknowledged last. -/
def clearsAcknowledged (log : AssignmentLog Row) : WorkerEvent → Bool
  | .infer _ _ =>
    match log.worker.infer with
    | .clearAssignment assignment => log.acked == some assignment
    | _ => true
  | _ => true

/-- The assignment the inference thread is working on. -/
def InferPc.inHand : InferPc → Option AssignLayers
  | .clearReady assignment => some assignment
  | .release assignment => some assignment
  | .load assignment => some assignment
  | .setSession assignment => some assignment
  | .setReady assignment => some assignment
  | .report assignment _ => some assignment
  | _ => none

/-- The flag has been seen and not yet been lowered. -/
def InferPc.isTaking : InferPc → Bool
  | .copyAssignment => true
  | .clearAssignment _ => true
  | _ => false

/-- While the flag is down, the assignment acknowledged last is in hand or
handled. -/
def Accounted (log : AssignmentLog Row) : Prop :=
  log.worker.infer.isTaking = false →
    log.worker.haveAssignment = false → log.acked = log.worker.infer.inHand.or log.handled

theorem Accounted.noneOutstanding {log : AssignmentLog Row} (accounted : Accounted log) :
    NoneOutstanding log := by
  intro idle lowered
  have equal := accounted (by rw [idle]; rfl) lowered
  rw [idle] at equal
  exact equal

/-- A step of the listen thread that leaves the flag as it is acknowledges
nothing. -/
theorem listenStep_haveAssignment (self : WorkerSelf) (worker : Worker Row) :
    (listenStep self worker).1.haveAssignment = true ∨
      ((listenStep self worker).1.haveAssignment = worker.haveAssignment ∧
        acknowledgedBy worker .listen = none) := by
  cases position : worker.listen with
  | assignRaise src xid assignment =>
    left
    simp only [listenStep, position]
  | hopCommit hop staging =>
    right
    by_cases busy : worker.haveHop = true <;>
      simp [listenStep, position, commitHop, acknowledgedBy, busy]
  | _ =>
    right
    simp [listenStep, position, acknowledgedBy]

theorem deliverStep_haveAssignment (self : WorkerSelf) (worker : Worker Row)
    (msg : RpcMsg) (src : RpcAddr) :
    (deliverStep self worker msg src).1.haveAssignment = worker.haveAssignment := by
  rw [deliverStep]
  split
  · rw [receive]
    split_ifs <;> rfl
  · rfl

theorem Accounted.inferStep {self : WorkerSelf} {kernel : Kernel Row} {log : AssignmentLog Row}
    (accounted : Accounted log) (fetch : Fetch) (fwdUs : UInt32)
    (guard : clearsAcknowledged log (.infer fetch fwdUs) = true) :
    Accounted (assignmentNext self kernel log (.infer fetch fwdUs)) := by
  -- Outside the taking of an assignment the flag and what is accounted for
  -- do not change, whichever way the program counter goes.
  have carry :
      ∀ (next : Worker Row) (handled : Option AssignLayers),
        next.haveAssignment = log.worker.haveAssignment →
        log.worker.infer.isTaking = false →
        (next.infer.isTaking = false →
          next.infer.inHand.or handled = log.worker.infer.inHand.or log.handled) →
        Accounted ⟨next, log.acked, handled⟩ := by
    intro next handled flag notTaking same stillNot lowered
    rw [flag] at lowered
    rw [accounted notTaking lowered, same stillNot]
  simp only [assignmentNext, workerNext, workerStep, DistInf.inferStep,
    acknowledgedBy, handledBy, Option.none_or]
  cases position : log.worker.infer with
  | copyAssignment =>
    intro notTaking
    cases notTaking
  | clearAssignment assignment =>
    intro _ _
    simp only [clearsAcknowledged, position, beq_iff_eq] at guard
    exact guard
  | top | load | testHop | testReady =>
    refine carry _ _ rfl (by rw [position]; rfl) fun _ => ?_
    rw [position]
    dsimp only
    split_ifs <;> rfl
  | drain =>
    dsimp only [drainHop]
    split_ifs <;>
    · exact carry _ _ rfl (by rw [position]; rfl) (fun _ => by rw [position]; rfl)
  | forward hop compute =>
    dsimp only [forwardHop]
    split <;>
    · exact carry _ _ rfl (by rw [position]; rfl) (fun _ => by rw [position]; rfl)
  | _ => exact carry _ _ rfl (by rw [position]; rfl) (fun _ => by rw [position]; rfl)

theorem Accounted.step {self : WorkerSelf} {kernel : Kernel Row}
    {log : AssignmentLog Row} (accounted : Accounted log) (event : WorkerEvent)
    (guard : clearsAcknowledged log event = true) :
    Accounted (assignmentNext self kernel log event) := by
  cases event with
  | deliver msg src =>
    have sameInfer := (deliverStep_frame self log.worker msg src).infer
    have sameFlag := deliverStep_haveAssignment self log.worker msg src
    simp only [assignmentNext, workerNext, workerStep, acknowledgedBy, handledBy, Option.none_or]
    intro notTaking lowered
    dsimp only at notTaking lowered ⊢
    rw [sameInfer] at notTaking ⊢
    rw [sameFlag] at lowered
    exact accounted notTaking lowered
  | listen =>
    have sameInfer := (listenStep_frame self log.worker).infer
    intro notTaking lowered
    simp only [assignmentNext, workerNext, workerStep] at notTaking lowered ⊢
    rcases listenStep_haveAssignment self log.worker with raised | ⟨sameFlag, nothing⟩
    · rw [raised] at lowered
      cases lowered
    · rw [sameInfer] at notTaking ⊢
      rw [sameFlag] at lowered
      rw [nothing]
      exact accounted notTaking lowered
  | infer fetch fwdUs => exact accounted.inferStep fetch fwdUs guard

/-- In every run whose clears all meet the condition, an idle worker with its
flag down has handled the assignment it acknowledged last. -/
theorem acknowledged_assignment_handled (self : WorkerSelf)
    (kernel : Kernel Row) (prev next : RpcAddr) (events : List WorkerEvent)
    (guarded : Along (assignmentNext self kernel)
        (fun log event => clearsAcknowledged log event = true)
        (AssignmentLog.init prev next) events) :
    NoneOutstanding (after (assignmentNext self kernel) (AssignmentLog.init prev next) events) := by
  apply Accounted.noneOutstanding
  refine history_invariant (assignmentNext self kernel) (fun _ log => Accounted log) ?_ ?_ guarded
  · intro _ _
    rfl
  · intro _ event accounted guard
    exact accounted.step event guard

/-- Two assignments, each handled before the next one arrives. -/
def assignedTwiceRun : List WorkerEvent :=
  assignEvents 1 ++ inferEvents 9 ++ assignEvents 2 ++ inferEvents 9

/-- The second assignment is acknowledged between the copy of the first and
the lowering of the flag. -/
def assignedDuringCopyRun : List WorkerEvent :=
  assignEvents 1 ++ inferEvents 2 ++ assignEvents 2 ++ inferEvents 7

theorem acknowledged_assignment_handled_assignedTwiceRun :
    NoneOutstanding
      (after (assignmentNext exampleSelf echoKernel)
        (AssignmentLog.init exampleSelf.master exampleSelf.master)
        assignedTwiceRun) ∧
      (after (assignmentNext exampleSelf echoKernel)
        (AssignmentLog.init exampleSelf.master exampleSelf.master)
        assignedTwiceRun).handled = some (exampleAssign 2) :=
  ⟨acknowledged_assignment_handled exampleSelf echoKernel
      exampleSelf.master exampleSelf.master assignedTwiceRun
      (by decide +kernel),
    by decide +kernel⟩

/-- The worker is idle with its flag down, has acknowledged session 2 and
handled session 1 only. -/
theorem assignedDuringCopyRun_loses_assignment :
    let log :=
      after (assignmentNext exampleSelf echoKernel)
        (AssignmentLog.init exampleSelf.master exampleSelf.master)
        assignedDuringCopyRun
    log.worker.infer = .top ∧ log.worker.haveAssignment = false ∧
      log.acked = some (exampleAssign 2) ∧
      log.handled = some (exampleAssign 1) ∧
      exampleAssign 2 ≠ exampleAssign 1 := by
  decide +kernel

end LlmRuntime.DistInf
