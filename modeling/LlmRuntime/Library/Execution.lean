import Mathlib

/-!
# Runs of a state machine

A machine is a total step function `σ → ε → σ`; an event that is not enabled
leaves the state as it is.  `after` folds the step over a list of events, and
`Along` says that every event of a run meets a guard.  An invariant may mention
the events taken so far.
-/

namespace LlmRuntime.Execution

universe u v

variable {σ : Type u} {ε : Type v}

/-- The state reached from `start` by taking `events` in order. -/
def after (step : σ → ε → σ) (start : σ) (events : List ε) : σ := events.foldl step start

@[simp]
theorem after_nil (step : σ → ε → σ) (start : σ) : after step start [] = start := rfl

@[simp]
theorem after_cons (step : σ → ε → σ) (start : σ) (event : ε) (rest : List ε) :
    after step start (event :: rest) = after step (step start event) rest := by
  rw [after, List.foldl_cons, after]

theorem after_append (step : σ → ε → σ) (start : σ) (initial rest : List ε) :
    after step start (initial ++ rest) = after step (after step start initial) rest := by
  simp only [after, List.foldl_append]

@[simp]
theorem after_snoc (step : σ → ε → σ) (start : σ) (initial : List ε) (event : ε) :
    after step start (initial ++ [event]) = step (after step start initial) event := by
  rw [after_append]
  rfl

/-- Every event of the run is taken in a state that meets `guard`. -/
def Along (step : σ → ε → σ) (guard : σ → ε → Prop) :
    σ → List ε → Prop
  | _, [] => True
  | state, event :: rest => guard state event ∧ Along step guard (step state event) rest

instance decidableAlong (step : σ → ε → σ) (guard : σ → ε → Prop)
    [decide : ∀ state event, Decidable (guard state event)] :
    ∀ (start : σ) (events : List ε), Decidable (Along step guard start events)
  | _, [] => isTrue trivial
  | start, event :: rest =>
    @instDecidableAnd _ _ (decide start event) (decidableAlong step guard (step start event) rest)

theorem along_append (step : σ → ε → σ) (guard : σ → ε → Prop) (start : σ) (initial rest : List ε) :
    Along step guard start (initial ++ rest) ↔
      Along step guard start initial ∧ Along step guard (after step start initial) rest := by
  induction initial generalizing start with
  | nil => simp [Along]
  | cons event remaining ih => simp only [List.cons_append, Along, after_cons, ih, and_assoc]

@[simp]
theorem along_snoc (step : σ → ε → σ) (guard : σ → ε → Prop) (start : σ)
    (initial : List ε) (event : ε) :
    Along step guard start (initial ++ [event]) ↔
      Along step guard start initial ∧ guard (after step start initial) event := by
  rw [along_append]
  simp [Along]

/-- `Along` read at one place of the run: the guard holds of the event there
and of the state the events before it lead to. -/
theorem along_iff_split (step : σ → ε → σ) (guard : σ → ε → Prop) (start : σ) (events : List ε) :
    Along step guard start events ↔
      ∀ initial event rest,
        events = initial ++ event :: rest → guard (after step start initial) event := by
  constructor
  · intro along initial event rest split
    rw [split, along_append] at along
    exact along.2.1
  · intro everywhere
    induction events using List.reverseRecOn with
    | nil => trivial
    | append_singleton initial event ih =>
      rw [along_snoc]
      constructor
      · apply ih
        intro before selected later split
        exact everywhere before selected (later ++ [event]) (by simp [split])
      · exact everywhere initial event [] rfl

/-- A property of the history and the state that every guarded step extends
holds at the end of every guarded run. -/
theorem history_invariant (step : σ → ε → σ) {guard : σ → ε → Prop} {start : σ}
    (holds : List ε → σ → Prop) (initially : holds [] start)
    (preserved : ∀ initial event, holds initial (after step start initial) →
        guard (after step start initial) event →
        holds (initial ++ [event]) (step (after step start initial) event))
    {events : List ε} (along : Along step guard start events) :
    holds events (after step start events) := by
  induction events using List.reverseRecOn with
  | nil => exact initially
  | append_singleton initial event ih =>
    rw [along_snoc] at along
    rw [after_snoc]
    exact preserved initial event (ih along.1) along.2

theorem invariant_after (step : σ → ε → σ) {start : σ} (holds : σ → Prop) (initially : holds start)
    (preserved : ∀ state event, holds state → holds (step state event)) (events : List ε) :
    holds (after step start events) := by
  induction events using List.reverseRecOn with
  | nil => exact initially
  | append_singleton initial event ih =>
    rw [after_snoc]
    exact preserved _ event ih

/-- Two guards that agree where an invariant holds hold along the same runs,
when the steps that the first lets through keep the invariant. -/
theorem along_congr_of_invariant (step : σ → ε → σ) {guard other : σ → ε → Prop} (holds : σ → Prop)
    (preserved : ∀ state event, holds state → guard state event → holds (step state event))
    (agree : ∀ state event, holds state → (guard state event ↔ other state event))
    {start : σ} (initially : holds start) (events : List ε) :
    Along step guard start events ↔ Along step other start events := by
  induction events generalizing start with
  | nil => exact Iff.rfl
  | cons event rest ih =>
    constructor
    · rintro ⟨here, later⟩
      have next := preserved start event initially here
      exact ⟨(agree start event initially).mp here, (ih next).mp later⟩
    · rintro ⟨here, later⟩
      have guarded := (agree start event initially).mpr here
      have next := preserved start event initially guarded
      exact ⟨guarded, (ih next).mpr later⟩

section Outputs

variable {ω : Type*}

/-- What the steps of a run put out, in order. -/
def outputs (step : σ → ε → σ) (emit : σ → ε → List ω) :
    σ → List ε → List ω
  | _, [] => []
  | state, event :: rest => emit state event ++ outputs step emit (step state event) rest

theorem outputs_append (step : σ → ε → σ) (emit : σ → ε → List ω) (start : σ)
    (initial rest : List ε) :
    outputs step emit start (initial ++ rest) =
      outputs step emit start initial ++ outputs step emit (after step start initial) rest := by
  induction initial generalizing start with
  | nil => rfl
  | cons event remaining ih =>
    simp only [List.cons_append, outputs, after_cons, ih, List.append_assoc]

@[simp]
theorem outputs_snoc (step : σ → ε → σ) (emit : σ → ε → List ω) (start : σ)
    (initial : List ε) (event : ε) :
    outputs step emit start (initial ++ [event]) =
      outputs step emit start initial ++ emit (after step start initial) event := by
  rw [outputs_append]
  simp only [outputs, List.append_nil]

end Outputs

section Projection

variable {τ φ : Type*} {step : σ → ε → σ} {coarse : τ → φ → τ}
variable {view : σ → τ} {shown : σ → ε → Option φ}

/-- What the run shows to the coarser machine. -/
def shownEvents (step : σ → ε → σ) (shown : σ → ε → Option φ)
    (start : σ) (events : List ε) : List φ :=
  outputs step (fun state event => (shown state event).toList) start events

variable
  (simulates : ∀ state event, view (step state event) =
        (shown state event).elim (view state) (coarse (view state)))

include simulates

/-- A machine whose steps are idle for the coarser one, or steps of it, runs
the coarser one on what it shows. -/
theorem view_after (start : σ) (events : List ε) :
    view (after step start events) =
      after coarse (view start) (shownEvents step shown start events) := by
  induction events using List.reverseRecOn with
  | nil => rfl
  | append_singleton initial event ih =>
    have oneStep := simulates (after step start initial) event
    rw [after_snoc, shownEvents, outputs_snoc, after_append, oneStep]
    rw [shownEvents] at ih
    rw [ih]
    cases shown (after step start initial) event with
    | none => rfl
    | some shownEvent => rfl

theorem along_shownEvents {guard : τ → φ → Prop} {start : σ} (events : List ε)
    (guarded : Along step (fun state event =>
          ∀ shownEvent ∈ shown state event, guard (view state) shownEvent)
        start events) :
    Along coarse guard (view start) (shownEvents step shown start events) := by
  induction events generalizing start with
  | nil => exact trivial
  | cons event rest ih =>
    obtain ⟨here, later⟩ := guarded
    have next := ih later
    rw [simulates] at next
    rw [shownEvents, outputs]
    cases isShown : shown start event with
    | none =>
      rw [isShown] at next
      exact next
    | some shownEvent =>
      rw [isShown] at next
      exact ⟨here shownEvent isShown, next⟩

end Projection

/-- What each pass of a loop `for i in 0 .. n - 1` carries on, the loop
establishes. -/
theorem counted_loop {n : Nat} (step : σ → Fin n → σ) (holds : Nat → σ → Prop)
    {start : σ} (initially : holds 0 start)
    (preserved : ∀ (i : Fin n) (state : σ), holds i.val state → holds (i.val + 1) (step state i)) :
    holds n ((List.finRange n).foldl step start) := by
  have upTo : ∀ k, k ≤ n → holds k (((List.finRange n).take k).foldl step start) := by
    intro k
    induction k with
    | zero =>
      intro _
      exact initially
    | succ k ih =>
      intro inside
      have isNext : (List.finRange n)[k]? = some (⟨k, inside⟩ : Fin n) := by
        simp [Nat.lt_of_succ_le inside]
      rw [List.take_add_one, isNext, Option.toList_some, List.foldl_append]
      exact preserved ⟨k, inside⟩ _ (ih (Nat.le_of_succ_le inside))
  have all := upTo n (Nat.le_refl n)
  rw [List.take_of_length_le (by simp)] at all
  exact all

end LlmRuntime.Execution
