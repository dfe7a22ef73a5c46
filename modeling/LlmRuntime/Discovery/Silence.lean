import LlmRuntime.Discovery.Lookup
import LlmRuntime.Discovery.Steps

/-!
# A worker that falls silent

Once nothing of a worker is handled any more, only the clock acts on its entry.
-/

namespace LlmRuntime.Discovery

open Execution Function

/-- The entry of the slot is the worker's, and it counts for the ring. -/
def WorkerActive (registry : Registry) (slot : Slot) (workerId : UInt32) : Prop :=
  (registry slot).info.workerId = workerId ∧ (registry slot).state = .active

instance (registry : Registry) (slot : Slot) (workerId : UInt32) :
    Decidable (WorkerActive registry slot workerId) := inferInstanceAs (Decidable (_ ∧ _))

/-- Nothing of the worker is handled in the step: no heartbeat with its number,
no answer to its challenge, no registration under its number. -/
structure SilentIn (workerId : UInt32) (master : Master) (event : MasterEvent) : Prop where
  noBeat :
    ∀ slot now, BeatReaches master event slot now → (master.registry slot).info.workerId ≠ workerId
  noAck :
    ∀ slot ack now, AckReaches master event slot ack now →
      (master.registry slot).info.workerId ≠ workerId
  noHello :
    ∀ slot info now entropy,
      HelloTakes master event slot info now entropy → info.workerId ≠ workerId

/-- An entry last seen at `seen` is past `SUSPECTED_TIMEOUT`. -/
def Overdue (seen now : UInt32) : Prop := now - seen > suspectedTimeout

instance (seen now : UInt32) : Decidable (Overdue seen now) := inferInstanceAs (Decidable (_ > _))

/-- The readings of the clock at the passes of `discovery_expire_workers`. -/
def expiryClocks (events : List MasterEvent) : List UInt32 :=
  events.filterMap fun event =>
    match event with
    | .expire now => some now
    | .call .. => none

theorem expiryClocks_append (initial rest : List MasterEvent) :
    expiryClocks (initial ++ rest) = expiryClocks initial ++ expiryClocks rest :=
  List.filterMap_append

/-- What is known of the slot while its worker is silent. -/
structure Silenced (seen workerId : UInt32) (slot : Slot) (clocks : List UInt32)
    (registry : Registry) : Prop where
  unseen : (registry slot).info.workerId = workerId → (registry slot).lastSeenMs = seen
  active_iff : WorkerActive registry slot workerId ↔ ∀ now ∈ clocks, ¬ Overdue seen now

theorem expireEntry_lastSeenMs (now : UInt32) (entry : WorkerEntry) :
    (expireEntry now entry).lastSeenMs = entry.lastSeenMs := by
  unfold expireEntry
  dsimp only
  split_ifs <;> rfl

theorem expireEntry_active_iff
    {entry : WorkerEntry} (named : entry.info.workerId ≠ 0) (now : UInt32) :
    (expireEntry now entry).state = .active ↔
      entry.state = .active ∧ ¬ Overdue entry.lastSeenMs now := by
  have beyond : expiredTimeout > suspectedTimeout := by decide
  unfold expireEntry
  rw [if_neg named]
  by_cases gone : entry.state = .expired
  · simp [gone]
  · rw [if_neg gone]
    dsimp only
    by_cases expires : now - entry.lastSeenMs > expiredTimeout
    · have overdue : Overdue entry.lastSeenMs now := UInt32.lt_trans beyond expires
      simp [expires, overdue]
    · rw [if_neg expires]
      by_cases overdue : Overdue entry.lastSeenMs now
      · have late : now - entry.lastSeenMs > suspectedTimeout := overdue
        by_cases suspected : entry.state = .suspected
        · simp [suspected]
        · simp [late, suspected, overdue]
      · have early : ¬ now - entry.lastSeenMs > suspectedTimeout := overdue
        simp [early, overdue]

section Step

variable {self : RpcAddr} {master : Master} {event : MasterEvent}
variable {seen workerId : UInt32} {slot : Slot} {clocks : List UInt32}

theorem Silenced.of_foreign {registry later : Registry}
    (silenced : Silenced seen workerId slot clocks registry)
    (wasForeign : ¬ WorkerActive registry slot workerId)
    (isForeign : (later slot).info.workerId ≠ workerId) :
    Silenced seen workerId slot clocks later where
  unseen := fun isWorker => absurd isWorker isForeign
  active_iff := by
    have gone : ¬ WorkerActive later slot workerId := fun active => isForeign active.1
    exact (iff_false_intro gone).trans ((iff_false_intro wasForeign).symm.trans silenced.active_iff)

theorem Silenced.congr {registry later : Registry}
    (silenced : Silenced seen workerId slot clocks registry)
    (sameInfo : (later slot).info = (registry slot).info)
    (sameSeen : (later slot).lastSeenMs = (registry slot).lastSeenMs)
    (sameState : (later slot).state = (registry slot).state) :
    Silenced seen workerId slot clocks later where
  unseen := by
    rw [sameInfo, sameSeen]
    exact silenced.unseen
  active_iff := by
    unfold WorkerActive
    rw [sameInfo, sameState]
    exact silenced.active_iff

/-- A registration under another number reaches the slot only when the worker
has expired. -/
theorem Silenced.taken (named : workerId ≠ 0) (silent : SilentIn workerId master event)
    (silenced : Silenced seen workerId slot clocks master.registry) {target : Slot}
    {info : WorkerInfo} {now : UInt32} {entropy : Entropy}
    (takes : HelloTakes master event target info now entropy) {entry : WorkerEntry}
    (sameInfo : entry.info = info) :
    Silenced seen workerId slot clocks (update master.registry target entry) := by
  have foreign : info.workerId ≠ workerId := silent.noHello target info now entropy takes
  by_cases isTarget : slot = target
  · have gone : ¬ WorkerActive master.registry slot workerId := by
      rintro ⟨isWorker, isActive⟩
      obtain ⟨_, _, _, _, _, _, _, _, chosen⟩ := takes
      rw [← isTarget] at chosen
      rcases helloTarget_take chosen with ⟨_, expired⟩ | ⟨_, free⟩
      · rw [isActive] at expired
        cases expired
      · rcases registryFreeSlot_some free with expired | isZero
        · rw [isActive] at expired
          cases expired
        · exact named (isWorker.symm.trans isZero)
    refine silenced.of_foreign gone ?_
    rw [isTarget, update_self, sameInfo]
    exact foreign
  · refine silenced.congr ?_ ?_ ?_
    all_goals rw [update_of_ne isTarget]

theorem Silenced.call (named : workerId ≠ 0) {msg : RpcMsg} {src : RpcAddr} {now : UInt32}
    {entropy : Entropy} (silent : SilentIn workerId master (.call msg src now entropy))
    (silenced : Silenced seen workerId slot clocks master.registry) :
    Silenced seen workerId slot clocks
      (masterNext self master (.call msg src now entropy)).registry := by
  have effect : RegistryStep self master (.call msg src now entropy)
      (masterNext self master (.call msg src now entropy)).registry :=
    masterStep_registryStep self master _
  generalize (masterNext self master (.call msg src now entropy)).registry = outcome at effect ⊢
  cases effect with
  | same _ _ => exact silenced
  | registered takes dry | challenged takes drawn => exact silenced.taken named silent takes rfl
  | @activated target ack at_ accepted =>
    have frame := activate_frame self master.registry target at_ slot
    by_cases isTarget : slot = target
    · have foreign : (master.registry slot).info.workerId ≠ workerId := by
        rw [isTarget]
        exact silent.noAck target ack at_ accepted.1
      refine silenced.of_foreign (fun active => foreign active.1) ?_
      rw [frame.1]
      exact foreign
    · obtain ⟨next, shape⟩ := activate_other self master.registry target at_ isTarget
      refine silenced.congr frame.1 ?_ ?_
      · rw [shape]
      · rw [shape]
  | @refreshed target at_ reaches =>
    by_cases isTarget : slot = target
    · have foreign : (master.registry slot).info.workerId ≠ workerId := by
        rw [isTarget]
        exact silent.noBeat target at_ reaches
      refine silenced.of_foreign (fun active => foreign active.1) ?_
      rw [isTarget] at foreign ⊢
      rw [update_self]
      exact foreign
    · refine silenced.congr ?_ ?_ ?_
      all_goals rw [update_of_ne isTarget]
  | aged isExpire => cases isExpire

theorem Silenced.expire (named : workerId ≠ 0)
    (silenced : Silenced seen workerId slot clocks master.registry) (now : UInt32) :
    Silenced seen workerId slot (clocks ++ [now])
      (masterNext self master (.expire now)).registry := by
  have aged :
      (masterNext self master (.expire now)).registry slot =
        expireEntry now (master.registry slot) :=
    rfl
  have sameInfo : (expireEntry now (master.registry slot)).info = (master.registry slot).info :=
    (expireEntry_frame now _).1
  constructor
  · rw [aged, sameInfo, expireEntry_lastSeenMs]
    exact silenced.unseen
  · unfold WorkerActive
    rw [aged, sameInfo]
    have split :
        (∀ at_ ∈ clocks ++ [now], ¬ Overdue seen at_) ↔
          (∀ at_ ∈ clocks, ¬ Overdue seen at_) ∧ ¬ Overdue seen now := by
      simp [or_imp, forall_and]
    rw [split, ← silenced.active_iff, WorkerActive, and_assoc]
    refine and_congr_right ?_
    intro isWorker
    have used : (master.registry slot).info.workerId ≠ 0 := by
      rw [isWorker]
      exact named
    rw [expireEntry_active_iff used, silenced.unseen isWorker]

theorem Silenced.after (named : workerId ≠ 0) (events : List MasterEvent)
    (silent : Along (masterNext self) (SilentIn workerId) master events)
    (silenced : Silenced seen workerId slot clocks master.registry) :
    Silenced seen workerId slot (clocks ++ expiryClocks events)
      (after (masterNext self) master events).registry := by
  induction events generalizing master clocks with
  | nil =>
    rw [after_nil, expiryClocks, List.filterMap_nil, List.append_nil]
    exact silenced
  | cons event rest ih =>
    obtain ⟨here, later⟩ := silent
    rw [after_cons]
    cases event with
    | call msg src now entropy => exact ih later (silenced.call named here)
    | expire now =>
      have next := ih later (silenced.expire named now)
      rw [List.append_assoc] at next
      exact next

/-- A silent worker is `ACTIVE` at the end of a run exactly when no expiry pass
of the run found it overdue. -/
theorem workerActive_after_iff (named : workerId ≠ 0) (events : List MasterEvent)
    (isActive : WorkerActive master.registry slot workerId)
    (silent : Along (masterNext self) (SilentIn workerId) master events) :
    WorkerActive (Execution.after (masterNext self) master events).registry
        slot workerId ↔
      ∀ now ∈ expiryClocks events, ¬ Overdue (master.registry slot).lastSeenMs now := by
  have start : Silenced (master.registry slot).lastSeenMs workerId slot [] master.registry := by
    refine ⟨fun _ => rfl, ?_⟩
    exact iff_of_true isActive (fun _ listed => absurd listed (by simp))
  exact (start.after named events silent).active_iff

end Step

end LlmRuntime.Discovery
