import LlmRuntime.Discovery.RingStitch

/-!
# When joining and restitching agree

The pointers a `CAP_ACK` leaves are those `discovery_restitch_ring` would write
exactly when the state it met was ready for the join.
-/

namespace LlmRuntime.Discovery

open Chain Execution Function

def CapAckSucceeds (self : RpcAddr) (master : Master) (event : MasterEvent) : Prop :=
  ∃ msg src now entropy,
    event = .call msg src now entropy ∧ msg.proc = procCapAck ∧
      ∃ dst xid payload, Outgoing.reply dst xid .success payload ∈ (masterStep self master event).2

/-- No `AUTH_HELLO` registers a worker at the master's own address. -/
def HelloForeign (self : RpcAddr) (master : Master) (event : MasterEvent) : Prop :=
  ∀ slot info now entropy, HelloTakes master event slot info now entropy → info.addr ≠ self

/-- Calling `discovery_restitch_ring` in this state changes no entry. -/
def RestitchIdle (self : RpcAddr) (master : Master) : Prop :=
  (discoveryRestitchRing self master.registry).1 = master.registry

theorem AckAccepted.registry_eq {self : RpcAddr} {master : Master} {event : MasterEvent}
    {slot : Slot} {ack : CapAck} {now : UInt32} (accepted : AckAccepted master event slot ack now) :
    (masterNext self master event).registry = (activate self master.registry slot now).2.1 := by
  obtain ⟨⟨msg, src, entropy, rfl, admitted, isAck, long, rfl, found⟩,
    isPending, answers⟩ := accepted
  rw [masterNext, masterStep_of_acceptsAck self admitted isAck ⟨long, found, isPending, answers⟩]

theorem capAckSucceeds_iff (self : RpcAddr) (master : Master) (event : MasterEvent) :
    CapAckSucceeds self master event ↔ ∃ slot ack now, AckAccepted master event slot ack now := by
  constructor
  · intro succeeds
    obtain ⟨msg, src, now, entropy, rfl, isAck, dst, xid, payload, sent⟩ := succeeds
    by_cases admitted : Admitted master msg src now
    · rw [masterStep_of_capAck self admitted isAck] at sent
      by_contra never
      have refused : ∀ slot, ¬ AcceptsAck master.registry msg src slot := by
        rintro slot ⟨long, found, isPending, answers⟩
        exact never ⟨slot, _, now,
          ⟨msg, src, entropy, rfl, admitted, isAck, long, rfl, found⟩,
          isPending, answers⟩
      rcases
          (@handleCapAck_refused
            { master with discRl := (discRlAllow master.discRl src now).1 }
            _ _ self now refused).2 with
        garbage | systemErr
      · simp [garbage, answer] at sent
      · simp [systemErr, answer] at sent
    · rcases
          (discoveryHandleCall_of_not_admitted admitted).2 with
        silent | unavailable
      · rw [masterStep, silent] at sent
        simp at sent
      · rw [masterStep, unavailable] at sent
        simp [answer] at sent
  · intro accepted
    obtain ⟨slot, _, now,
      ⟨msg, src, entropy, rfl, admitted, isAck, long, rfl, found⟩,
      isPending, answers⟩ := accepted
    refine ⟨msg, src, now, entropy, rfl, isAck, src, msg.xid,
      (activate self master.registry slot now).1.encode, ?_⟩
    rw [masterStep_of_acceptsAck self admitted isAck ⟨long, found, isPending, answers⟩]
    exact List.mem_append_right _ (List.mem_singleton_self _)

/-- No registered worker has the master's address. -/
def AddressesForeign (self : RpcAddr) (registry : Registry) : Prop :=
  ∀ i, (registry i).info.workerId ≠ 0 → (registry i).info.addr ≠ self

theorem AddressesForeign.of_sameInfo {self : RpcAddr} {registry next : Registry}
    (foreign : AddressesForeign self registry) (sameInfo : ∀ i, (next i).info = (registry i).info) :
    AddressesForeign self next := by
  intro i used
  rw [sameInfo i] at used ⊢
  exact foreign i used

theorem AddressesForeign.update {self : RpcAddr} {registry : Registry}
    (foreign : AddressesForeign self registry) (slot : Slot)
    {entry : WorkerEntry} (entryForeign : entry.info.addr ≠ self) :
    AddressesForeign self (update registry slot entry) := by
  intro i used
  by_cases same : i = slot
  · subst same
    rw [update_self]
    exact entryForeign
  · rw [update_of_ne same] at used ⊢
    exact foreign i used

theorem addressesForeign_step {self : RpcAddr} {master : Master}
    {event : MasterEvent} (foreign : AddressesForeign self master.registry)
    (helloForeign : HelloForeign self master event) :
    AddressesForeign self (masterNext self master event).registry := by
  have effect := masterStep_registryStep self master event
  unfold masterNext
  generalize (masterStep self master event).1.registry = outcome at effect ⊢
  cases effect with
  | same _ _ => exact foreign
  | @registered slot info now entropy takes dry
  | @challenged slot info now entropy takes drawn =>
    exact foreign.update slot (helloForeign slot info now entropy takes)
  | @activated slot ack now accepted =>
    apply foreign.of_sameInfo
    intro i
    exact (activate_frame self master.registry slot now i).1
  | @refreshed slot now reaches =>
    apply foreign.of_sameInfo
    apply update_sameInfo
    rfl
  | @aged now isExpire =>
    apply foreign.of_sameInfo
    intro i
    exact (expireEntry_frame now (master.registry i)).1

theorem addressesForeign_masterAfter {self : RpcAddr} {events : List MasterEvent}
    (helloForeign : Along (masterNext self) (HelloForeign self) Master.init events) :
    AddressesForeign self (masterAfter self events).registry := by
  refine history_invariant (masterNext self)
    (fun _ master => AddressesForeign self master.registry) ?_ ?_
    helloForeign
  · intro i used
    exact absurd rfl used
  · intro initial event foreign guard
    exact addressesForeign_step foreign guard

/-- In a run whose workers do not use the master's address, restitching is idle
after every `CAP_ACK` answered `SUCCESS` exactly when every accepted `CAP_ACK`
meets a ring that its join keeps. -/
theorem restitch_idle_after_joins_iff (self : RpcAddr) (events : List MasterEvent)
    (helloForeign : Along (masterNext self) (HelloForeign self) Master.init events) :
    Along (masterNext self)
        (fun master event =>
          CapAckSucceeds self master event → RestitchIdle self (masterNext self master event))
        Master.init events ↔
      Along (masterNext self)
        (fun master event =>
          ∀ slot ack now, AckAccepted master event slot ack now →
            JoinKeepsRing self master.registry slot)
        Master.init events := by
  have oneStep :
      ∀ initial event rest, events = initial ++ event :: rest →
        ((CapAckSucceeds self (masterAfter self initial) event →
            RestitchIdle self (masterNext self (masterAfter self initial) event)) ↔
          ∀ slot ack now,
            AckAccepted (masterAfter self initial) event slot ack now →
              JoinKeepsRing self (masterAfter self initial).registry slot) := by
    intro initial event rest split
    have foreign : AddressesForeign self (masterAfter self initial).registry := by
      apply addressesForeign_masterAfter
      rw [split, along_append] at helloForeign
      exact helloForeign.1
    have idle_iff :
        ∀ slot ack now,
          AckAccepted (masterAfter self initial) event slot ack now →
            (RestitchIdle self
                (masterNext self (masterAfter self initial) event) ↔
              JoinKeepsRing self (masterAfter self initial).registry slot) := by
      intro slot ack now accepted
      rw [RestitchIdle, discoveryRestitchRing_eq_self_iff,
        accepted.registry_eq, ringLinked_activate_iff foreign]
    rw [capAckSucceeds_iff]
    constructor
    · intro idle slot ack now accepted
      exact (idle_iff slot ack now accepted).mp (idle ⟨slot, ack, now, accepted⟩)
    · intro keeps succeeds
      obtain ⟨slot, ack, now, accepted⟩ := succeeds
      exact (idle_iff slot ack now accepted).mpr (keeps slot ack now accepted)
  rw [along_iff_split, along_iff_split]
  constructor
  · intro idle initial event rest split
    exact (oneStep initial event rest split).mp (idle initial event rest split)
  · intro keeps initial event rest split
    exact (oneStep initial event rest split).mpr (keeps initial event rest split)

/-- The second worker registers after the first one is active, in the next
slot. -/
def orderlyRun : List MasterEvent :=
  [exampleHello 7 0, exampleCapAck 7 1, exampleHello 8 2, exampleCapAck 8 3]

/-- Both workers register, and the one in the higher slot is activated
first. -/
def overtakingRun : List MasterEvent :=
  [exampleHello 7 0, exampleHello 8 1, exampleCapAck 8 2, exampleCapAck 7 3]

theorem not_ackAccepted_exampleHello (master : Master) (workerId at_ : UInt32)
    (slot : Slot) (ack : CapAck) (now : UInt32) :
    ¬ AckAccepted master (exampleHello workerId at_) slot ack now := by
  intro accepted
  obtain ⟨⟨_, _, _, sameEvent, _, isAck, _⟩, _⟩ := accepted
  cases sameEvent
  have sameProc : procAuthHello = procCapAck := isAck
  exact absurd sameProc (by decide)

theorem helloForeign_exampleHello (master : Master) (workerId at_ : UInt32)
    (foreign : (exampleWorker workerId).addr ≠ exampleMaster) :
    HelloForeign exampleMaster master (exampleHello workerId at_) := by
  intro slot info now entropy takes
  obtain ⟨_, _, sameEvent, _, _, _, rfl, _⟩ := takes
  cases sameEvent
  rw [helloMsg, rpcFillCall, WorkerInfo.decode_encode]
  exact foreign

theorem helloForeign_exampleCapAck (master : Master) (workerId at_ : UInt32) :
    HelloForeign exampleMaster master (exampleCapAck workerId at_) := by
  intro slot info now entropy takes
  obtain ⟨_, _, sameEvent, _, isHello, _⟩ := takes
  cases sameEvent
  have sameProc : procCapAck = procAuthHello := isHello
  exact absurd sameProc (by decide)

theorem ackAccepted_exampleCapAck_slot {master : Master} {workerId at_ : UInt32} {expected : Slot}
    (found : registryFindIpPort master.registry (exampleWorker workerId).addr = some expected)
    {slot : Slot} {ack : CapAck} {now : UInt32}
    (accepted : AckAccepted master (exampleCapAck workerId at_) slot ack now) :
    slot = expected := by
  obtain ⟨⟨_, _, _, sameEvent, _, _, _, _, foundSlot⟩, _⟩ := accepted
  cases sameEvent
  rw [found] at foundSlot
  exact (Option.some.inj foundSlot).symm

/-- The master when the second worker of `orderlyRun` has registered. -/
def orderlyRegistered : Master := helloApplied exampleActivated 1 8 2

theorem orderlyRun_joinKeepsRing : JoinKeepsRing exampleMaster orderlyRegistered.registry 1 := by
  have below : activeBelow orderlyRegistered.registry 1 = [0] := by decide
  have above : activeAbove orderlyRegistered.registry 1 = [] := by decide
  have used : (orderlyRegistered.registry 1).info.workerId ≠ 0 := by decide
  intro prevSlot found
  have isFirst : prevSlot = 0 := by
    rw [findPrevActiveWorker_eq, below, above] at found
    exact (Option.some.inj found).symm
  rw [if_neg used, isFirst, below, above]
  refine ⟨by decide, ⟨by decide, by decide, trivial⟩, trivial⟩

/-- In `orderlyRun` the two paths agree after both joins. -/
theorem restitch_idle_orderlyRun :
    Along (masterNext exampleMaster)
      (fun master event =>
        CapAckSucceeds exampleMaster master event →
          RestitchIdle exampleMaster (masterNext exampleMaster master event))
      Master.init orderlyRun := by
  have registered := masterNext_init_exampleHello
  have activated :
      masterNext exampleMaster exampleRegistered (exampleCapAck 7 1) =
        exampleActivated := by
    rw [masterNext, masterStep_exampleRegistered]
  have registeredAgain :
      masterNext exampleMaster exampleActivated (exampleHello 8 2) = orderlyRegistered :=
    masterNext_exampleHello (by decide) (by decide)
  refine (restitch_idle_after_joins_iff exampleMaster orderlyRun
    ⟨helloForeign_exampleHello _ 7 0 (by decide),
      helloForeign_exampleCapAck _ 7 1,
      helloForeign_exampleHello _ 8 2 (by decide),
      helloForeign_exampleCapAck _ 8 3, trivial⟩).mpr ?_
  refine ⟨?_, ?_, ?_, ?_, trivial⟩
  · intro slot ack now accepted
    exact absurd accepted (not_ackAccepted_exampleHello _ 7 0 slot ack now)
  · rw [registered]
    intro slot ack now accepted
    have first : slot = 0 := ackAccepted_exampleCapAck_slot (by decide) accepted
    have alone : findPrevActiveWorker exampleRegistered.registry 0 = none := by decide
    intro prevSlot found
    rw [first, alone] at found
    cases found
  · rw [registered, activated]
    intro slot ack now accepted
    exact absurd accepted (not_ackAccepted_exampleHello _ 8 2 slot ack now)
  · rw [registered, activated, registeredAgain]
    intro slot ack now accepted
    have second : slot = 1 := ackAccepted_exampleCapAck_slot (by decide) accepted
    rw [second]
    exact orderlyRun_joinKeepsRing

/-- The master before and after the last join of `overtakingRun`. -/
def overtakenPending : Master := capAckApplied (helloApplied exampleRegistered 1 8 1) 1 8 2

def overtakenActivated : Master := capAckApplied overtakenPending 0 7 3

/-- In `overtakingRun` the last `CAP_ACK` wraps around to the worker in the
higher slot: the first worker of the ring is linked behind the last one, and
restitching rewrites it. -/
theorem overtakingRun_restitch_not_idle :
    (overtakingRun.map MasterEvent.clock).Pairwise (· ≤ ·) ∧
      (exampleWorker 7).addr ≠ (exampleWorker 8).addr ∧
      (exampleWorker 7).addr ≠ exampleMaster ∧
      (exampleWorker 8).addr ≠ exampleMaster ∧
      CapAckSucceeds exampleMaster
        (masterAfter exampleMaster [exampleHello 7 0, exampleHello 8 1, exampleCapAck 8 2])
        (exampleCapAck 7 3) ∧
      ¬ RestitchIdle exampleMaster (masterAfter exampleMaster overtakingRun) := by
  have registered := masterNext_init_exampleHello
  have bothRegistered :
      masterNext exampleMaster exampleRegistered (exampleHello 8 1) =
        helloApplied exampleRegistered 1 8 1 :=
    masterNext_exampleHello (by decide) (by decide)
  have secondActivated :
      masterNext exampleMaster (helloApplied exampleRegistered 1 8 1) (exampleCapAck 8 2) =
        overtakenPending :=
    masterNext_exampleCapAck (by decide) (by decide) rfl (exampleAnswer_answers rfl rfl)
  have firstActivated :
      masterStep exampleMaster overtakenPending (exampleCapAck 7 3) = (overtakenActivated, _) :=
    masterStep_exampleCapAck (by decide) (by decide) (by decide)
      (exampleAnswer_answers (by decide) rfl)
  have before :
      masterAfter exampleMaster
          [exampleHello 7 0, exampleHello 8 1, exampleCapAck 8 2] =
        overtakenPending := by
    simp only [masterAfter, after_cons, after_nil, registered, bothRegistered, secondActivated]
  have reached : masterAfter exampleMaster overtakingRun = overtakenActivated := by
    have last :
        masterNext exampleMaster overtakenPending (exampleCapAck 7 3) = overtakenActivated := by
      rw [masterNext, firstActivated]
    simp only [masterAfter, overtakingRun, after_cons, after_nil,
      registered, bothRegistered, secondActivated, last]
  refine ⟨by decide, by decide, by decide, by decide, ?_, ?_⟩
  · rw [before]
    refine ⟨_, _, _, _, rfl, rfl, (exampleWorker 7).addr, 2,
      (activate exampleMaster overtakenPending.registry 0 3).1.encode, ?_⟩
    rw [firstActivated]
    exact List.mem_append_right _ (List.mem_singleton_self _)
  · rw [reached]
    intro idle
    have samePrev :
        ((discoveryRestitchRing exampleMaster
            overtakenActivated.registry).1 0).prev =
          (overtakenActivated.registry 0).prev :=
      congrArg (fun registry : Registry => (registry 0).prev) idle
    exact absurd samePrev (by decide)

end LlmRuntime.Discovery
