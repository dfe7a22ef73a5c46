import LlmRuntime.Discovery.Worker

/-!
# Active workers and the authenticated handshake

`WORKER_ACTIVE` is meant to say that a worker answered the challenge drawn for
its current registration.  Two paths lead around the challenge; on the runs that
take neither this is an invariant.
-/

namespace LlmRuntime.Discovery

open Bytes Execution Function

/-- No event of the list is an `AUTH_HELLO` that rewrites `slot`. -/
def SlotKept (self : RpcAddr) (slot : Slot) : Master → List MasterEvent → Prop :=
  Along (masterNext self) fun master event =>
    ∀ info now entropy, ¬ HelloTakes master event slot info now entropy

/-- `hello` is the last `AUTH_HELLO` of the run that set `slot` to `PENDING`;
`since` are the events after it. -/
def LastHello (self : RpcAddr) (events : List MasterEvent) (slot : Slot)
    (before : List MasterEvent) (hello : MasterEvent) (since : List MasterEvent)
    (info : WorkerInfo) (now : UInt32) (entropy : Entropy) : Prop :=
  events = before ++ hello :: since ∧
    HelloTakes (masterAfter self before) hello slot info now entropy ∧
    SlotKept self slot (masterAfter self (before ++ [hello])) since

/-- The answer to the challenge an `AUTH_HELLO` draws: the nonce, the checksum
of the RAM probe, and the keyed identity over the nonce. -/
def challengeAnswer (info : WorkerInfo) (entropy : Entropy) : CapAck where
  probeNonce := (drawProbe entropy).1
  checksum := capProbeChecksum (drawProbe entropy).2 (probePagesFor info.ram)
  identity := capIdentity (drawProbe entropy).1

/-- Since the last `AUTH_HELLO` that set `slot` to `PENDING`, a `CAP_ACK` was
processed for it that equalled the challenge drawn for that `AUTH_HELLO`. -/
def HandshakeCompleted (self : RpcAddr) (events : List MasterEvent) (slot : Slot) : Prop :=
  ∃ before hello since info now entropy,
    LastHello self events slot before hello since info now entropy ∧
      ChallengeDrawn entropy ∧
      ∃ between ack later at_,
        since = between ++ ack :: later ∧
          AckReaches (masterAfter self (before ++ hello :: between))
            ack slot (challengeAnswer info entropy) at_

/-- The entry of `slot` holds the challenge drawn for its last `AUTH_HELLO`. -/
def ChallengeOutstanding (self : RpcAddr) (events : List MasterEvent) (slot : Slot)
    (entry : WorkerEntry) : Prop :=
  ∃ before hello since info now entropy,
    LastHello self events slot before hello since info now entropy ∧
      ChallengeDrawn entropy ∧
      entry.capAckExpected.probeNonce = (challengeAnswer info entropy).probeNonce ∧
      entry.capAckExpected.checksum = (challengeAnswer info entropy).checksum

/-- The two branches that go around the challenge are not taken: the ageing
pass finds no `PENDING` worker whose age makes it suspected, and an
`AUTH_HELLO` that takes a slot draws its challenge. -/
structure HandshakeGuard (master : Master) (event : MasterEvent) : Prop where
  noPendingSuspect :
    ∀ now, event = .expire now → ∀ slot,
      (master.registry slot).info.workerId ≠ 0 →
      (master.registry slot).state = .pending →
      now - (master.registry slot).lastSeenMs ≤ suspectedTimeout ∨
        expiredTimeout < now - (master.registry slot).lastSeenMs
  challengeDrawn :
    ∀ slot info now entropy, HelloTakes master event slot info now entropy → ChallengeDrawn entropy

variable {self : RpcAddr} {events : List MasterEvent} {slot : Slot}
  {event : MasterEvent} {now : UInt32} {entry : WorkerEntry}

section Kept

variable (kept : ∀ info now entropy,
    ¬ HelloTakes (masterAfter self events) event slot info now entropy)

include kept

theorem LastHello.snoc {before : List MasterEvent} {hello : MasterEvent}
    {since : List MasterEvent} {info : WorkerInfo} {entropy : Entropy}
    (last : LastHello self events slot before hello since info now entropy) :
    LastHello self (events ++ [event]) slot before hello (since ++ [event]) info now entropy := by
  obtain ⟨split, takes, keptSince⟩ := last
  refine ⟨by simp [split], takes, ?_⟩
  have reached :
      after (masterNext self) (masterAfter self (before ++ [hello]))
          since =
        masterAfter self events := by
    rw [← masterAfter_append, split]
    simp
  unfold SlotKept at keptSince ⊢
  rw [along_snoc, reached]
  exact ⟨keptSince, kept⟩

theorem HandshakeCompleted.snoc (completed : HandshakeCompleted self events slot) :
    HandshakeCompleted self (events ++ [event]) slot := by
  obtain ⟨before, hello, since, info, now, entropy, last, drawn,
    between, ack, later, at_, split, reaches⟩ := completed
  refine ⟨before, hello, since ++ [event], info, now, entropy,
    last.snoc kept, drawn, between, ack, later ++ [event], at_, ?_,
    reaches⟩
  simp [split]

theorem ChallengeOutstanding.snoc {next : WorkerEntry}
    (outstanding : ChallengeOutstanding self events slot entry)
    (sameChallenge : next.capAckExpected = entry.capAckExpected) :
    ChallengeOutstanding self (events ++ [event]) slot next := by
  obtain ⟨before, hello, since, info, now, entropy, last, drawn, nonce, checksum⟩ := outstanding
  refine ⟨before, hello, since ++ [event], info, now, entropy, last.snoc kept, drawn, ?_, ?_⟩
  · rw [sameChallenge, nonce]
  · rw [sameChallenge, checksum]

omit kept in
theorem ChallengeOutstanding.complete
    (outstanding : ChallengeOutstanding self events slot ((masterAfter self events).registry slot))
    {ack : CapAck} {at_ : UInt32}
    (accepted : AckAccepted (masterAfter self events) event slot ack at_) :
    HandshakeCompleted self (events ++ [event]) slot := by
  obtain ⟨before, hello, since, info, now, entropy, last, drawn, nonce, checksum⟩ := outstanding
  obtain ⟨reaches, _, sameNonce, sameChecksum, sameIdentity⟩ := accepted
  have isAnswer : ack = challengeAnswer info entropy := by
    cases ack with
    | mk probeNonce ackChecksum identity =>
      simp only at sameNonce sameChecksum sameIdentity
      rw [nonce] at sameNonce sameIdentity
      rw [checksum] at sameChecksum
      rw [sameNonce, sameChecksum, sameIdentity]
      rfl
  refine ⟨before, hello, since ++ [event], info, now, entropy,
    last.snoc (reaches.not_helloTakes slot), drawn,
    since, event, [], at_, rfl, ?_⟩
  rw [← last.1, ← isAnswer]
  exact reaches

/-- What the state of an entry says about the run so far.  Nothing is said of
an expired entry: it has to register again. -/
def EntryHistory (self : RpcAddr) (events : List MasterEvent) (slot : Slot)
    (entry : WorkerEntry) : Prop :=
  match entry.state with
  | .pending => ChallengeOutstanding self events slot entry
  | .active => HandshakeCompleted self events slot
  | .suspected => HandshakeCompleted self events slot
  | .expired => True

/-- Every entry in use has the history its state stands for. -/
def RegistryHistory (self : RpcAddr) (events : List MasterEvent) (master : Master) : Prop :=
  ∀ slot, (master.registry slot).info.workerId ≠ 0 →
    EntryHistory self events slot (master.registry slot)

/-- An event that neither rewrites the slot nor changes the entry's state and
challenge keeps its history. -/
theorem EntryHistory.snoc {next : WorkerEntry} (history : EntryHistory self events slot entry)
    (sameState : next.state = entry.state)
    (sameChallenge : next.capAckExpected = entry.capAckExpected) :
    EntryHistory self (events ++ [event]) slot next := by
  unfold EntryHistory at history ⊢
  rw [sameState]
  cases state : entry.state with
  | pending =>
    rw [state] at history
    exact ChallengeOutstanding.snoc kept history sameChallenge
  | active | suspected =>
    rw [state] at history
    exact HandshakeCompleted.snoc kept history
  | expired => trivial

end Kept

theorem entryHistory_challenged {info : WorkerInfo} {entropy : Entropy}
    (takes : HelloTakes (masterAfter self events) event slot info now entropy)
    (drawn : ChallengeDrawn entropy) (entry : WorkerEntry) :
    EntryHistory self (events ++ [event]) slot
      (challengedEntry entry info now (drawProbe entropy).1 (drawProbe entropy).2) :=
  ⟨events, event, [], info, now, entropy, ⟨rfl, takes, trivial⟩, drawn, rfl, rfl⟩

theorem entryHistory_heartbeat (history : EntryHistory self events slot entry)
    (reaches : BeatReaches (masterAfter self events) event slot now) :
    EntryHistory self (events ++ [event]) slot (heartbeatEntry entry now) := by
  have kept := reaches.not_helloTakes slot
  by_cases suspected : entry.state = .suspected
  · -- the revival: a suspected entry already has a completed handshake
    have completed : HandshakeCompleted self events slot := by
      simpa only [EntryHistory, suspected] using history
    have revived : (heartbeatEntry entry now).state = .active := by
      simp only [heartbeatEntry, suspected, if_true]
    simpa only [EntryHistory, revived] using completed.snoc kept
  · exact history.snoc kept (by simp only [heartbeatEntry, suspected, if_false]) rfl

theorem entryHistory_expire (history : EntryHistory self events slot entry)
    (noPendingSuspect : entry.info.workerId ≠ 0 → entry.state = .pending →
        now - entry.lastSeenMs ≤ suspectedTimeout ∨ expiredTimeout < now - entry.lastSeenMs) :
    EntryHistory self (events ++ [.expire now]) slot (expireEntry now entry) := by
  have kept := not_helloTakes_expire (masterAfter self events) now slot
  unfold expireEntry
  dsimp only
  split_ifs with unused alreadyExpired old ageing
  · exact history.snoc kept rfl rfl
  · exact history.snoc kept rfl rfl
  · trivial
  · -- the entry becomes suspected, so it was active
    have wasActive : entry.state = .active := by
      cases state : entry.state with
      | active => rfl
      | expired => exact absurd state alreadyExpired
      | suspected => exact absurd state ageing.2
      | pending =>
        rcases noPendingSuspect unused state with young | veryOld
        · exact absurd ageing.1 (UInt32.not_lt.mpr young)
        · exact absurd veryOld old
    have completed : HandshakeCompleted self events slot := by
      simpa only [EntryHistory, wasActive] using history
    exact completed.snoc kept
  · exact history.snoc kept rfl rfl

theorem registryHistory_step (history : RegistryHistory self events (masterAfter self events))
    (guard : HandshakeGuard (masterAfter self events) event) :
    RegistryHistory self (events ++ [event])
      (masterStep self (masterAfter self events) event).1 := by
  have effect := masterStep_registryStep self (masterAfter self events) event
  intro slot
  generalize (masterStep self (masterAfter self events) event).1.registry = outcome at effect ⊢
  cases effect with
  | same noHello _ =>
    intro used
    exact (history slot used).snoc (noHello slot) rfl rfl
  | @registered taken info now entropy takes dry =>
    have drawn := guard.challengeDrawn taken info now entropy takes
    exact absurd dry (not_or.mpr drawn)
  | @challenged taken info now entropy takes drawn =>
    intro used
    by_cases same : slot = taken
    · subst same
      rw [update_self]
      exact entryHistory_challenged takes drawn _
    · rw [update_of_ne same] at used ⊢
      refine (history slot used).snoc ?_ rfl rfl
      intro _ _ _ otherTakes
      exact same (otherTakes.slot_unique takes)
  | @activated taken ack now accepted =>
    intro used
    have frame := activate_frame self (masterAfter self events).registry taken now slot
    have stateAfter := activate_state self (masterAfter self events).registry taken now slot
    rw [frame.1] at used
    by_cases same : slot = taken
    · subst same
      rw [if_pos rfl] at stateAfter
      have outstanding := history slot used
      rw [EntryHistory, accepted.2.1] at outstanding
      simpa only [EntryHistory, stateAfter] using ChallengeOutstanding.complete outstanding accepted
    · rw [if_neg same] at stateAfter
      exact (history slot used).snoc (accepted.1.not_helloTakes slot) stateAfter frame.2.1
  | @refreshed taken now reaches =>
    intro used
    by_cases same : slot = taken
    · subst same
      rw [update_self] at used ⊢
      exact entryHistory_heartbeat (history slot used) reaches
    · rw [update_of_ne same] at used ⊢
      exact (history slot used).snoc (reaches.not_helloTakes slot) rfl rfl
  | @aged now isExpire =>
    intro used
    subst isExpire
    rw [(expireEntry_frame now _).1] at used
    exact entryHistory_expire (history slot used) (guard.noPendingSuspect now rfl slot)

/-- In every run whose steps keep off the two paths around the challenge, an
active worker has completed the authenticated handshake for its current
registration. -/
theorem active_handshakeCompleted (self : RpcAddr) (events : List MasterEvent)
    (guarded : Along (masterNext self) HandshakeGuard Master.init events) (slot : Slot)
    (used : ((masterAfter self events).registry slot).info.workerId ≠ 0)
    (isActive : ((masterAfter self events).registry slot).state = .active) :
    HandshakeCompleted self events slot := by
  have history : RegistryHistory self events (masterAfter self events) :=
    history_invariant (masterNext self) (RegistryHistory self)
      (by
        intro slot used
        exact absurd rfl used)
      (fun initial event holds guard =>
        registryHistory_step holds guard)
      guarded
  simpa only [EntryHistory, isActive] using history slot used

/-- An `AUTH_HELLO` and the matching `CAP_ACK` are such a run. -/
theorem active_handshakeCompleted_exampleRun :
    HandshakeCompleted exampleMaster [exampleHello 7 0, exampleCapAck 7 1] 0 := by
  have reached :
      masterAfter exampleMaster [exampleHello 7 0, exampleCapAck 7 1] =
        exampleActivated :=
    masterAfter_activeRun
  refine active_handshakeCompleted exampleMaster
    [exampleHello 7 0, exampleCapAck 7 1] ⟨⟨?_, ?_⟩, ⟨?_, ?_⟩, trivial⟩
    0 ?_ ?_
  · intro now isExpire
    cases isExpire
  · rintro _ _ _ _ ⟨_, _, sameEvent, _⟩
    cases sameEvent
    exact ⟨by decide, by decide⟩
  · intro now isExpire
    cases isExpire
  · rintro _ _ _ _ ⟨_, _, sameEvent, _, isHello, _⟩
    cases sameEvent
    exact absurd isHello (by decide)
  · rw [reached]
    decide
  · rw [reached]
    decide

theorem HandshakeCompleted.exists_capAck (completed : HandshakeCompleted self events slot) :
    ∃ msg src now entropy,
      MasterEvent.call msg src now entropy ∈ events ∧ msg.proc = procCapAck := by
  obtain ⟨before, hello, since, _, _, _, ⟨split, _⟩, _,
    between, ack, later, at_, sinceSplit, msg, src, entropy, isCall,
    _, isAck, _⟩ := completed
  refine ⟨msg, src, at_, entropy, ?_, isAck⟩
  rw [split, sinceSplit, ← isCall]
  simp

/-- A worker registers, is aged while still `PENDING`, and sends a
heartbeat. -/
def revivalRun : List MasterEvent :=
  [exampleHello 7 0, .expire 500, .call (heartbeatMsg 2 7) (exampleWorker 7).addr 500 []]

/-- The run makes a worker active that never sent a `CAP_ACK`. -/
theorem revivalRun_active_without_handshake :
    (revivalRun.map MasterEvent.clock).Pairwise (· ≤ ·) ∧
      ((masterAfter exampleMaster revivalRun).registry 0).info.workerId = 7 ∧
      ((masterAfter exampleMaster revivalRun).registry 0).state = .active ∧
      ¬ HandshakeCompleted exampleMaster revivalRun 0 := by
  refine ⟨by decide, ?_, ?_, ?_⟩
  · simp only [masterAfter, revivalRun, after_cons, after_nil, masterNext_init_exampleHello]
    decide
  · simp only [masterAfter, revivalRun, after_cons, after_nil, masterNext_init_exampleHello]
    decide
  · intro completed
    obtain ⟨msg, src, now, entropy, member, isAck⟩ := completed.exists_capAck
    have noAck :
        ∀ msg src now entropy,
          MasterEvent.call msg src now entropy ∈ revivalRun → msg.proc ≠ procCapAck := by
      intro msg src now entropy member
      simp only [revivalRun, exampleHello, List.mem_cons, MasterEvent.call.injEq, List.not_mem_nil,
        or_false, reduceCtorEq, false_or] at member
      rcases member with ⟨rfl, _⟩ | ⟨rfl, _⟩
      · decide
      · decide
    exact noAck msg src now entropy member isAck

end LlmRuntime.Discovery
