import LlmRuntime.Discovery.Lookup
import LlmRuntime.Discovery.Worker

/-!
# A call processed twice

`rpc_call` retransmits, so the master may process one datagram twice in a row.
-/

namespace LlmRuntime.Discovery

open Bytes Function

/-- The second processing of a call sends the replies of the first one and
changes no entry any more. -/
def Repeats (first second : Master × List Outgoing) : Prop :=
  repliesOf second.2 = repliesOf first.2 ∧ second.1.registry = first.1.registry

section Handlers

variable {self : RpcAddr} {master later : Master} {msg : RpcMsg} {src : RpcAddr} {now : UInt32}

@[simp]
theorem heartbeatEntry_idempotent (entry : WorkerEntry) (now : UInt32) :
    heartbeatEntry (heartbeatEntry entry now) now = heartbeatEntry entry now := by
  unfold heartbeatEntry
  by_cases suspected : entry.state = .suspected <;> simp [suspected]

theorem heartbeatEntry_expired_iff (entry : WorkerEntry) (now : UInt32) :
    (heartbeatEntry entry now).state = .expired ↔ entry.state = .expired := by
  unfold heartbeatEntry
  by_cases suspected : entry.state = .suspected <;> simp [suspected]

theorem handleHeartbeat_repeats
    (reached : later.registry = (handleHeartbeat master msg src now).1.registry) :
    Repeats (handleHeartbeat master msg src now) (handleHeartbeat later msg src now) := by
  by_cases short : msg.payload.length < 4
  · simp only [handleHeartbeat, if_pos short, Master.countMalformed_registry] at reached ⊢
    exact ⟨rfl, reached⟩
  · cases found : registryFind master.registry (readLeWord msg.payload).1 with
    | none =>
      simp only [handleHeartbeat, if_neg short, found] at reached ⊢
      rw [reached, found]
      exact ⟨rfl, reached⟩
    | some slot =>
      simp only [handleHeartbeat, if_neg short, found, Master.setEntry_registry] at reached ⊢
      have foundAgain : registryFind later.registry (readLeWord msg.payload).1 = some slot := by
        rw [reached, ← found]
        apply registryFind_congr
        apply update_sameInfo
        rfl
      rw [foundAgain]
      refine ⟨?_, ?_⟩
      · simp only [reached, update_self, heartbeatEntry_expired_iff]
      · simp only [reached, Master.setEntry_registry, update_self,
          heartbeatEntry_idempotent, update_idem]

/-- Once accepted, the same `CAP_ACK` meets an entry that is not `PENDING`. -/
theorem handleCapAck_second {slot : Slot} (accepts : AcceptsAck master.registry msg src slot)
    (reached : later.registry = (activate self master.registry slot now).2.1) :
    handleCapAck self later msg src now = (later, answer src msg .systemErr) := by
  obtain ⟨long, found, _, _⟩ := accepts
  have foundAgain : registryFindIpPort later.registry src = some slot := by
    rw [reached, ← found]
    apply registryFindIpPort_congr
    intro other
    exact (activate_frame self master.registry slot now other).1
  have isActive : (later.registry slot).state = .active := by
    rw [reached, activate_state, if_pos rfl]
  simp [handleCapAck, Nat.not_lt.mpr long, foundAgain, isActive]

theorem handleCapAck_sent_congr (self : RpcAddr) {left right : Master}
    (sameRegistry : left.registry = right.registry) (msg : RpcMsg) (src : RpcAddr) (now : UInt32) :
    (handleCapAck self left msg src now).2 = (handleCapAck self right msg src now).2 := by
  unfold handleCapAck
  rw [sameRegistry]
  split
  · rfl
  · split
    · rfl
    · dsimp only
      split_ifs <;> rfl

theorem handleCapAck_repeats_iff
    (reached : later.registry = (handleCapAck self master msg src now).1.registry) :
    Repeats (handleCapAck self master msg src now)
        (handleCapAck self later msg src now) ↔
      ∀ slot, ¬ AcceptsAck master.registry msg src slot := by
  constructor
  · rintro ⟨sameReplies, _⟩ slot accepts
    rw [handleCapAck_eq self now accepts] at reached sameReplies
    rw [handleCapAck_second accepts reached] at sameReplies
    -- the first pass answered SUCCESS, the second SYSTEM_ERR
    have sentNothing := activate_sent_repliesOf self master.registry slot now
    rw [repliesOf_append, sentNothing, repliesOf_reply] at sameReplies
    simp [answer] at sameReplies
  · intro never
    have unchanged := (handleCapAck_refused self now never).1
    have sameRegistry : later.registry = master.registry := reached.trans unchanged
    have sameSent :
        (handleCapAck self later msg src now).2 = (handleCapAck self master msg src now).2 :=
      handleCapAck_sent_congr self sameRegistry msg src now
    rw [← sameRegistry] at never
    have unchangedAgain := (handleCapAck_refused self now never).1
    refine ⟨congrArg repliesOf sameSent, ?_⟩
    rw [unchangedAgain, unchanged, sameRegistry]

def AcceptsHello (registry : Registry) (msg : RpcMsg) (slot : Slot) : Prop :=
  WorkerInfo.size ≤ msg.payload.length ∧
    (WorkerInfo.decode msg.payload).pskHash = pskCommitment ∧
    helloTarget registry (WorkerInfo.decode msg.payload).workerId = .take slot

/-- An `AUTH_HELLO` that rewrites no slot is answered from the registry
alone. -/
theorem handleAuthHello_repeats_of_kept {firstEntropy secondEntropy : Entropy}
    (kept : ∀ slot, ¬ AcceptsHello master.registry msg slot)
    (reached : later.registry = (handleAuthHello master msg src now firstEntropy).1.registry) :
    Repeats (handleAuthHello master msg src now firstEntropy)
      (handleAuthHello later msg src now secondEntropy) := by
  by_cases short : msg.payload.length < WorkerInfo.size
  · simp only [handleAuthHello, if_pos short, Master.countMalformed_registry] at reached ⊢
    exact ⟨rfl, reached⟩
  · by_cases rightPsk : (WorkerInfo.decode msg.payload).pskHash = pskCommitment
    · simp only [handleAuthHello, if_neg short, rightPsk, ne_eq,
        not_true_eq_false, if_false] at reached ⊢
      cases target : helloTarget master.registry (WorkerInfo.decode msg.payload).workerId with
      | duplicate | full =>
        rw [target] at reached
        dsimp only at reached
        rw [reached, target]
        exact ⟨rfl, reached⟩
      | take slot => exact absurd ⟨Nat.not_lt.mp short, rightPsk, target⟩ (kept slot)
    · simp only [handleAuthHello, if_neg short, rightPsk, ne_eq,
        not_false_eq_true, if_true] at reached ⊢
      exact ⟨rfl, reached⟩

/-- The second pass of an `AUTH_HELLO` that rewrote a slot finds the entry it
left there and sends the probe stored in it. -/
theorem handleAuthHello_second {slot : Slot} (accepts : AcceptsHello master.registry msg slot)
    {entry : WorkerEntry} (rightId : entry.info.workerId = (WorkerInfo.decode msg.payload).workerId)
    (isPending : entry.state = .pending)
    (reached : later.registry = update master.registry slot entry) (entropy : Entropy) :
    handleAuthHello later msg src now entropy =
      (later, [.reply src msg.xid .success (storedProbe entry).encode]) := by
  obtain ⟨long, rightPsk, target⟩ := accepts
  have duplicate :
      helloTarget later.registry (WorkerInfo.decode msg.payload).workerId = .duplicate slot := by
    rw [reached]
    exact helloTarget_update_taken target rightId isPending
  simp only [handleAuthHello, Nat.not_lt.mpr long, rightPsk, duplicate,
    ne_eq, not_true_eq_false, if_false]
  rw [reached, update_self]

theorem handleAuthHello_repeats_iff {firstEntropy secondEntropy : Entropy}
    (reached : later.registry = (handleAuthHello master msg src now firstEntropy).1.registry) :
    Repeats (handleAuthHello master msg src now firstEntropy)
        (handleAuthHello later msg src now secondEntropy) ↔
      ∀ slot, AcceptsHello master.registry msg slot → ChallengeDrawn firstEntropy := by
  by_cases taken : ∃ slot, AcceptsHello master.registry msg slot
  · obtain ⟨slot, accepts⟩ := taken
    obtain ⟨long, rightPsk, target⟩ := id accepts
    have first :
        handleAuthHello master msg src now firstEntropy =
          issueProbe master slot (WorkerInfo.decode msg.payload) msg src now firstEntropy := by
      simp only [handleAuthHello, Nat.not_lt.mpr long, rightPsk, target,
        ne_eq, not_true_eq_false, if_false]
    rw [first] at reached ⊢
    by_cases drawn : ChallengeDrawn firstEntropy
    · have notDry :
          ¬ ((drawProbe firstEntropy).1 = 0 ∨ (drawProbe firstEntropy).2 = 0) :=
        not_or.mpr drawn
      simp only [issueProbe, if_neg notDry, Master.setEntry_registry] at reached ⊢
      rw [handleAuthHello_second accepts rfl rfl reached secondEntropy]
      exact ⟨fun _ _ _ => drawn, fun _ => ⟨rfl, reached⟩⟩
    · have dry :
          (drawProbe firstEntropy).1 = 0 ∨ (drawProbe firstEntropy).2 = 0 := by
        by_contra notDry
        exact drawn (not_or.mp notDry)
      simp only [issueProbe, if_pos dry, Master.setEntry_registry] at reached ⊢
      rw [handleAuthHello_second accepts rfl rfl reached secondEntropy]
      -- the first pass answered SYSTEM_ERR, the second SUCCESS
      constructor
      · rintro ⟨sameReplies, _⟩
        simp [answer] at sameReplies
      · intro everyDrawn
        exact absurd (everyDrawn slot accepts) drawn
  · have kept : ∀ slot, ¬ AcceptsHello master.registry msg slot := not_exists.mp taken
    constructor
    · intro _ slot accepts
      exact absurd accepts (kept slot)
    · intro _
      exact handleAuthHello_repeats_of_kept kept reached

end Handlers

section Dispatcher

variable {self : RpcAddr} {master later : Master} {msg : RpcMsg}
  {src : RpcAddr} {now : UInt32} {entropy : Entropy}

theorem helloTakes_call_iff {slot : Slot} {info : WorkerInfo} :
    HelloTakes master (.call msg src now entropy) slot info now entropy ↔
      Admitted master msg src now ∧ msg.proc = procAuthHello ∧
        WorkerInfo.decode msg.payload = info ∧
        AcceptsHello master.registry msg slot := by
  constructor
  · rintro ⟨_, _, sameEvent, admitted, isHello, long, rfl, rightPsk, target⟩
    cases sameEvent
    exact ⟨admitted, isHello, rfl, long, rightPsk, target⟩
  · rintro ⟨admitted, isHello, rfl, long, rightPsk, target⟩
    exact ⟨msg, src, rfl, admitted, isHello, long, rfl, rightPsk, target⟩

theorem ackAccepted_call_iff {slot : Slot} {ack : CapAck} :
    AckAccepted master (.call msg src now entropy) slot ack now ↔
      Admitted master msg src now ∧ msg.proc = procCapAck ∧
        CapAck.decode msg.payload = ack ∧
        AcceptsAck master.registry msg src slot := by
  constructor
  · rintro ⟨⟨_, _, _, sameEvent, admitted, isAck, long, rfl, found⟩, isPending, answers⟩
    cases sameEvent
    exact ⟨admitted, isAck, rfl, long, found, isPending, answers⟩
  · rintro ⟨admitted, isAck, rfl, long, found, isPending, answers⟩
    exact ⟨⟨msg, src, entropy, rfl, admitted, isAck, long, rfl, found⟩, isPending, answers⟩

theorem dispatchCall_repeats_iff {secondEntropy : Entropy}
    (reached : later.registry = (dispatchCall self master msg src now entropy).1.registry) :
    Repeats (dispatchCall self master msg src now entropy)
        (dispatchCall self later msg src now secondEntropy) ↔
      (msg.proc = procAuthHello →
        ∀ slot, AcceptsHello master.registry msg slot → ChallengeDrawn entropy) ∧
      (msg.proc = procCapAck → ∀ slot, ¬ AcceptsAck master.registry msg src slot) := by
  have helloNotAck : procAuthHello ≠ procCapAck := by decide
  have beatNotHello : procHeartbeat ≠ procAuthHello := by decide
  have beatNotAck : procHeartbeat ≠ procCapAck := by decide
  have ackNotHello : procCapAck ≠ procAuthHello := by decide
  have ackNotBeat : procCapAck ≠ procHeartbeat := by decide
  unfold dispatchCall at reached ⊢
  by_cases isHello : msg.proc = procAuthHello
  · simp only [isHello, if_true, helloNotAck, true_implies, false_implies, and_true] at reached ⊢
    exact handleAuthHello_repeats_iff reached
  · by_cases isBeat : msg.proc = procHeartbeat
    · simp only [isBeat, beatNotHello, if_false, if_true, beatNotAck,
        false_implies, and_true, iff_true] at reached ⊢
      exact handleHeartbeat_repeats reached
    · by_cases isAck : msg.proc = procCapAck
      · simp only [isAck, ackNotHello, ackNotBeat, if_false, if_true,
          true_implies, false_implies, true_and] at reached ⊢
        exact handleCapAck_repeats_iff reached
      · simp only [isHello, isBeat, isAck, if_false, false_implies, and_true, iff_true] at reached ⊢
        exact ⟨rfl, reached⟩

end Dispatcher

/-- A retransmitted call repeats itself exactly when the first pass neither
accepts a `CAP_ACK` nor rewrites a slot for an `AUTH_HELLO` without drawing its
challenge. -/
theorem retransmission_repeats_iff (self : RpcAddr) (master : Master) (msg : RpcMsg) (src : RpcAddr)
    (now : UInt32) (firstEntropy secondEntropy : Entropy) (isCall : msg.mtype = .call)
    (firstAllowed : (discRlAllow master.discRl src now).2 = true) (secondAllowed : (discRlAllow
        (discoveryHandleCall self master msg src now firstEntropy).1.discRl
        src now).2 = true) :
    Repeats (discoveryHandleCall self master msg src now firstEntropy)
        (discoveryHandleCall self
          (discoveryHandleCall self master msg src now firstEntropy).1
          msg src now secondEntropy) ↔
      (∀ slot info,
        HelloTakes master (.call msg src now firstEntropy) slot info now
            firstEntropy →
          ChallengeDrawn firstEntropy) ∧
      ∀ slot ack, ¬ AckAccepted master (.call msg src now firstEntropy) slot ack now := by
  simp only [helloTakes_call_iff, ackAccepted_call_iff]
  generalize once :
    discoveryHandleCall self master msg src now firstEntropy = first at secondAllowed ⊢
  by_cases rightProgram : msg.prog = inferenceProg ∧ msg.vers = inferenceVers
  · have admitted : Admitted master msg src now := ⟨isCall, firstAllowed, rightProgram⟩
    have admittedAgain : Admitted first.1 msg src now := ⟨isCall, secondAllowed, rightProgram⟩
    rw [discoveryHandleCall_of_admitted admitted] at once
    rw [discoveryHandleCall_of_admitted admittedAgain, ← once]
    refine (dispatchCall_repeats_iff ?_).trans ?_
    · rfl
    constructor
    · rintro ⟨drawn, noAck⟩
      refine ⟨?_, ?_⟩
      · rintro slot info ⟨_, isHello, _, accepts⟩
        exact drawn isHello slot accepts
      · rintro slot ack ⟨_, isAck, _, accepts⟩
        exact noAck isAck slot accepts
    · rintro ⟨drawn, noAck⟩
      refine ⟨?_, ?_⟩
      · intro isHello slot accepts
        exact drawn slot _ ⟨admitted, isHello, rfl, accepts⟩
      · intro isAck slot accepts
        exact noAck slot _ ⟨admitted, isAck, rfl, accepts⟩
  · have refused : ∀ state, ¬ Admitted state msg src now :=
      fun _ admitted => rightProgram admitted.2.2
    have wrongProgram : msg.prog ≠ inferenceProg ∨ msg.vers ≠ inferenceVers := by
      by_contra right
      push Not at right
      exact rightProgram right
    have repeated : Repeats first (discoveryHandleCall self first.1 msg src now secondEntropy) := by
      rw [← once] at secondAllowed ⊢
      refine ⟨?_, ?_⟩
      · simp only [discoveryHandleCall, isCall, wrongProgram, firstAllowed,
          ne_eq, not_true_eq_false, if_false, if_true] at secondAllowed ⊢
        simp only [secondAllowed, not_true_eq_false, if_false]
      · exact (discoveryHandleCall_of_not_admitted (refused _)).1
    refine ⟨fun _ => ⟨?_, ?_⟩, fun _ => repeated⟩
    · rintro slot info ⟨admitted, _⟩
      exact absurd admitted (refused master)
    · rintro slot ack ⟨admitted, _⟩
      exact refused master admitted

/-- A retransmitted `AUTH_HELLO` that drew its challenge is answered
identically. -/
theorem retransmission_repeats_exampleHello :
    Repeats
      (discoveryHandleCall exampleMaster Master.init
        (helloMsg 1 (exampleWorker 7)) (exampleWorker 7).addr 0
        [some 11, some 13])
      (discoveryHandleCall exampleMaster
        (discoveryHandleCall exampleMaster Master.init
          (helloMsg 1 (exampleWorker 7)) (exampleWorker 7).addr 0
          [some 11, some 13]).1
        (helloMsg 1 (exampleWorker 7)) (exampleWorker 7).addr 0 []) := by
  have registered :
      (discoveryHandleCall exampleMaster Master.init
        (helloMsg 1 (exampleWorker 7)) (exampleWorker 7).addr 0
        [some 11, some 13]).1 = exampleRegistered :=
    masterNext_init_exampleHello
  refine (retransmission_repeats_iff exampleMaster Master.init
    (helloMsg 1 (exampleWorker 7)) (exampleWorker 7).addr 0
    [some 11, some 13] [] rfl (by decide) ?_).mpr ⟨?_, ?_⟩
  · rw [registered]
    decide
  · intro _ _ _
    exact ⟨by decide, by decide⟩
  · rintro slot ack ⟨reaches, _⟩
    obtain ⟨_, _, _, sameEvent, _, isAck, _⟩ := reaches
    cases sameEvent
    exact absurd isAck (by decide)

/-- The `CAP_ACK` of a registered worker is answered `SUCCESS`, and its
retransmission `SYSTEM_ERR`. -/
theorem retransmitted_capAck_refused :
    (discRlAllow (masterAfter exampleMaster [exampleHello 7 0]).discRl
        (exampleWorker 7).addr 1).2 = true ∧
      (discRlAllow (discoveryHandleCall exampleMaster
          (masterAfter exampleMaster [exampleHello 7 0])
          (capAckMsg 2 exampleAnswer) (exampleWorker 7).addr 1 []).1.discRl
        (exampleWorker 7).addr 1).2 = true ∧
      ¬ Repeats
        (discoveryHandleCall exampleMaster
          (masterAfter exampleMaster [exampleHello 7 0])
          (capAckMsg 2 exampleAnswer) (exampleWorker 7).addr 1 [])
        (discoveryHandleCall exampleMaster (discoveryHandleCall exampleMaster
            (masterAfter exampleMaster [exampleHello 7 0])
            (capAckMsg 2 exampleAnswer) (exampleWorker 7).addr 1 []).1
          (capAckMsg 2 exampleAnswer) (exampleWorker 7).addr 1 []) := by
  have registered : masterAfter exampleMaster [exampleHello 7 0] = exampleRegistered :=
    masterNext_init_exampleHello
  have first :
      discoveryHandleCall exampleMaster exampleRegistered
          (capAckMsg 2 exampleAnswer) (exampleWorker 7).addr 1 [] = _ :=
    masterStep_exampleRegistered
  have second :
      (discoveryHandleCall exampleMaster exampleActivated
        (capAckMsg 2 exampleAnswer) (exampleWorker 7).addr 1 []).2 =
        answer (exampleWorker 7).addr (capAckMsg 2 exampleAnswer) .systemErr := by
    rfl
  rw [registered, first]
  refine ⟨by decide, by decide, ?_⟩
  rintro ⟨sameReplies, _⟩
  rw [second] at sameReplies
  have sentNothing := activate_sent_repliesOf exampleMaster exampleRegistered.registry 0 1
  rw [repliesOf_append, sentNothing, repliesOf_reply] at sameReplies
  simp [answer] at sameReplies

end LlmRuntime.Discovery
