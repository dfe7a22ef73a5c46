import LlmRuntime.Discovery.Registration
import LlmRuntime.Discovery.RingStitch

/-!
# The challenge behind an accepted `AUTH_HELLO`

`handle_auth_hello` answers `SUCCESS` with a challenge it has just drawn or with
the one stored for a live entry.  The entry is made live before the entropy is
drawn, so the second can be a challenge that was never drawn.
-/

namespace LlmRuntime.Discovery

open Execution Function

/-- The payload is long enough and carries the right commitment. -/
def AcceptedHello (msg : RpcMsg) : Prop :=
  WorkerInfo.size ≤ msg.payload.length ∧ (WorkerInfo.decode msg.payload).pskHash = pskCommitment

/-- The outcomes of `handle_auth_hello`: the registry it leaves and what it
sends. -/
inductive HelloOutcome (master : Master) (msg : RpcMsg) (src : RpcAddr) (now : UInt32)
    (entropy : Entropy) : Registry → List Outgoing → Prop
  | refused (bad : ¬ AcceptedHello msg) :
      HelloOutcome master msg src now entropy master.registry (answer src msg .garbageArgs)
  | full
      (accepted : AcceptedHello msg)
      (target : helloTarget master.registry (WorkerInfo.decode msg.payload).workerId = .full) :
      HelloOutcome master msg src now entropy master.registry (answer src msg .systemErr)
  | again
      {slot : Slot} (accepted : AcceptedHello msg)
      (target : helloTarget master.registry
          (WorkerInfo.decode msg.payload).workerId = .duplicate slot) :
      HelloOutcome master msg src now entropy master.registry
        [.reply src msg.xid .success (storedProbe (master.registry slot)).encode]
  | dry
      {slot : Slot} (accepted : AcceptedHello msg)
      (target : helloTarget master.registry (WorkerInfo.decode msg.payload).workerId = .take slot)
      (dry : ¬ ChallengeDrawn entropy) :
      HelloOutcome master msg src now entropy
        (update master.registry slot
          (registeredEntry (master.registry slot) (WorkerInfo.decode msg.payload) now))
        (answer src msg .systemErr)
  | challenged
      {slot : Slot} (accepted : AcceptedHello msg)
      (target : helloTarget master.registry (WorkerInfo.decode msg.payload).workerId = .take slot)
      (drawn : ChallengeDrawn entropy) :
      HelloOutcome master msg src now entropy
        (update master.registry slot
          (challengedEntry (master.registry slot)
            (WorkerInfo.decode msg.payload) now (drawProbe entropy).1
            (drawProbe entropy).2))
        [.reply src msg.xid .success (storedProbe
            (challengedEntry (master.registry slot)
              (WorkerInfo.decode msg.payload) now (drawProbe entropy).1
              (drawProbe entropy).2)).encode]

section Hello

variable (master : Master) (msg : RpcMsg) (src : RpcAddr) (now : UInt32)
variable (entropy : Entropy)

theorem handleAuthHello_outcome :
    HelloOutcome master msg src now entropy (handleAuthHello master msg src now entropy).1.registry
      (handleAuthHello master msg src now entropy).2 := by
  unfold handleAuthHello
  split_ifs with short
  · exact .refused (fun accepted => absurd short accepted.1.not_gt)
  · dsimp only
    split_ifs with wrong
    · exact .refused (fun accepted => wrong accepted.2)
    · have accepted : AcceptedHello msg := ⟨Nat.not_lt.mp short, not_not.mp wrong⟩
      cases target : helloTarget master.registry (WorkerInfo.decode msg.payload).workerId with
      | duplicate slot => exact .again accepted target
      | full => exact .full accepted target
      | take slot =>
        simp only [issueProbe]
        split_ifs with noWord
        · refine .dry accepted target ?_
          intro drawn
          exact noWord.elim drawn.1 drawn.2
        · exact .challenged accepted target (not_or.mp noWord)

end Hello

theorem helloTarget_duplicate_iff (registry : Registry) (workerId : UInt32) (slot : Slot) :
    helloTarget registry workerId = .duplicate slot ↔
      registryFind registry workerId = some slot ∧ (registry slot).state ≠ .expired := by
  unfold helloTarget
  cases found : registryFind registry workerId with
  | none =>
    cases registryFreeSlot registry with
    | none => simp
    | some free => simp
  | some existing =>
    by_cases expired : (registry existing).state = .expired
    · simp only [expired, ne_eq, not_true_eq_false, if_false,
        reduceCtorEq, Option.some.injEq, false_iff, not_and, not_not]
      intro same
      rw [← same]
      exact expired
    · simp only [expired, ne_eq, not_false_eq_true, if_true,
        HelloTarget.duplicate.injEq, Option.some.injEq]
      constructor
      · intro same
        rw [← same]
        exact ⟨rfl, expired⟩
      · intro same
        exact same.1

/-- Whatever may happen to the registry: an event of the master, or a call of
`discovery_restitch_ring` at the start of a session. -/
inductive RegistryEvent where
  | handle (event : MasterEvent)
  | restitch

def registryNext (self : RpcAddr) (master : Master) :
    RegistryEvent → Master
  | .handle event => masterNext self master event
  | .restitch =>
    { master with
      registry := (discoveryRestitchRing self master.registry).1 }

/-- The reply asks for something the master can check: its numbers were drawn,
the worker does not refuse it, and the entry of the worker's id expects the
answer to it. -/
structure RealChallenge (registry : Registry) (workerId : UInt32) (reply : AuthHelloReply) :
    Prop where
  nonce : reply.probeData ≠ 0
  seed : reply.probeSeed ≠ 0
  somePages : 1 ≤ reply.probePages
  pagesBounded : reply.probePages ≤ capProbeCeilingBytes / 4096
  runs :
    capProbeRun true reply.probeSeed reply.probePages =
      some (capProbeChecksum reply.probeSeed reply.probePages)
  expected :
    ∃ slot, registryFind registry workerId = some slot ∧
      (registry slot).capAckExpected.probeNonce = reply.probeData ∧
      (registry slot).capAckExpected.checksum = capProbeChecksum reply.probeSeed reply.probePages

/-- The first entry with this id is live and holds no challenge. -/
def LiveUnchallenged (registry : Registry) (workerId : UInt32) : Prop :=
  ∃ slot,
    (registry slot).info.workerId = workerId ∧
      (∀ earlier, earlier < slot → (registry earlier).info.workerId ≠ workerId) ∧
      (registry slot).state ≠ .expired ∧
      (registry slot).capAckExpected.probeNonce = 0

/-- An entry that holds a nonce holds the whole challenge. -/
structure ChallengeComplete (entry : WorkerEntry) : Prop where
  seedDrawn : entry.capAckExpected.probeNonce ≠ 0 → entry.probeSeed ≠ 0
  pagesAsked : entry.capAckExpected.probeNonce ≠ 0 → entry.probePages ≠ 0

theorem ChallengeComplete.of_frame {entry next : WorkerEntry} (complete : ChallengeComplete entry)
    (sameAck : next.capAckExpected = entry.capAckExpected)
    (sameSeed : next.probeSeed = entry.probeSeed) (samePages : next.probePages = entry.probePages) :
    ChallengeComplete next := by
  refine ⟨?_, ?_⟩
  · rw [sameAck, sameSeed]
    exact complete.seedDrawn
  · rw [sameAck, samePages]
    exact complete.pagesAsked

theorem challengeComplete_challenged {entropy : Entropy} (drawn : ChallengeDrawn entropy)
    (entry : WorkerEntry) (info : WorkerInfo) (now : UInt32) :
    ChallengeComplete
      (challengedEntry entry info now (drawProbe entropy).1 (drawProbe entropy).2) where
  seedDrawn := fun _ => drawn.2
  pagesAsked := fun _ => probePagesFor_ne_zero info.ram

theorem challengeComplete_update {registry : Registry}
    (complete : ∀ i, ChallengeComplete (registry i)) (slot : Slot)
    {entry : WorkerEntry} (fresh : ChallengeComplete entry) (i : Slot) :
    ChallengeComplete (update registry slot entry i) := by
  by_cases same : i = slot
  · rw [same, update_self]
    exact fresh
  · rw [update_of_ne same]
    exact complete i

theorem challengeComplete_step (self : RpcAddr) (master : Master) (event : MasterEvent)
    (complete : ∀ i, ChallengeComplete (master.registry i)) (i : Slot) :
    ChallengeComplete ((masterStep self master event).1.registry i) := by
  have effect := masterStep_registryStep self master event
  generalize (masterStep self master event).1.registry = outcome at effect ⊢
  cases effect with
  | same _ _ => exact complete i
  | @registered slot info now entropy takes dry | @refreshed slot now reaches =>
    apply challengeComplete_update complete slot
    exact (complete slot).of_frame rfl rfl rfl
  | @challenged slot info now entropy takes drawn =>
    apply challengeComplete_update complete slot
    exact challengeComplete_challenged drawn _ info now
  | @activated slot ack now accepted =>
    obtain ⟨_, ack, seed, pages⟩ := activate_frame self master.registry slot now i
    exact (complete i).of_frame ack seed pages
  | @aged now isExpire =>
    obtain ⟨_, ack, seed, pages⟩ := expireEntry_frame now (master.registry i)
    exact (complete i).of_frame ack seed pages

theorem restitched_frame (self : RpcAddr) (registry : Registry) (i : Slot) :
    ((discoveryRestitchRing self registry).1 i).info = (registry i).info ∧
      ((discoveryRestitchRing self registry).1 i).capAckExpected = (registry i).capAckExpected ∧
      ((discoveryRestitchRing self registry).1 i).probeSeed = (registry i).probeSeed ∧
      ((discoveryRestitchRing self registry).1 i).probePages = (registry i).probePages := by
  rw [restitched_onlyLinks self registry i]
  exact ⟨rfl, rfl, rfl, rfl⟩

theorem challenges_after (self : RpcAddr) (events : List RegistryEvent) :
    RegistryWellFormed
        (after (registryNext self) Master.init events).registry ∧
      ∀ i, ChallengeComplete ((after (registryNext self) Master.init events).registry i) := by
  apply invariant_after (registryNext self)
    (fun master => RegistryWellFormed master.registry ∧ ∀ i, ChallengeComplete (master.registry i))
  · refine ⟨registryWellFormed_masterAfter self [], ?_⟩
    intro i
    exact ⟨fun drawn => absurd rfl drawn, fun drawn => absurd rfl drawn⟩
  · rintro master event ⟨wellFormed, complete⟩
    cases event with
    | handle event =>
      exact ⟨registryWellFormed_step self master event wellFormed,
        challengeComplete_step self master event complete⟩
    | restitch =>
      refine ⟨wellFormed.of_frame (restitched_frame self master.registry), ?_⟩
      intro i
      obtain ⟨_, ack, seed, pages⟩ := restitched_frame self master.registry i
      exact (complete i).of_frame ack seed pages

theorem realChallenge_storedProbe {registry : Registry} {workerId : UInt32}
    {slot : Slot} (found : registryFind registry workerId = some slot)
    (checksumMatches : (registry slot).capAckExpected.checksum =
        capProbeChecksum (registry slot).probeSeed (registry slot).probePages)
    (pagesBounded : (registry slot).probePages ≤ capProbeCeilingBytes / capProbePgsize)
    (complete : ChallengeComplete (registry slot))
    (drawn : (registry slot).capAckExpected.probeNonce ≠ 0) :
    RealChallenge registry workerId (storedProbe (registry slot)) := by
  have somePages := complete.pagesAsked drawn
  exact
    { nonce := drawn
      seed := complete.seedDrawn drawn
      somePages := by
        rw [UInt32.le_iff_toNat_le]
        have positive : (registry slot).probePages.toNat ≠ 0 := by
          intro none
          exact somePages (UInt32.toNat_inj.mp none)
        exact Nat.one_le_iff_ne_zero.mpr positive
      pagesBounded := pagesBounded
      runs := capProbeRun_backed _ somePages pagesBounded
      expected := ⟨slot, found, rfl, checksumMatches⟩ }

theorem realChallenge_challenged {registry : Registry} {info : WorkerInfo}
    {slot : Slot} (target : helloTarget registry info.workerId = .take slot)
    {entropy : Entropy} (drawn : ChallengeDrawn entropy) (now : UInt32) :
    RealChallenge
      (update registry slot
        (challengedEntry (registry slot) info now (drawProbe entropy).1 (drawProbe entropy).2))
      info.workerId
      (storedProbe
        (challengedEntry (registry slot) info now (drawProbe entropy).1
          (drawProbe entropy).2)) := by
  have fresh := challengeComplete_challenged drawn (registry slot) info now
  generalize isEntry :
    challengedEntry (registry slot) info now (drawProbe entropy).1
      (drawProbe entropy).2 = entry at fresh ⊢
  have stored : update registry slot entry slot = entry := update_self slot entry registry
  have found : registryFind (update registry slot entry) info.workerId = some slot := by
    apply registryFind_update_taken target
    rw [← isEntry]
    rfl
  have checksumMatches :
      entry.capAckExpected.checksum = capProbeChecksum entry.probeSeed entry.probePages := by
    rw [← isEntry]
    rfl
  have pagesBounded : entry.probePages ≤ capProbeCeilingBytes / capProbePgsize := by
    rw [← isEntry]
    exact probePagesFor_bounded info.ram
  have nonceDrawn : entry.capAckExpected.probeNonce ≠ 0 := by
    rw [← isEntry]
    exact drawn.1
  rw [← stored] at fresh checksumMatches pagesBounded nonceDrawn
  have real := realChallenge_storedProbe found checksumMatches pagesBounded fresh nonceDrawn
  rwa [stored] at real

/-- The replies of `handle_auth_hello` that say `SUCCESS` all carry a real
challenge. -/
def SuccessReal (master : Master) (msg : RpcMsg) (src : RpcAddr) (now : UInt32)
    (entropy : Entropy) : Prop :=
  ∀ dst xid payload,
    Outgoing.reply dst xid .success payload ∈ (handleAuthHello master msg src now entropy).2 →
      RealChallenge (handleAuthHello master msg src now entropy).1.registry
        (WorkerInfo.decode msg.payload).workerId
        (AuthHelloReply.decode payload)

theorem successReal_of_single {registry : Registry} {workerId : UInt32} {reply : AuthHelloReply}
    (real : RealChallenge registry workerId reply) {src : RpcAddr} {id : UInt32} (dst : RpcAddr)
    (xid : UInt32) (payload : List UInt8) (member : Outgoing.reply dst xid .success payload ∈
        [Outgoing.reply src id .success reply.encode]) :
    RealChallenge registry workerId (AuthHelloReply.decode payload) := by
  have sameReply := List.mem_singleton.mp member
  injection sameReply with _ _ _ samePayload
  rw [samePayload, AuthHelloReply.decode_encode]
  exact real

theorem not_successReal_of_again {master : Master} {msg : RpcMsg}
    (accepted : AcceptedHello msg) (slot : Slot) (target : helloTarget master.registry
        (WorkerInfo.decode msg.payload).workerId = .duplicate slot)
    (noNonce : (master.registry slot).capAckExpected.probeNonce = 0)
    (src : RpcAddr) (now : UInt32) (entropy : Entropy) :
    ¬ SuccessReal master msg src now entropy := by
  intro real
  have sent :
      (handleAuthHello master msg src now entropy).2 =
        [.reply src msg.xid .success (storedProbe (master.registry slot)).encode] := by
    unfold handleAuthHello
    dsimp only
    rw [if_neg (Nat.not_lt.mpr accepted.1), if_neg (not_not.mpr accepted.2), target]
  have challenge := real src msg.xid _ (sent ▸ List.mem_singleton.mpr rfl)
  rw [AuthHelloReply.decode_encode] at challenge
  exact challenge.nonce noNonce

/-- In every reachable state, an `AUTH_HELLO` answered `SUCCESS` gets a real
challenge exactly when it is not the duplicate of a live entry without one. -/
theorem hello_success_real_iff (self : RpcAddr) (events : List RegistryEvent)
    (msg : RpcMsg) (src : RpcAddr) (now : UInt32) (entropy : Entropy) :
    SuccessReal (after (registryNext self) Master.init events) msg src now
        entropy ↔
      (AcceptedHello msg →
        ¬ LiveUnchallenged (after (registryNext self) Master.init events).registry
          (WorkerInfo.decode msg.payload).workerId) := by
  obtain ⟨wellFormed, complete⟩ := challenges_after self events
  generalize after (registryNext self) Master.init events = master at wellFormed complete ⊢
  constructor
  · rintro real accepted ⟨slot, rightId, first, live, noNonce⟩
    have target :=
      (helloTarget_duplicate_iff master.registry _ slot).mpr
        ⟨(registryFind_eq_some_iff master.registry _ slot).mpr ⟨rightId, first⟩, live⟩
    exact not_successReal_of_again accepted slot target noNonce src now entropy real
  · intro challenged
    have outcome := handleAuthHello_outcome master msg src now entropy
    unfold SuccessReal
    generalize (handleAuthHello master msg src now entropy).1.registry = next at outcome ⊢
    generalize (handleAuthHello master msg src now entropy).2 = sent at outcome ⊢
    cases outcome with
    | refused | full | dry => simp [answer]
    | @again slot accepted target =>
      obtain ⟨found, live⟩ := (helloTarget_duplicate_iff master.registry _ slot).mp target
      obtain ⟨rightId, first⟩ := (registryFind_eq_some_iff master.registry _ slot).mp found
      have drawn : (master.registry slot).capAckExpected.probeNonce ≠ 0 := by
        intro noNonce
        exact challenged accepted ⟨slot, rightId, first, live, noNonce⟩
      exact successReal_of_single
        (realChallenge_storedProbe found (wellFormed.checksumMatches slot)
          (wellFormed.pagesBounded slot) (complete slot) drawn)
    | @challenged slot accepted target drawn =>
      exact successReal_of_single (realChallenge_challenged target drawn now)

theorem acceptedHello_helloMsg (xid : UInt32) {info : WorkerInfo}
    (rightPsk : info.pskHash = pskCommitment) :
    AcceptedHello (helloMsg xid info) := by
  refine ⟨?_, ?_⟩
  · simp [helloMsg, rpcFillCall]
  · rw [helloMsg, rpcFillCall, WorkerInfo.decode_encode]
    exact rightPsk

/-- An `AUTH_HELLO` of worker 7 at a moment when `getentropy` fails. -/
def dryHello : MasterEvent := .call (helloMsg 1 (exampleWorker 7)) (exampleWorker 7).addr 0 [none]

theorem masterNext_init_dryHello :
    (masterNext exampleMaster Master.init dryHello).registry =
      update Master.init.registry 0 (registeredEntry WorkerEntry.empty (exampleWorker 7) 0) := by
  have allowed : (discRlAllow Master.init.discRl (exampleWorker 7).addr 0).2 = true := by decide
  have step := masterStep_hello exampleMaster 1 [none] allowed (exampleWorker 7) rfl
  have target : helloTarget Master.init.registry (exampleWorker 7).workerId = .take 0 := by decide
  rw [target] at step
  rw [masterNext, dryHello, step]
  rfl

/-- The very first `AUTH_HELLO`, from worker id 0, and the retransmission of one
that was refused for lack of entropy are answered with nonce 0. -/
theorem success_without_challenge :
    ¬ SuccessReal (after (registryNext exampleMaster) Master.init [])
        (helloMsg 1 (exampleWorker 0)) (exampleWorker 0).addr 0
        [some 11, some 13] ∧
      ¬ SuccessReal (after (registryNext exampleMaster) Master.init [.handle dryHello])
        (helloMsg 2 (exampleWorker 7)) (exampleWorker 7).addr 1
        [some 11, some 13] := by
  constructor
  · apply not_successReal_of_again (acceptedHello_helloMsg 1 rfl) 0
    · rw [helloMsg, rpcFillCall, WorkerInfo.decode_encode]
      decide
    · rfl
  · have registered :
        (after (registryNext exampleMaster) Master.init
          [.handle dryHello]).registry =
          update Master.init.registry 0
            (registeredEntry WorkerEntry.empty (exampleWorker 7) 0) := by
      rw [after_cons, after_nil, registryNext, masterNext_init_dryHello]
    have target : helloTarget Master.init.registry (exampleWorker 7).workerId = .take 0 := by decide
    have again :
        helloTarget
          (update Master.init.registry 0 (registeredEntry WorkerEntry.empty (exampleWorker 7) 0))
          (exampleWorker 7).workerId = .duplicate 0 :=
      helloTarget_update_taken target rfl rfl
    apply not_successReal_of_again (acceptedHello_helloMsg 2 rfl) 0
    · rw [helloMsg, rpcFillCall, WorkerInfo.decode_encode, registered]
      exact again
    · rw [registered, update_self]
      rfl

/-! ## The trace of a refusal -/

/-- No reply says `SUCCESS`. -/
def HelloRefused (master : Master) (msg : RpcMsg) (src : RpcAddr) (now : UInt32)
    (entropy : Entropy) : Prop :=
  ∀ dst xid payload,
    Outgoing.reply dst xid .success payload ∉ (handleAuthHello master msg src now entropy).2

def LeavesNoTrace (master : Master) (msg : RpcMsg) (src : RpcAddr) (now : UInt32)
    (entropy : Entropy) : Prop :=
  HelloRefused master msg src now entropy →
    (handleAuthHello master msg src now entropy).1.registry = master.registry

/-- A slot is chosen for the worker, and the entropy source then fails. -/
def DryTake (master : Master) (msg : RpcMsg) (entropy : Entropy) (slot : Slot) : Prop :=
  AcceptedHello msg ∧
    helloTarget master.registry (WorkerInfo.decode msg.payload).workerId = .take slot ∧
    ¬ ChallengeDrawn entropy

/-- Registering a worker in the slot chosen for it changes the entry: the slot
was expired, or held another id. -/
theorem registeredEntry_ne {registry : Registry} {info : WorkerInfo} {slot : Slot}
    (target : helloTarget registry info.workerId = .take slot) (now : UInt32) :
    registeredEntry (registry slot) info now ≠ registry slot := by
  intro same
  rcases helloTarget_take target with ⟨_, expired⟩ | ⟨absent, free⟩
  · have pending : WorkerState.pending = (registry slot).state := congrArg WorkerEntry.state same
    rw [expired] at pending
    exact WorkerState.noConfusion pending
  · have sameInfo : info = (registry slot).info := congrArg WorkerEntry.info same
    apply (registryFind_eq_none_iff registry info.workerId).mp absent slot
    rw [← sameInfo]

/-- A refused `AUTH_HELLO` leaves the registry as it was, unless the entropy
failed after a slot was chosen; then that slot is `PENDING` for the worker, with
the challenge and the neighbours that it had, and all others are as they were. -/
theorem refused_hello_trace (master : Master) (msg : RpcMsg) (src : RpcAddr)
    (now : UInt32) (entropy : Entropy) :
    (LeavesNoTrace master msg src now entropy ↔ ∀ slot, ¬ DryTake master msg entropy slot) ∧
      ∀ slot, DryTake master msg entropy slot →
        HelloRefused master msg src now entropy ∧
          (handleAuthHello master msg src now entropy).1.registry =
            update master.registry slot
              (registeredEntry (master.registry slot) (WorkerInfo.decode msg.payload) now) := by
  have outcome := handleAuthHello_outcome master msg src now entropy
  unfold LeavesNoTrace HelloRefused
  generalize (handleAuthHello master msg src now entropy).1.registry = next at outcome ⊢
  generalize (handleAuthHello master msg src now entropy).2 = sent at outcome ⊢
  cases outcome with
  | refused bad =>
    have notDry : ∀ slot, ¬ DryTake master msg entropy slot := fun slot dry => bad dry.1
    exact ⟨⟨fun _ => notDry, fun _ _ => rfl⟩, fun slot dry => absurd dry (notDry slot)⟩
  | full accepted target | @again slot accepted target =>
    have notDry : ∀ slot, ¬ DryTake master msg entropy slot := by
      intro slot dry
      exact HelloTarget.noConfusion (target.symm.trans dry.2.1)
    exact ⟨⟨fun _ => notDry, fun _ _ => rfl⟩, fun slot dry => absurd dry (notDry slot)⟩
  | @challenged slot accepted target drawn =>
    have notDry : ∀ slot, ¬ DryTake master msg entropy slot := fun slot dry => dry.2.2 drawn
    refine ⟨⟨fun _ => notDry, ?_⟩, fun slot dry => absurd dry (notDry slot)⟩
    intro _ refused
    exact absurd (List.mem_singleton.mpr rfl) (refused src msg.xid _)
  | @dry slot accepted target noWord =>
    have isRefused :
        ∀ dst xid payload, Outgoing.reply dst xid .success payload ∉ answer src msg .systemErr := by
      simp [answer]
    have changed :
        update master.registry slot
            (registeredEntry (master.registry slot) (WorkerInfo.decode msg.payload) now) ≠
          master.registry := by
      intro same
      apply registeredEntry_ne target now
      have atSlot := congrFun same slot
      rwa [update_self] at atSlot
    refine ⟨⟨?_, ?_⟩, ?_⟩
    · intro noTrace
      exact absurd (noTrace isRefused) changed
    · intro notDry
      exact absurd ⟨accepted, target, noWord⟩ (notDry slot)
    · intro other dry
      have sameSlot : slot = other := HelloTarget.take.inj (target.symm.trans dry.2.1)
      rw [← sameSlot]
      exact ⟨isRefused, rfl⟩

/-- The first `AUTH_HELLO` of worker 7 is refused for lack of entropy, and slot
0 is left pending for it, against a challenge that was never issued. -/
theorem refused_hello_leaves_pending :
    HelloRefused Master.init (helloMsg 1 (exampleWorker 7))
        (exampleWorker 7).addr 0 [none] ∧
      ¬ LeavesNoTrace Master.init (helloMsg 1 (exampleWorker 7))
        (exampleWorker 7).addr 0 [none] := by
  have result :
      handleAuthHello Master.init (helloMsg 1 (exampleWorker 7)) (exampleWorker 7).addr 0 [none] =
        (Master.init.setEntry 0
            (registeredEntry WorkerEntry.empty (exampleWorker 7) 0),
          answer (exampleWorker 7).addr (helloMsg 1 (exampleWorker 7)) .systemErr) := by
    have accepted : AcceptedHello (helloMsg 1 (exampleWorker 7)) := acceptedHello_helloMsg 1 rfl
    have decoded : WorkerInfo.decode (helloMsg 1 (exampleWorker 7)).payload = exampleWorker 7 :=
      WorkerInfo.decode_encode _
    have target : helloTarget Master.init.registry (exampleWorker 7).workerId = .take 0 := by decide
    unfold handleAuthHello
    dsimp only
    rw [if_neg (Nat.not_lt.mpr accepted.1), if_neg (not_not.mpr accepted.2), decoded, target]
    rfl
  have isRefused :
      HelloRefused Master.init (helloMsg 1 (exampleWorker 7)) (exampleWorker 7).addr 0 [none] := by
    unfold HelloRefused
    rw [result]
    simp [answer]
  refine ⟨isRefused, ?_⟩
  intro noTrace
  have same := congrFun (noTrace isRefused) 0
  rw [result, Master.setEntry_registry, update_self] at same
  have sameId : (7 : UInt32) = 0 := congrArg (fun entry => entry.info.workerId) same
  exact absurd sameId (by decide)

end LlmRuntime.Discovery
