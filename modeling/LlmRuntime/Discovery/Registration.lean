import LlmRuntime.Discovery.Lookup
import LlmRuntime.Discovery.Worker

/-!
# Registering from any reachable registry

A worker registers with one `AUTH_HELLO` and one `CAP_ACK`.  The duplicate path
answers in every state but `EXPIRED`, while the `CAP_ACK` is accepted in
`PENDING` only.
-/

namespace LlmRuntime.Discovery

open Bytes Execution Function

/-- The facts about the stored challenges and ids that every event keeps. -/
structure RegistryWellFormed (registry : Registry) : Prop where
  checksumMatches :
    ∀ slot,
      (registry slot).capAckExpected.checksum =
        capProbeChecksum (registry slot).probeSeed (registry slot).probePages
  pagesBounded : ∀ slot, (registry slot).probePages ≤ capProbeCeilingBytes / capProbePgsize
  idsUnique :
    ∀ left right,
      (registry left).info.workerId ≠ 0 →
      (registry left).info.workerId = (registry right).info.workerId →
      left = right

theorem probePagesFor_bounded (ram : UInt32) :
    probePagesFor ram ≤ capProbeCeilingBytes / capProbePgsize := by
  have ceiling : capProbeCeilingBytes / capProbePgsize = 8192 := by decide
  have ceilingBytes : capProbeCeilingBytes = 33554432 := by decide
  unfold probePagesFor
  dsimp only
  split_ifs with small noPages
  · decide
  · rw [ceilingBytes, UInt32.lt_iff_toNat_lt] at small
    rw [ceiling, UInt32.le_iff_toNat_le]
    simp only [capProbePgsize, UInt32.toNat_div, UInt32.reduceToNat] at small ⊢
    omega
  · decide
  · exact UInt32.le_refl _

theorem probePagesFor_ne_zero (ram : UInt32) : probePagesFor ram ≠ 0 := by
  unfold probePagesFor
  dsimp only
  split_ifs with small noPages noCeiling
  · decide
  · exact noPages
  · decide
  · exact noCeiling

/-- Rewriting an entry keeps the registry well formed when the new entry's
challenge fits and its id is found nowhere else. -/
theorem RegistryWellFormed.update {registry : Registry} (wellFormed : RegistryWellFormed registry)
    {slot : Slot} {entry : WorkerEntry}
    (checksum : entry.capAckExpected.checksum = capProbeChecksum entry.probeSeed entry.probePages)
    (bounded : entry.probePages ≤ capProbeCeilingBytes / capProbePgsize)
    (fresh : entry.info.workerId ≠ 0 → ∀ other,
        (registry other).info.workerId = entry.info.workerId → other = slot) :
    RegistryWellFormed (update registry slot entry) := by
  refine ⟨?_, ?_, ?_⟩
  · intro other
    by_cases same : other = slot
    · subst same
      simpa only [update_self] using checksum
    · simpa only [update_of_ne same] using wellFormed.checksumMatches other
  · intro other
    by_cases same : other = slot
    · subst same
      simpa only [update_self] using bounded
    · simpa only [update_of_ne same] using wellFormed.pagesBounded other
  · intro left right used sameId
    by_cases leftSlot : left = slot
    · by_cases rightSlot : right = slot
      · rw [leftSlot, rightSlot]
      · subst leftSlot
        rw [update_self] at used sameId
        rw [update_of_ne rightSlot] at sameId
        exact absurd (fresh used right sameId.symm) rightSlot
    · rw [update_of_ne leftSlot] at used sameId
      by_cases rightSlot : right = slot
      · subst rightSlot
        rw [update_self] at sameId
        exact absurd (fresh (sameId ▸ used) left sameId) leftSlot
      · rw [update_of_ne rightSlot] at sameId
        exact wellFormed.idsUnique left right used sameId

theorem RegistryWellFormed.of_frame
    {registry next : Registry} (wellFormed : RegistryWellFormed registry)
    (frame : ∀ slot, (next slot).info = (registry slot).info ∧
          (next slot).capAckExpected = (registry slot).capAckExpected ∧
          (next slot).probeSeed = (registry slot).probeSeed ∧
          (next slot).probePages = (registry slot).probePages) :
    RegistryWellFormed next := by
  refine ⟨?_, ?_, ?_⟩
  · intro slot
    obtain ⟨_, challenge, seed, pages⟩ := frame slot
    rw [challenge, seed, pages]
    exact wellFormed.checksumMatches slot
  · intro slot
    obtain ⟨_, _, _, pages⟩ := frame slot
    rw [pages]
    exact wellFormed.pagesBounded slot
  · intro left right
    rw [(frame left).1, (frame right).1]
    exact wellFormed.idsUnique left right

/-- The slot an `AUTH_HELLO` takes is the only one that can hold its id. -/
theorem HelloTakes.only_slot {master : Master} {event : MasterEvent} {slot : Slot}
    {info : WorkerInfo} {now : UInt32} {entropy : Entropy}
    (takes : HelloTakes master event slot info now entropy)
    (wellFormed : RegistryWellFormed master.registry) (used : info.workerId ≠ 0) (other : Slot)
    (sameId : (master.registry other).info.workerId = info.workerId) :
    other = slot := by
  obtain ⟨_, _, _, _, _, _, _, _, target⟩ := takes
  rcases helloTarget_take target with ⟨found, _⟩ | ⟨absent, _⟩
  · have slotId := ((registryFind_eq_some_iff _ _ slot).mp found).1
    exact wellFormed.idsUnique other slot (sameId ▸ used) (sameId.trans slotId.symm)
  · exact absurd sameId ((registryFind_eq_none_iff _ _).mp absent other)

theorem registryWellFormed_step (self : RpcAddr) (master : Master)
    (event : MasterEvent) (wellFormed : RegistryWellFormed master.registry) :
    RegistryWellFormed (masterStep self master event).1.registry := by
  have effect := masterStep_registryStep self master event
  generalize (masterStep self master event).1.registry = outcome at effect ⊢
  cases effect with
  | same _ _ => exact wellFormed
  | @registered slot info now entropy takes dry =>
    exact wellFormed.update (wellFormed.checksumMatches slot) (wellFormed.pagesBounded slot)
      (takes.only_slot wellFormed)
  | @challenged slot info now entropy takes drawn =>
    exact wellFormed.update rfl (probePagesFor_bounded info.ram) (takes.only_slot wellFormed)
  | @activated slot ack now accepted =>
    exact wellFormed.of_frame (activate_frame self master.registry slot now)
  | @refreshed slot now reaches =>
    refine wellFormed.of_frame ?_
    intro other
    by_cases same : other = slot
    · subst same
      rw [update_self]
      exact ⟨rfl, rfl, rfl, rfl⟩
    · rw [update_of_ne same]
      exact ⟨rfl, rfl, rfl, rfl⟩
  | @aged now isExpire =>
    exact wellFormed.of_frame (fun slot => expireEntry_frame now (master.registry slot))

theorem registryWellFormed_masterAfter (self : RpcAddr) (events : List MasterEvent) :
    RegistryWellFormed (masterAfter self events).registry := by
  apply invariant_after (masterNext self) (fun master => RegistryWellFormed master.registry)
  · refine ⟨fun _ => rfl, fun _ => UInt32.zero_le, ?_⟩
    intro _ _ used
    exact absurd rfl used
  · intro master event
    exact registryWellFormed_step self master event

/-! ## The exchange -/

/-- What `discovery_register` makes of the datagram the master sent back: the
`CAP_ACK` to send, or `none` when it aborts. -/
def registerAnswer (backed : Bool) : List Outgoing → Option CapAck
  | [.reply _ _ .success payload] =>
    if payload.length < AuthHelloReply.size then none
    else answerProbe backed (AuthHelloReply.decode payload)
  | _ => none

/-- `discovery_register` against the master without loss and with no other
call in between; the worker has the memory for the probe.  `none` when the
worker aborts before its `CAP_ACK`. -/
def registrationExchange (self : RpcAddr) (master : Master) (info : WorkerInfo)
    (helloXid ackXid now later : UInt32) (entropy : Entropy) :
    Option (Master × List Outgoing) :=
  let (registered, sent) :=
    masterStep self master (.call (helloMsg helloXid info) info.addr now entropy)
  (registerAnswer true sent).map fun ack =>
    masterStep self registered (.call (capAckMsg ackXid ack) info.addr later [])

/-- The `CAP_ACK` was answered `SUCCESS` and the worker's entry is active. -/
def RegistrationCompleted (info : WorkerInfo) (ackXid : UInt32)
    (exchange : Option (Master × List Outgoing)) : Prop :=
  ∃ outcome,
    exchange = some outcome ∧
      (∃ payload, repliesOf outcome.2 = [.reply info.addr ackXid .success payload]) ∧
      ∃ slot,
        registryFind outcome.1.registry info.workerId = some slot ∧
          (outcome.1.registry slot).state = .active

theorem capProbeRun_backed {pages : UInt32} (seed : UInt32) (somePages : pages ≠ 0)
    (bounded : pages ≤ capProbeCeilingBytes / capProbePgsize) :
    capProbeRun true seed pages = some (capProbeChecksum seed pages) := by
  have notTooMany : ¬ pages > capProbeCeilingBytes / capProbePgsize := UInt32.not_lt.mpr bounded
  simp [capProbeRun, somePages, notTooMany]

/-- The answer a worker with enough memory gives to a stored probe. -/
def probeAnswer (entry : WorkerEntry) : CapAck where
  probeNonce := entry.capAckExpected.probeNonce
  checksum := capProbeChecksum entry.probeSeed entry.probePages
  identity := capIdentity entry.capAckExpected.probeNonce

theorem registerAnswer_storedProbe (dst : RpcAddr) (xid : UInt32) (entry : WorkerEntry)
    (bounded : entry.probePages ≤ capProbeCeilingBytes / capProbePgsize) :
    registerAnswer true
        [.reply dst xid .success (storedProbe entry).encode] =
      if entry.probePages = 0 then none else some (probeAnswer entry) := by
  have notShort : ¬ (storedProbe entry).encode.length < AuthHelloReply.size := by simp
  rw [registerAnswer, if_neg notShort]
  simp only [AuthHelloReply.decode_encode, answerProbe, storedProbe, ne_eq,
    not_true_eq_false, if_false]
  by_cases noPages : entry.probePages = 0
  · simp [noPages, capProbeRun]
  · rw [capProbeRun_backed _ noPages bounded, if_neg noPages]
    rfl

theorem probeAnswer_answers {entry : WorkerEntry}
    (checksum : entry.capAckExpected.checksum = capProbeChecksum entry.probeSeed entry.probePages) :
    answersChallenge (probeAnswer entry) entry :=
  ⟨rfl, checksum.symm, rfl⟩

/-- The entry an earlier history left for the worker lets it register: there is
none, it has expired, or it still waits for the `CAP_ACK` of a worker at this
address with a probe to run. -/
def LeavesRoomFor (registry : Registry) (info : WorkerInfo) : Prop :=
  ∀ slot, registryFind registry info.workerId = some slot →
    (registry slot).state = .expired ∨
      ((registry slot).state = .pending ∧
        (registry slot).info.addr = info.addr ∧
        (registry slot).probePages ≠ 0)

theorem masterStep_capAck_refused (self : RpcAddr) (master : Master)
    {src : RpcAddr} {now : UInt32} (xid : UInt32) (entropy : Entropy)
    (allowed : (discRlAllow master.discRl src now).2 = true) {ack : CapAck}
    (refused : ∀ slot, registryFindIpPort master.registry src = some slot →
        (master.registry slot).state = .pending →
        ¬ answersChallenge ack (master.registry slot))
    (payload : List UInt8) :
    repliesOf (masterStep self master (.call (capAckMsg xid ack) src now entropy)).2 ≠
      [.reply src xid .success payload] := by
  have admitted : Admitted master (capAckMsg xid ack) src now :=
    (admitted_iff_allowed master src now xid procCapAck _).mpr allowed
  have decoded : CapAck.decode (capAckMsg xid ack).payload = ack := CapAck.decode_encode ack
  rw [masterStep_of_capAck self admitted rfl]
  have failing : ∀ slot, ¬ AcceptsAck master.registry (capAckMsg xid ack) src slot := by
    rintro slot ⟨-, found, isPending, answers⟩
    rw [decoded] at answers
    exact refused slot found isPending answers
  rcases
      (@handleCapAck_refused
        { master with discRl := (discRlAllow master.discRl src now).1 } _ _
        self now failing).2 with
    garbage | systemErr
  · rw [garbage]
    simp [answer]
  · rw [systemErr]
    simp [answer]

/-- The address of the worker is found where its id is, when no other entry
carries the address. -/
theorem registryFindIpPort_of_registryFind {registry : Registry} {info : WorkerInfo} {slot : Slot}
    (found : registryFind registry info.workerId = some slot)
    (sameAddr : (registry slot).info.addr = info.addr)
    (addressFree : ∀ other, (registry other).info.workerId ≠ info.workerId →
        (registry other).info.addr ≠ info.addr) :
    registryFindIpPort registry info.addr = some slot := by
  rw [registryFindIpPort_eq_some_iff]
  refine ⟨sameAddr, ?_⟩
  intro earlier before
  apply addressFree
  exact ((registryFind_eq_some_iff _ _ slot).mp found).2 earlier before

/-- The `CAP_ACK` of an exchange whose entry is pending and found by both
lookups completes it. -/
theorem registrationCompleted_of_pending (self : RpcAddr) (master : Master)
    {info : WorkerInfo} (ackXid : UInt32) {later : UInt32} {slot : Slot}
    (allowed : (discRlAllow master.discRl info.addr later).2 = true)
    (foundId : registryFind master.registry info.workerId = some slot)
    (foundAddr : registryFindIpPort master.registry info.addr = some slot)
    (isPending : (master.registry slot).state = .pending) {ack : CapAck}
    (answers : answersChallenge ack (master.registry slot)) :
    RegistrationCompleted info ackXid
      (some (masterStep self master (.call (capAckMsg ackXid ack) info.addr later []))) := by
  rw [masterStep_capAck self ackXid [] allowed foundAddr isPending answers]
  refine ⟨_, rfl, ⟨_, by
    rw [repliesOf_append, activate_sent_repliesOf, repliesOf_reply]
    rfl⟩, slot, ?_, ?_⟩
  · rw [← foundId]
    apply registryFind_congr
    intro other
    exact (activate_frame self master.registry slot later other).1
  · exact (activate_state self master.registry slot later slot).trans (if_pos rfl)

section Exchange

variable {self : RpcAddr} {master : Master} {info : WorkerInfo}
  {helloXid ackXid now later : UInt32} {entropy : Entropy}
  (rightPsk : info.pskHash = pskCommitment)
  (helloAllowed : (discRlAllow master.discRl info.addr now).2 = true)
  (ackAllowed : (discRlAllow (discRlAllow master.discRl info.addr now).1 info.addr later).2 = true)

include rightPsk helloAllowed ackAllowed

theorem registration_completed_of_take {slot : Slot}
    (target : helloTarget master.registry info.workerId = .take slot) (addressFree :
      ∀ other, (master.registry other).info.workerId ≠ info.workerId →
        (master.registry other).info.addr ≠ info.addr)
    (drawn : ChallengeDrawn entropy) :
    RegistrationCompleted info ackXid
      (registrationExchange self master info helloXid ackXid now later entropy) := by
  have notDry : ¬ ((drawProbe entropy).1 = 0 ∨ (drawProbe entropy).2 = 0) := not_or.mpr drawn
  have hello := masterStep_hello self helloXid entropy helloAllowed info rightPsk
  simp only [target, issueProbe, if_neg notDry] at hello
  generalize challengedDef :
    challengedEntry (master.registry slot) info now
      (drawProbe entropy).1 (drawProbe entropy).2 = challenged at hello
  have sameInfo : challenged.info = info := by
    rw [← challengedDef]
    rfl
  let registry := update master.registry slot challenged
  have foundId : registryFind registry info.workerId = some slot :=
    registryFind_update_taken target (congrArg _ sameInfo)
  have foundAddr : registryFindIpPort registry info.addr = some slot := by
    apply registryFindIpPort_of_registryFind foundId
    · simp only [registry, update_self, sameInfo]
    · intro other otherId
      have different : other ≠ slot := by
        rintro rfl
        simp only [registry, update_self, sameInfo] at otherId
        exact otherId rfl
      simp only [registry, update_of_ne different] at otherId ⊢
      exact addressFree other otherId
  have pages : challenged.probePages = probePagesFor info.ram := by
    rw [← challengedDef]
    rfl
  have answered :
      registerAnswer true
          [.reply info.addr helloXid .success (storedProbe challenged).encode] =
        some (probeAnswer challenged) := by
    rw [registerAnswer_storedProbe, pages]
    · exact if_neg (probePagesFor_ne_zero info.ram)
    · rw [pages]
      exact probePagesFor_bounded info.ram
  have isPending : (registry slot).state = .pending := by
    simp only [registry, update_self, ← challengedDef]
    rfl
  have answers : answersChallenge (probeAnswer challenged) (registry slot) := by
    simp only [registry, update_self]
    apply probeAnswer_answers
    rw [← challengedDef]
    rfl
  rw [show (helloMsg helloXid info).xid = helloXid from rfl] at hello
  rw [registrationExchange, hello]
  dsimp only
  rw [answered, Option.map_some]
  exact registrationCompleted_of_pending self
    (Master.setEntry { master with
        discRl := (discRlAllow master.discRl info.addr now).1 }
      slot challenged)
    ackXid ackAllowed foundId foundAddr isPending answers

/-- An exchange that finds a live entry for the worker's id completes exactly
when that entry is pending, at this address and has a probe to run. -/
theorem registration_completed_of_duplicate {existing : Slot}
    (target : helloTarget master.registry info.workerId = .duplicate existing)
    (foundId : registryFind master.registry info.workerId = some existing)
    (wellFormed : RegistryWellFormed master.registry) (usedId : info.workerId ≠ 0) (addressFree :
      ∀ other, (master.registry other).info.workerId ≠ info.workerId →
        (master.registry other).info.addr ≠ info.addr) :
    RegistrationCompleted info ackXid
        (registrationExchange self master info helloXid ackXid now later entropy) ↔
      (master.registry existing).state = .pending ∧
        (master.registry existing).info.addr = info.addr ∧
        (master.registry existing).probePages ≠ 0 := by
  have hello := masterStep_hello self helloXid entropy helloAllowed info rightPsk
  simp only [target] at hello
  simp only [registrationExchange, hello]
  rw [registerAnswer_storedProbe _ _ _ (wellFormed.pagesBounded existing)]
  by_cases noPages : (master.registry existing).probePages = 0
  · rw [if_pos noPages]
    constructor
    · rintro ⟨_, aborted, _⟩
      cases aborted
    · rintro ⟨_, _, somePages⟩
      exact absurd noPages somePages
  · rw [if_neg noPages, Option.map_some]
    constructor
    · rintro ⟨outcome, isOutcome, ⟨payload, success⟩, _⟩
      rw [← Option.some.inj isOutcome] at success
      by_contra notReady
      refine masterStep_capAck_refused self
        { master with
          discRl := (discRlAllow master.discRl info.addr now).1 }
        ackXid [] ackAllowed ?_ payload success
      intro slot foundAddr isPending _
      -- the address leads to an entry of this id, hence to `existing`
      have slotAddr := ((registryFindIpPort_eq_some_iff _ _ slot).mp foundAddr).1
      have slotId : (master.registry slot).info.workerId = info.workerId := by
        by_contra otherId
        exact addressFree slot otherId slotAddr
      have existingId := ((registryFind_eq_some_iff _ _ existing).mp foundId).1
      have same : slot = existing :=
        wellFormed.idsUnique slot existing (slotId ▸ usedId) (slotId.trans existingId.symm)
      subst same
      exact notReady ⟨isPending, slotAddr, noPages⟩
    · rintro ⟨isPending, sameAddr, _⟩
      have foundAddr : registryFindIpPort master.registry info.addr = some existing :=
        registryFindIpPort_of_registryFind foundId sameAddr addressFree
      exact registrationCompleted_of_pending self
        { master with
          discRl := (discRlAllow master.discRl info.addr now).1 }
        ackXid ackAllowed foundId foundAddr isPending
        (probeAnswer_answers (wellFormed.checksumMatches existing))

end Exchange

/-- From every reachable registry in which no other entry carries the worker's
address and there is a slot for it, a loss-free exchange completes exactly when
the entry left for the worker's id makes room for it. -/
theorem registration_completed_iff (self : RpcAddr) (events : List MasterEvent)
    (info : WorkerInfo) (helloXid ackXid now later : UInt32) (entropy : Entropy)
    (usedId : info.workerId ≠ 0) (rightPsk : info.pskHash = pskCommitment) (addressFree : ∀ slot,
        ((masterAfter self events).registry slot).info.workerId ≠ info.workerId →
          ((masterAfter self events).registry slot).info.addr ≠ info.addr)
    (hasSlot : registryFind (masterAfter self events).registry info.workerId ≠ none ∨
        registryFreeSlot (masterAfter self events).registry ≠ none)
    (drawn : ChallengeDrawn entropy)
    (helloAllowed : (discRlAllow (masterAfter self events).discRl info.addr now).2 = true)
    (ackAllowed : (discRlAllow
        (discRlAllow (masterAfter self events).discRl info.addr now).1
        info.addr later).2 = true) :
    RegistrationCompleted info ackXid
        (registrationExchange self (masterAfter self events) info
          helloXid ackXid now later entropy) ↔
      LeavesRoomFor (masterAfter self events).registry info := by
  have wellFormed := registryWellFormed_masterAfter self events
  generalize masterAfter self events = master
    at addressFree hasSlot helloAllowed ackAllowed wellFormed ⊢
  have taken {slot : Slot}
      (target : helloTarget master.registry info.workerId = .take slot)
      (leavesRoom : LeavesRoomFor master.registry info) :
      RegistrationCompleted info ackXid
          (registrationExchange self master info helloXid ackXid now later entropy) ↔
        LeavesRoomFor master.registry info :=
    iff_of_true (registration_completed_of_take rightPsk helloAllowed
      ackAllowed target addressFree drawn) leavesRoom
  cases found : registryFind master.registry info.workerId with
  | some existing =>
    have room :
        LeavesRoomFor master.registry info ↔
          (master.registry existing).state = .expired ∨
            ((master.registry existing).state = .pending ∧
              (master.registry existing).info.addr = info.addr ∧
              (master.registry existing).probePages ≠ 0) := by
      simp only [LeavesRoomFor, found, Option.some.injEq, forall_eq']
    by_cases expired : (master.registry existing).state = .expired
    · exact @taken existing (by simp [helloTarget, found, expired]) (room.mpr (.inl expired))
    · have target :
          helloTarget master.registry info.workerId = .duplicate existing := by
        simp [helloTarget, found, expired]
      rw [registration_completed_of_duplicate rightPsk helloAllowed
        ackAllowed target found wellFormed usedId addressFree, room,
        or_iff_right expired]
  | none =>
    obtain ⟨slot, free⟩ := Option.ne_none_iff_exists'.mp (hasSlot.resolve_left (not_not.mpr found))
    have target : helloTarget master.registry info.workerId = .take slot := by
      simp [helloTarget, found, free]
    refine taken target ?_
    intro other foundOther
    rw [found] at foundOther
    cases foundOther

/-- The worker's first `AUTH_HELLO` was answered, but the answer got lost: its
entry is pending. -/
theorem registration_completed_exampleWorker :
    RegistrationCompleted (exampleWorker 7) 4
      (registrationExchange exampleMaster (masterAfter exampleMaster [exampleHello 7 0])
        (exampleWorker 7) 3 4 2 3 [some 17, some 19]) := by
  have isRegistered : masterAfter exampleMaster [exampleHello 7 0] = exampleRegistered :=
    masterNext_init_exampleHello
  apply (registration_completed_iff exampleMaster [exampleHello 7 0] (exampleWorker 7)
    3 4 2 3 [some 17, some 19] (by decide) rfl _ _ ⟨by decide, by decide⟩ _ _).mpr
  all_goals rw [isRegistered]
  · intro slot found
    have isFirst : registryFind exampleRegistered.registry (exampleWorker 7).workerId = some 0 := by
      decide
    cases isFirst.symm.trans found
    exact .inr ⟨by decide, by decide, by decide⟩
  · decide
  · exact .inl (by decide)
  · decide
  · decide

/-- A worker that restarts while its entry is still active is refused: its
`AUTH_HELLO` is answered `PENDING` and its `CAP_ACK` `SYSTEM_ERR`. -/
theorem active_worker_cannot_register_again :
    (exampleWorker 7).workerId ≠ 0 ∧
      (exampleWorker 7).pskHash = pskCommitment ∧
      (∀ slot, ((masterAfter exampleMaster activeRun).registry
              slot).info.workerId ≠ (exampleWorker 7).workerId →
          ((masterAfter exampleMaster activeRun).registry
              slot).info.addr ≠ (exampleWorker 7).addr) ∧
      registryFind (masterAfter exampleMaster activeRun).registry
          (exampleWorker 7).workerId ≠ none ∧
      ChallengeDrawn [some 17, some 19] ∧
      (discRlAllow (masterAfter exampleMaster activeRun).discRl (exampleWorker 7).addr 2).2 = true ∧
      (discRlAllow (discRlAllow (masterAfter exampleMaster activeRun).discRl
            (exampleWorker 7).addr 2).1 (exampleWorker 7).addr 3).2 =
        true ∧
      ¬ RegistrationCompleted (exampleWorker 7) 4
        (registrationExchange exampleMaster
          (masterAfter exampleMaster activeRun)
          (exampleWorker 7) 3 4 2 3 [some 17, some 19]) := by
  have wellFormed := registryWellFormed_masterAfter exampleMaster activeRun
  have addressFree :
      ∀ slot,
        (exampleActivated.registry slot).info.workerId ≠ (exampleWorker 7).workerId →
          (exampleActivated.registry slot).info.addr ≠ (exampleWorker 7).addr := by
    decide
  have found : registryFind exampleActivated.registry (exampleWorker 7).workerId = some 0 := by
    decide
  have target :
      helloTarget exampleActivated.registry (exampleWorker 7).workerId = .duplicate 0 := by
    decide
  rw [masterAfter_activeRun] at wellFormed ⊢
  refine ⟨by decide, rfl, addressFree, by decide, ⟨by decide, by decide⟩, by decide, by decide, ?_⟩
  rw [registration_completed_of_duplicate rfl (by decide) (by decide)
    target found wellFormed (by decide) addressFree]
  intro ready
  exact absurd ready.1 (by decide)

end LlmRuntime.Discovery
