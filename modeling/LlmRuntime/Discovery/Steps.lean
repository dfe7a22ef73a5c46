import LlmRuntime.Discovery.Handlers
import LlmRuntime.Library.Execution

/-!
# What one event does to the registry

The effects of `masterStep` are classified once.  Later proofs about runs split
on this classification and never unfold the handlers.
-/

namespace LlmRuntime.Discovery

open Bytes Execution Function

/-- The machine without the datagrams it sends. -/
def masterNext (self : RpcAddr) (master : Master) (event : MasterEvent) : Master :=
  (masterStep self master event).1

def masterAfter (self : RpcAddr) (events : List MasterEvent) : Master :=
  after (masterNext self) Master.init events

@[simp]
theorem masterAfter_nil (self : RpcAddr) : masterAfter self [] = Master.init := rfl

@[simp]
theorem masterAfter_snoc (self : RpcAddr) (events : List MasterEvent) (event : MasterEvent) :
    masterAfter self (events ++ [event]) = (masterStep self (masterAfter self events) event).1 :=
  after_snoc _ _ events event

theorem masterAfter_append (self : RpcAddr) (initial rest : List MasterEvent) :
    masterAfter self (initial ++ rest) = after (masterNext self) (masterAfter self initial) rest :=
  after_append _ _ initial rest

/-- The message passes the message-type test, the rate limiter and the program
check, so that it is dispatched on its procedure number. -/
def Admitted (master : Master) (msg : RpcMsg) (src : RpcAddr) (now : UInt32) : Prop :=
  msg.mtype = .call ∧ (discRlAllow master.discRl src now).2 = true ∧
    msg.prog = inferenceProg ∧ msg.vers = inferenceVers

/-- The event is an `AUTH_HELLO` that sets the entry of `slot` to `PENDING`. -/
def HelloTakes (master : Master) (event : MasterEvent) (slot : Slot)
    (info : WorkerInfo) (now : UInt32) (entropy : Entropy) : Prop :=
  ∃ msg src,
    event = .call msg src now entropy ∧
      Admitted master msg src now ∧ msg.proc = procAuthHello ∧
      WorkerInfo.size ≤ msg.payload.length ∧
      WorkerInfo.decode msg.payload = info ∧
      info.pskHash = pskCommitment ∧
      helloTarget master.registry info.workerId = .take slot

/-- Both draws for the challenge gave a usable word. -/
def ChallengeDrawn (entropy : Entropy) : Prop :=
  (drawProbe entropy).1 ≠ 0 ∧ (drawProbe entropy).2 ≠ 0

/-- The event is a `CAP_ACK` processed for the entry of `slot`: its source is
the address stored there. -/
def AckReaches (master : Master) (event : MasterEvent) (slot : Slot)
    (ack : CapAck) (now : UInt32) : Prop :=
  ∃ msg src entropy,
    event = .call msg src now entropy ∧
      Admitted master msg src now ∧ msg.proc = procCapAck ∧
      CapAck.size ≤ msg.payload.length ∧
      CapAck.decode msg.payload = ack ∧
      registryFindIpPort master.registry src = some slot

def AcceptsAck (registry : Registry) (msg : RpcMsg) (src : RpcAddr) (slot : Slot) : Prop :=
  CapAck.size ≤ msg.payload.length ∧
    registryFindIpPort registry src = some slot ∧
    (registry slot).state = .pending ∧
    answersChallenge (CapAck.decode msg.payload) (registry slot)

/-- The `CAP_ACK` passes every check of `handle_cap_ack`. -/
def AckAccepted (master : Master) (event : MasterEvent) (slot : Slot)
    (ack : CapAck) (now : UInt32) : Prop :=
  AckReaches master event slot ack now ∧
    (master.registry slot).state = .pending ∧
    answersChallenge ack (master.registry slot)

def BeatReaches (master : Master) (event : MasterEvent) (slot : Slot) (now : UInt32) : Prop :=
  ∃ msg src entropy,
    event = .call msg src now entropy ∧
      Admitted master msg src now ∧ msg.proc = procHeartbeat ∧
      4 ≤ msg.payload.length ∧
      registryFind master.registry (readLeWord msg.payload).1 = some slot

variable {master : Master} {now : UInt32} {event : MasterEvent}

theorem HelloTakes.slot_unique {left right : Slot} {leftInfo rightInfo : WorkerInfo}
    {leftNow rightNow : UInt32} {leftEntropy rightEntropy : Entropy}
    (leftTakes : HelloTakes master event left leftInfo leftNow leftEntropy)
    (rightTakes : HelloTakes master event right rightInfo rightNow rightEntropy) :
    left = right := by
  obtain ⟨_, _, rfl, _, _, _, rfl, _, leftTarget⟩ := leftTakes
  obtain ⟨_, _, sameEvent, _, _, _, rfl, _, rightTarget⟩ := rightTakes
  cases sameEvent
  rw [leftTarget] at rightTarget
  exact HelloTarget.take.inj rightTarget

/-- A `CAP_ACK` or a heartbeat never takes a slot: the procedure numbers
differ. -/
theorem AckReaches.not_helloTakes {slot : Slot} {ack : CapAck}
    (reaches : AckReaches master event slot ack now) (other : Slot)
    (info : WorkerInfo) (at_ : UInt32) (entropy : Entropy) :
    ¬ HelloTakes master event other info at_ entropy := by
  obtain ⟨_, _, _, rfl, _, ackProc, _⟩ := reaches
  rintro ⟨_, _, sameEvent, _, helloProc, _⟩
  cases sameEvent
  rw [ackProc] at helloProc
  exact absurd helloProc (by decide)

theorem BeatReaches.not_helloTakes {slot : Slot} (reaches : BeatReaches master event slot now)
    (other : Slot) (info : WorkerInfo) (at_ : UInt32) (entropy : Entropy) :
    ¬ HelloTakes master event other info at_ entropy := by
  obtain ⟨_, _, _, rfl, _, beatProc, _⟩ := reaches
  rintro ⟨_, _, sameEvent, _, helloProc, _⟩
  cases sameEvent
  rw [beatProc] at helloProc
  exact absurd helloProc (by decide)

theorem not_helloTakes_expire (master : Master) (now : UInt32) (slot : Slot)
    (info : WorkerInfo) (at_ : UInt32) (entropy : Entropy) :
    ¬ HelloTakes master (.expire now) slot info at_ entropy := by
  rintro ⟨_, _, sameEvent, _⟩
  cases sameEvent

/-- An admitted call is dispatched with its token spent; the registry the
handlers see is the one before the call. -/
theorem discoveryHandleCall_of_admitted {self : RpcAddr} {msg : RpcMsg} {src : RpcAddr}
    {entropy : Entropy} (admitted : Admitted master msg src now) :
    discoveryHandleCall self master msg src now entropy =
      dispatchCall self
        { master with discRl := (discRlAllow master.discRl src now).1 }
        msg src now entropy := by
  obtain ⟨isCall, allowed, rightProg, rightVers⟩ := admitted
  simp [discoveryHandleCall, isCall, allowed, rightProg, rightVers]

/-- A call that is not admitted changes no entry and is answered `SUCCESS` by
nobody. -/
theorem discoveryHandleCall_of_not_admitted {self : RpcAddr} {msg : RpcMsg} {src : RpcAddr}
    {entropy : Entropy} (refused : ¬ Admitted master msg src now) :
    (discoveryHandleCall self master msg src now entropy).1.registry = master.registry ∧
      ((discoveryHandleCall self master msg src now entropy).2 = [] ∨
        (discoveryHandleCall self master msg src now entropy).2 = answer src msg .progUnavail) := by
  unfold discoveryHandleCall
  by_cases isCall : msg.mtype = .call
  · by_cases allowed : (discRlAllow master.discRl src now).2 = true
    · have wrongProgram :
          msg.prog ≠ inferenceProg ∨ msg.vers ≠ inferenceVers := by
        by_contra right
        push Not at right
        exact refused ⟨isCall, allowed, right.1, right.2⟩
      simp [isCall, allowed, wrongProgram]
    · simp [isCall, allowed]
  · simp [isCall]

/-- The effects an event can have on the registry, with what made it have that
effect.  `same` also says that the event was neither an `AUTH_HELLO` taking a
slot nor an accepted `CAP_ACK`. -/
inductive RegistryStep (self : RpcAddr) (master : Master) (event : MasterEvent) :
    Registry → Prop
  | same
      (noHello : ∀ slot info now entropy, ¬ HelloTakes master event slot info now entropy)
      (noAck : ∀ slot ack now, ¬ AckAccepted master event slot ack now) :
      RegistryStep self master event master.registry
  | registered
      {slot : Slot} {info : WorkerInfo} {now : UInt32} {entropy : Entropy}
      (takes : HelloTakes master event slot info now entropy)
      (dry : (drawProbe entropy).1 = 0 ∨ (drawProbe entropy).2 = 0) :
      RegistryStep self master event
        (update master.registry slot (registeredEntry (master.registry slot) info now))
  | challenged
      {slot : Slot} {info : WorkerInfo} {now : UInt32} {entropy : Entropy}
      (takes : HelloTakes master event slot info now entropy)
      (drawn : ChallengeDrawn entropy) :
      RegistryStep self master event
        (update master.registry slot
          (challengedEntry (master.registry slot) info now
            (drawProbe entropy).1 (drawProbe entropy).2))
  | activated
      {slot : Slot} {ack : CapAck} {now : UInt32}
      (accepted : AckAccepted master event slot ack now) :
      RegistryStep self master event (activate self master.registry slot now).2.1
  | refreshed
      {slot : Slot} {now : UInt32}
      (reaches : BeatReaches master event slot now) :
      RegistryStep self master event
        (update master.registry slot (heartbeatEntry (master.registry slot) now))
  | aged
      {now : UInt32} (isExpire : event = .expire now) :
      RegistryStep self master event (fun i => expireEntry now (master.registry i))

section CallSteps

variable {self : RpcAddr} {master : Master} {msg : RpcMsg}
  {src : RpcAddr} {now : UInt32} {entropy : Entropy}

theorem RegistryStep.same_of_call
    (noHello : Admitted master msg src now → msg.proc = procAuthHello →
        WorkerInfo.size ≤ msg.payload.length →
        (WorkerInfo.decode msg.payload).pskHash = pskCommitment →
        ∀ slot, helloTarget master.registry (WorkerInfo.decode msg.payload).workerId ≠ .take slot)
    (noAck : Admitted master msg src now → msg.proc = procCapAck →
        ∀ slot, ¬ AcceptsAck master.registry msg src slot) :
    RegistryStep self master (.call msg src now entropy) master.registry := by
  refine .same ?_ ?_
  · rintro slot info at_ drawn ⟨_, _, sameEvent, admitted, isHello, long, rfl, rightPsk, target⟩
    cases sameEvent
    exact noHello admitted isHello long rightPsk slot target
  · rintro slot ack at_
      ⟨⟨_, _, _, sameEvent, admitted, isAck, long, rfl, found⟩, isPending, answers⟩
    cases sameEvent
    exact noAck admitted isAck slot ⟨long, found, isPending, answers⟩

theorem handleAuthHello_registryStep (admitted : Admitted master msg src now)
    (isHello : msg.proc = procAuthHello) (buckets : DiscRl) :
    RegistryStep self master (.call msg src now entropy)
      (handleAuthHello { master with discRl := buckets } msg src now entropy).1.registry := by
  have notAck : msg.proc ≠ procCapAck := by
    rw [isHello]
    decide
  by_cases short : msg.payload.length < WorkerInfo.size
  · simp only [handleAuthHello, if_pos short, Master.countMalformed_registry]
    exact .same_of_call (fun _ _ long => absurd short (Nat.not_lt.mpr long))
      (fun _ isAck => absurd isAck notAck)
  · by_cases rightPsk : (WorkerInfo.decode msg.payload).pskHash = pskCommitment
    · simp only [handleAuthHello, if_neg short, ne_eq, rightPsk, not_true_eq_false, if_false]
      cases target : helloTarget master.registry (WorkerInfo.decode msg.payload).workerId with
      | duplicate | full =>
        exact .same_of_call
          (fun _ _ _ _ slot taken => by
            rw [target] at taken
            cases taken)
          (fun _ isAck => absurd isAck notAck)
      | take slot =>
        have takes :
            HelloTakes master (.call msg src now entropy) slot
              (WorkerInfo.decode msg.payload) now entropy :=
          ⟨msg, src, rfl, admitted, isHello, Nat.not_lt.mp short, rfl, rightPsk, target⟩
        by_cases dry : (drawProbe entropy).1 = 0 ∨ (drawProbe entropy).2 = 0
        · simp only [issueProbe, if_pos dry, Master.setEntry_registry]
          exact .registered takes dry
        · simp only [issueProbe, if_neg dry, Master.setEntry_registry]
          exact .challenged takes (not_or.mp dry)
    · simp only [handleAuthHello, if_neg short, ne_eq, rightPsk, not_false_eq_true, if_true]
      exact .same_of_call (fun _ _ _ right => absurd right rightPsk)
        (fun _ isAck => absurd isAck notAck)

/-- The chain of checks in `handle_cap_ack`, read as one condition. -/
theorem handleCapAck_eq (self : RpcAddr) (now : UInt32) {slot : Slot}
    (accepts : AcceptsAck master.registry msg src slot) :
    handleCapAck self master msg src now =
      ({ master with
          registry := (activate self master.registry slot now).2.1 },
        (activate self master.registry slot now).2.2 ++
          [.reply src msg.xid .success (activate self master.registry slot now).1.encode]) := by
  obtain ⟨long, found, isPending, sameNonce, sameChecksum, sameIdentity⟩ := accepts
  have notShort : ¬ msg.payload.length < CapAck.size := Nat.not_lt.mpr long
  simp only [handleCapAck, if_neg notShort, found, isPending, sameNonce,
    sameChecksum, sameIdentity, ne_eq, not_true_eq_false, if_false]

/-- Every other way through `handle_cap_ack` leaves the registry alone and
answers an error. -/
theorem handleCapAck_refused (self : RpcAddr) (now : UInt32)
    (refused : ∀ slot, ¬ AcceptsAck master.registry msg src slot) :
    (handleCapAck self master msg src now).1.registry = master.registry ∧
      ((handleCapAck self master msg src now).2 = answer src msg .garbageArgs ∨
        (handleCapAck self master msg src now).2 = answer src msg .systemErr) := by
  unfold handleCapAck
  split
  · exact ⟨rfl, Or.inl rfl⟩
  · rename_i notShort
    have long : CapAck.size ≤ msg.payload.length := Nat.not_lt.mp notShort
    split
    · exact ⟨rfl, Or.inr rfl⟩
    · rename_i slot found
      dsimp only
      split_ifs with notPending wrongNonce wrongChecksum wrongIdentity
      · exact ⟨rfl, Or.inr rfl⟩
      · exact ⟨rfl, Or.inl rfl⟩
      · exact ⟨rfl, Or.inl rfl⟩
      · exact ⟨rfl, Or.inl rfl⟩
      · push Not at notPending wrongNonce wrongChecksum wrongIdentity
        exact absurd ⟨long, found, notPending, wrongNonce, wrongChecksum,
          wrongIdentity⟩ (refused slot)

theorem handleCapAck_registryStep (admitted : Admitted master msg src now)
    (isAck : msg.proc = procCapAck) (buckets : DiscRl) :
    RegistryStep self master (.call msg src now entropy)
      (handleCapAck self { master with discRl := buckets } msg src now).1.registry := by
  have notHello : msg.proc ≠ procAuthHello := by
    rw [isAck]
    decide
  by_cases accepted : ∃ slot, AcceptsAck master.registry msg src slot
  · obtain ⟨slot, accepts⟩ := accepted
    rw [@handleCapAck_eq { master with discRl := buckets } _ _ self now _ accepts]
    obtain ⟨long, found, isPending, answers⟩ := accepts
    exact .activated
      ⟨⟨msg, src, entropy, rfl, admitted, isAck, long, rfl, found⟩, isPending, answers⟩
  · have refused := not_exists.mp accepted
    rw [(@handleCapAck_refused { master with discRl := buckets } _ _ self now refused).1]
    exact .same_of_call (fun _ isHello => absurd isHello notHello) (fun _ _ => refused)

theorem masterStep_of_capAck (self : RpcAddr)
    (admitted : Admitted master msg src now) (isAck : msg.proc = procCapAck) :
    masterStep self master (.call msg src now entropy) =
      handleCapAck self
        { master with discRl := (discRlAllow master.discRl src now).1 }
        msg src now := by
  have notHello : ¬ procCapAck = procAuthHello := by decide
  have notBeat : ¬ procCapAck = procHeartbeat := by decide
  simp only [masterStep, discoveryHandleCall_of_admitted admitted,
    dispatchCall, isAck, notHello, notBeat, if_false, if_true]

theorem masterStep_of_acceptsAck (self : RpcAddr)
    (admitted : Admitted master msg src now) (isAck : msg.proc = procCapAck)
    {slot : Slot} (accepts : AcceptsAck master.registry msg src slot) :
    masterStep self master (.call msg src now entropy) =
      ({ master with
          discRl := (discRlAllow master.discRl src now).1
          registry := (activate self master.registry slot now).2.1 },
        (activate self master.registry slot now).2.2 ++
          [.reply src msg.xid .success (activate self master.registry slot now).1.encode]) := by
  rw [masterStep_of_capAck self admitted isAck]
  exact handleCapAck_eq self now accepts

theorem handleHeartbeat_registryStep (admitted : Admitted master msg src now)
    (isBeat : msg.proc = procHeartbeat) (buckets : DiscRl) :
    RegistryStep self master (.call msg src now entropy)
      (handleHeartbeat { master with discRl := buckets } msg src now).1.registry := by
  have notHello : msg.proc ≠ procAuthHello := by
    rw [isBeat]
    decide
  have notAck : msg.proc ≠ procCapAck := by
    rw [isBeat]
    decide
  have same : RegistryStep self master (.call msg src now entropy) master.registry :=
    .same_of_call (fun _ isHello => absurd isHello notHello) (fun _ isAck => absurd isAck notAck)
  by_cases short : msg.payload.length < 4
  · simpa only [handleHeartbeat, if_pos short, Master.countMalformed_registry] using same
  · cases found : registryFind master.registry (readLeWord msg.payload).1 with
    | none => simpa only [handleHeartbeat, if_neg short, found] using same
    | some slot =>
      simp only [handleHeartbeat, if_neg short, found, Master.setEntry_registry]
      exact .refreshed ⟨msg, src, entropy, rfl, admitted, isBeat, Nat.not_lt.mp short, found⟩

end CallSteps

/-- The classification: every event of the master has one of the listed
effects. -/
theorem masterStep_registryStep (self : RpcAddr) (master : Master) (event : MasterEvent) :
    RegistryStep self master event (masterStep self master event).1.registry := by
  cases event with
  | expire now => exact .aged rfl
  | call msg src now entropy =>
    simp only [masterStep]
    by_cases admitted : Admitted master msg src now
    · rw [discoveryHandleCall_of_admitted admitted]
      unfold dispatchCall
      split_ifs with isHello isBeat isAck
      · exact handleAuthHello_registryStep admitted isHello _
      · exact handleHeartbeat_registryStep admitted isBeat _
      · exact handleCapAck_registryStep admitted isAck _
      · exact .same_of_call (fun _ hello => absurd hello isHello) (fun _ ack => absurd ack isAck)
    · rw [(discoveryHandleCall_of_not_admitted admitted).1]
      exact .same_of_call (fun allowed => absurd allowed admitted)
        (fun allowed => absurd allowed admitted)

theorem expireEntry_frame (now : UInt32) (entry : WorkerEntry) :
    (expireEntry now entry).info = entry.info ∧
      (expireEntry now entry).capAckExpected = entry.capAckExpected ∧
      (expireEntry now entry).probeSeed = entry.probeSeed ∧
      (expireEntry now entry).probePages = entry.probePages := by
  unfold expireEntry
  dsimp only
  split_ifs <;> exact ⟨rfl, rfl, rfl, rfl⟩

section Activation

variable (self : RpcAddr) (registry : Registry) (slot : Slot) (now : UInt32)

/-- `handle_cap_ack` touches two entries at most: the one it activates and the
`next` pointer of the predecessor it finds. -/
theorem activate_other {other : Slot} (different : other ≠ slot) :
    ∃ next, (activate self registry slot now).2.1 other = { registry other with next := next } := by
  simp only [activate, spliceIn]
  split
  · simp only [update_of_ne different]
    exact ⟨(registry other).next, rfl⟩
  · rename_i prevSlot _
    by_cases isPrev : other = prevSlot
    · subst isPrev
      simp only [update_of_ne different, update_self]
      exact ⟨_, rfl⟩
    · simp only [update_of_ne different, update_of_ne isPrev]
      exact ⟨(registry other).next, rfl⟩

theorem activate_self :
    ∃ prev next,
      (activate self registry slot now).2.1 slot =
        { activatedEntry (registry slot) now with
          prev := prev, next := next } := by
  simp only [activate, spliceIn]
  split
  · simp only [update_self]
    exact ⟨_, _, rfl⟩
  · rename_i prevSlot _
    by_cases isPrev : slot = prevSlot
    · subst isPrev
      simp only [update_self]
      exact ⟨_, _, rfl⟩
    · simp only [update_self, update_of_ne isPrev]
      exact ⟨_, _, rfl⟩

theorem activate_frame (other : Slot) :
    ((activate self registry slot now).2.1 other).info = (registry other).info ∧
      ((activate self registry slot now).2.1 other).capAckExpected =
        (registry other).capAckExpected ∧
      ((activate self registry slot now).2.1 other).probeSeed = (registry other).probeSeed ∧
      ((activate self registry slot now).2.1 other).probePages = (registry other).probePages := by
  by_cases same : other = slot
  · subst same
    obtain ⟨prev, next, shape⟩ := activate_self self registry other now
    rw [shape]
    exact ⟨rfl, rfl, rfl, rfl⟩
  · obtain ⟨next, shape⟩ := activate_other self registry slot now same
    rw [shape]
    exact ⟨rfl, rfl, rfl, rfl⟩

theorem activate_state (other : Slot) :
    ((activate self registry slot now).2.1 other).state =
      if other = slot then .active else (registry other).state := by
  by_cases same : other = slot
  · subst same
    obtain ⟨prev, next, shape⟩ := activate_self self registry other now
    rw [shape, if_pos rfl]
    rfl
  · obtain ⟨next, shape⟩ := activate_other self registry slot now same
    rw [shape, if_neg same]

@[simp]
theorem activate_sent_repliesOf : repliesOf (activate self registry slot now).2.2 = [] := by
  simp only [activate, spliceIn]
  split
  · rfl
  · rfl

end Activation

end LlmRuntime.Discovery
