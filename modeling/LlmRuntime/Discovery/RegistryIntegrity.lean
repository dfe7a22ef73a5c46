import LlmRuntime.Discovery.Registration
import LlmRuntime.Discovery.RingAgreement

/-!
# The integrity of the registry

`worker_id` 0 marks an empty slot, but `handle_auth_hello` accepts it from a
peer.  The registry keeps its integrity exactly as long as no such slot is
activated.
-/

namespace LlmRuntime.Discovery

open Bytes Execution Function

/-- Worker numbers are distinct, and an `ACTIVE` entry has one. -/
structure RegistryIntact (registry : Registry) : Prop where
  idsDistinct :
    ∀ left right,
      (registry left).info.workerId ≠ 0 →
      (registry left).info.workerId = (registry right).info.workerId →
      left = right
  activeNamed : ∀ slot, (registry slot).state = .active → (registry slot).info.workerId ≠ 0

/-- The slot has no worker and is in the state of a zeroed entry. -/
def Vacant (entry : WorkerEntry) : Prop := entry.info.workerId = 0 ∧ entry.state = .pending

/-- An `AUTH_HELLO` rewrites one entry at most, which was vacant or
`EXPIRED`. -/
def HelloContained (self : RpcAddr) (master : Master) (event : MasterEvent) : Prop :=
  ∀ msg src now entropy,
    event = .call msg src now entropy → msg.proc = procAuthHello →
      ∃ slot,
        (∀ other, other ≠ slot →
          (masterNext self master event).registry other = master.registry other) ∧
        ((masterNext self master event).registry slot = master.registry slot ∨
          Vacant (master.registry slot) ∨
          (master.registry slot).state = .expired)

/-- The step leaves an intact registry behind, and is contained when it is an
`AUTH_HELLO`. -/
structure StepIntact (home : RpcAddr) (master : Master) (event : MasterEvent) : Prop where
  intact : RegistryIntact (masterNext home master event).registry
  contained : HelloContained home master event

/-- The registry is intact in every state of the run, and every `AUTH_HELLO`
of it is contained. -/
def IntactThroughout (self : RpcAddr) (events : List MasterEvent) : Prop :=
  RegistryIntact Master.init.registry ∧ Along (masterNext self) (StepIntact self) Master.init events

/-- An accepted `CAP_ACK` is about an entry with a worker number. -/
def AckNamed (master : Master) (event : MasterEvent) : Prop :=
  ∀ slot ack now, AckAccepted master event slot ack now → (master.registry slot).info.workerId ≠ 0

/-- An entry without a worker number was never activated. -/
def NamelessPending (registry : Registry) : Prop :=
  ∀ slot, (registry slot).info.workerId = 0 → (registry slot).state = .pending

structure RegistrySound (master : Master) : Prop where
  wellFormed : RegistryWellFormed master.registry
  namelessPending : NamelessPending master.registry

theorem registrySound_init : RegistrySound Master.init where
  wellFormed := by
    have start := registryWellFormed_masterAfter ⟨0, 0⟩ []
    rwa [masterAfter_nil] at start
  namelessPending := fun _ _ => rfl

theorem RegistrySound.registryIntact {master : Master} (sound : RegistrySound master) :
    RegistryIntact master.registry where
  idsDistinct := sound.wellFormed.idsUnique
  activeNamed := by
    intro slot isActive nameless
    rw [sound.namelessPending slot nameless] at isActive
    cases isActive

section Step

variable {self : RpcAddr} {master : Master} {event : MasterEvent}

theorem NamelessPending.update {registry : Registry} (nameless : NamelessPending registry)
    (slot : Slot) {entry : WorkerEntry} (here : entry.info.workerId = 0 → entry.state = .pending) :
    NamelessPending (update registry slot entry) := by
  intro other
  by_cases same : other = slot
  · rw [same, update_self]
    exact here
  · rw [update_of_ne same]
    exact nameless other

/-- Every event keeps the entries without a number `PENDING`, as long as it
does not activate one of them. -/
theorem NamelessPending.next (nameless : NamelessPending master.registry)
    (named : AckNamed master event) :
    NamelessPending (masterNext self master event).registry := by
  have effect : RegistryStep self master event (masterNext self master event).registry :=
    masterStep_registryStep self master event
  generalize (masterNext self master event).registry = outcome at effect ⊢
  cases effect with
  | same _ _ => exact nameless
  | registered | challenged => exact nameless.update _ (fun _ => rfl)
  | @activated slot ack now accepted =>
    intro other isZero
    rw [(activate_frame self master.registry slot now other).1] at isZero
    have different : other ≠ slot := by
      intro same
      rw [same] at isZero
      exact named slot ack now accepted isZero
    rw [activate_state, if_neg different]
    exact nameless other isZero
  | @refreshed slot now reaches =>
    refine nameless.update slot ?_
    intro isZero
    have isPending : (master.registry slot).state = .pending := nameless slot isZero
    simp [heartbeatEntry, isPending]
  | @aged now isExpire =>
    intro other isZero
    rw [(expireEntry_frame now (master.registry other)).1] at isZero
    have untouched : expireEntry now (master.registry other) = master.registry other :=
      if_pos isZero
    dsimp only
    rw [untouched]
    exact nameless other isZero

theorem RegistrySound.next (sound : RegistrySound master) (named : AckNamed master event) :
    RegistrySound (masterNext self master event) where
  wellFormed := registryWellFormed_step self master event sound.wellFormed
  namelessPending := sound.namelessPending.next named

theorem HelloTakes.vacant_or_expired (nameless : NamelessPending master.registry) {slot : Slot}
    {info : WorkerInfo} {now : UInt32} {entropy : Entropy}
    (takes : HelloTakes master event slot info now entropy) :
    Vacant (master.registry slot) ∨ (master.registry slot).state = .expired := by
  obtain ⟨_, _, _, _, _, _, _, _, target⟩ := takes
  rcases helloTarget_take target with ⟨_, isExpired⟩ | ⟨_, free⟩
  · exact Or.inr isExpired
  · rcases registryFreeSlot_some free with isExpired | isZero
    · exact Or.inr isExpired
    · exact Or.inl ⟨isZero, nameless slot isZero⟩

theorem helloContained_of_sound (sound : RegistrySound master) :
    HelloContained self master event := by
  rintro msg src now entropy rfl isHello
  have effect : RegistryStep self master (.call msg src now entropy)
      (masterNext self master (.call msg src now entropy)).registry :=
    masterStep_registryStep self master _
  generalize (masterNext self master (.call msg src now entropy)).registry = outcome at effect ⊢
  cases effect with
  | same _ _ => exact ⟨0, fun _ _ => rfl, Or.inl rfl⟩
  | @registered slot _ _ _ takes dry | @challenged slot _ _ _ takes drawn =>
    exact ⟨slot, fun _ different => update_of_ne different _ _,
      Or.inr (takes.vacant_or_expired sound.namelessPending)⟩
  | activated accepted =>
    obtain ⟨⟨_, _, _, sameEvent, _, isAck, _⟩, _⟩ := accepted
    cases sameEvent
    rw [isHello] at isAck
    exact absurd isAck (by decide)
  | refreshed reaches =>
    obtain ⟨_, _, _, sameEvent, _, isBeat, _⟩ := reaches
    cases sameEvent
    rw [isHello] at isBeat
    exact absurd isBeat (by decide)
  | aged isExpire => cases isExpire

/-- From a sound registry, the step is intact exactly when it activates no
entry without a number. -/
theorem ackNamed_iff_stepIntact (sound : RegistrySound master) :
    AckNamed master event ↔ StepIntact self master event := by
  constructor
  · intro named
    exact ⟨(sound.next named).registryIntact, helloContained_of_sound sound⟩
  · intro stepIntact slot ack now accepted
    have laterNamed := stepIntact.intact.activeNamed slot
    rw [accepted.registry_eq, activate_state, if_pos rfl,
      (activate_frame self master.registry slot now slot).1] at laterNamed
    exact laterNamed rfl

end Step

/-- The registry keeps its integrity along exactly the runs in which every
accepted `CAP_ACK` is about an entry with a worker number. -/
theorem registry_intact_iff (self : RpcAddr) (events : List MasterEvent) :
    IntactThroughout self events ↔ Along (masterNext self) AckNamed Master.init events := by
  have agree :
      Along (masterNext self) AckNamed Master.init events ↔
        Along (masterNext self) (StepIntact self) Master.init events :=
    along_congr_of_invariant (masterNext self) RegistrySound
      (fun _ _ sound named => sound.next named)
      (fun _ _ sound => ackNamed_iff_stepIntact sound)
      registrySound_init events
  constructor
  · rintro ⟨_, steps⟩
    exact agree.mpr steps
  · intro named
    exact ⟨registrySound_init.registryIntact, agree.mp named⟩

/-- The master after workers 1 to `count` registered at tick 0. -/
def crowd : Nat → Master
  | 0 => Master.init
  | count + 1 =>
    helloApplied (crowd count) (Fin.ofNat maxWorkers count) (UInt32.ofNat (count + 1)) 0

def crowdHellos (count : Nat) : List MasterEvent :=
  (List.range count).map fun k => exampleHello (UInt32.ofNat (k + 1)) 0

theorem masterAfter_crowdHellos (count : Nat) (fits : count ≤ maxWorkers) :
    masterAfter exampleMaster (crowdHellos count) = crowd count := by
  have allowed :
      ∀ k : Fin maxWorkers,
        (discRlAllow (crowd k).discRl (exampleWorker (UInt32.ofNat (k + 1))).addr 0).2 = true := by
    decide +kernel
  have target :
      ∀ k : Fin maxWorkers,
        helloTarget (crowd k).registry (UInt32.ofNat (k + 1)) = .take (Fin.ofNat maxWorkers k) := by
    decide +kernel
  induction count with
  | zero => rfl
  | succ count ih =>
    have split :
        crowdHellos (count + 1) =
          crowdHellos count ++ [exampleHello (UInt32.ofNat (count + 1)) 0] := by
      rw [crowdHellos, List.range_succ, List.map_append]
      rfl
    rw [split, masterAfter_snoc, ih (by omega), crowd]
    exact masterNext_exampleHello (allowed ⟨count, fits⟩) (target ⟨count, fits⟩)

/-- Sixteen workers register and fall silent for 80 seconds; then worker 0
registers and answers its challenge. -/
def namelessRun : List MasterEvent :=
  crowdHellos 16 ++ [MasterEvent.expire 801, exampleHello 0 801, exampleCapAck 0 802]

/-- The master after the ageing pass of that run. -/
def crowdExpired : Master :=
  { crowd 16 with
    registry := fun i => expireEntry 801 ((crowd 16).registry i) }

def namelessRegistered : Master := helloApplied crowdExpired 0 0 801

def namelessActivated : Master := capAckApplied namelessRegistered 0 0 802

theorem masterAfter_namelessRun : masterAfter exampleMaster namelessRun = namelessActivated := by
  have aged : masterNext exampleMaster (crowd 16) (MasterEvent.expire 801) = crowdExpired := rfl
  have registered :
      masterNext exampleMaster crowdExpired (exampleHello 0 801) = namelessRegistered :=
    masterNext_exampleHello (by decide +kernel) (by decide +kernel)
  have activated :
      masterNext exampleMaster namelessRegistered (exampleCapAck 0 802) = namelessActivated :=
    masterNext_exampleCapAck (by decide +kernel) (by decide +kernel) rfl
      (exampleAnswer_answers rfl rfl)
  rw [namelessRun, masterAfter_append, masterAfter_crowdHellos 16 (Nat.le_refl _)]
  simp only [after_cons, after_nil, aged, registered, activated]

/-- Worker 0 is `ACTIVE` in slot 0, and the registration of worker 99
overwrites it. -/
theorem nameless_worker_overwritten :
    (namelessRun.map MasterEvent.clock).Pairwise (· ≤ ·) ∧
      ((masterAfter exampleMaster namelessRun).registry 0).state = .active ∧
      ((masterAfter exampleMaster namelessRun).registry 0).info.workerId = 0 ∧
      ((masterAfter exampleMaster
        (namelessRun ++ [exampleHello 99 803])).registry 0).info.workerId =
        99 ∧
      ¬ IntactThroughout exampleMaster namelessRun := by
  have isActive : (namelessActivated.registry 0).state = .active := by decide +kernel
  have isZero : (namelessActivated.registry 0).info.workerId = 0 := by decide +kernel
  have overwritten :
      masterNext exampleMaster namelessActivated (exampleHello 99 803) =
        helloApplied namelessActivated 0 99 803 :=
    masterNext_exampleHello (by decide +kernel) (by decide +kernel)
  have later :
      masterAfter exampleMaster (namelessRun ++ [exampleHello 99 803]) =
        helloApplied namelessActivated 0 99 803 := by
    rw [masterAfter_append, masterAfter_namelessRun, after_cons, after_nil, overwritten]
  refine ⟨by decide +kernel, ?_, ?_, ?_, ?_⟩
  · rw [masterAfter_namelessRun, isActive]
  · rw [masterAfter_namelessRun, isZero]
  · rw [later]
    rfl
  · rintro ⟨_, steps⟩
    have split :
        namelessRun =
          (crowdHellos 16 ++ [MasterEvent.expire 801, exampleHello 0 801]) ++
            [exampleCapAck 0 802] := by
      rw [namelessRun, List.append_assoc]
      rfl
    have last :
        StepIntact exampleMaster
          (masterAfter exampleMaster (crowdHellos 16 ++
              [MasterEvent.expire 801, exampleHello 0 801]))
          (exampleCapAck 0 802) :=
      (along_iff_split _ _ _ _).mp steps _ _ [] split
    have named := last.intact.activeNamed 0
    have reached :
        masterNext exampleMaster
            (masterAfter exampleMaster (crowdHellos 16 ++
                [MasterEvent.expire 801, exampleHello 0 801]))
            (exampleCapAck 0 802) =
          namelessActivated := by
      rw [masterNext, ← masterAfter_snoc, ← split, masterAfter_namelessRun]
    rw [reached] at named
    exact named isActive isZero

end LlmRuntime.Discovery
