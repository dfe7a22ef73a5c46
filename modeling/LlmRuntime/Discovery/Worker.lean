import LlmRuntime.Discovery.Steps

/-!
# The worker's side of registration

The three calls a worker sends to the master, and how the master handles each of
them when it is admitted.
-/

namespace LlmRuntime.Discovery

open Bytes Execution

/-- The `AUTH_HELLO` of `discovery_register`. -/
def helloMsg (xid : UInt32) (info : WorkerInfo) : RpcMsg :=
  rpcFillCall xid procAuthHello info.encode

def capAckMsg (xid : UInt32) (ack : CapAck) : RpcMsg := rpcFillCall xid procCapAck ack.encode

def heartbeatMsg (xid workerId : UInt32) : RpcMsg := rpcFillCall xid procHeartbeat (leWord workerId)

/-- The answer `discovery_register` computes from the master's reply; `none`
when it gives the registration up. -/
def answerProbe (backed : Bool) (reply : AuthHelloReply) : Option CapAck :=
  if reply.status ≠ 0 then none
  else
    (capProbeRun backed reply.probeSeed reply.probePages).map fun checksum =>
      ⟨reply.probeData, checksum, capIdentity reply.probeData⟩

theorem admitted_iff_allowed (master : Master) (src : RpcAddr)
    (now xid proc : UInt32) (payload : List UInt8) :
    Admitted master (rpcFillCall xid proc payload) src now ↔
      (discRlAllow master.discRl src now).2 = true := by
  simp [Admitted, rpcFillCall]

section Handled

variable (self : RpcAddr) {master : Master} {src : RpcAddr}
  {now : UInt32} (xid : UInt32) (entropy : Entropy)
  (allowed : (discRlAllow master.discRl src now).2 = true)

include allowed

/-- An admitted `AUTH_HELLO` with the right commitment is decided by what the
registry holds for its worker id. -/
theorem masterStep_hello (info : WorkerInfo) (rightPsk : info.pskHash = pskCommitment) :
    masterStep self master (.call (helloMsg xid info) src now entropy) =
      let metered := { master with discRl := (discRlAllow master.discRl src now).1 }
      match helloTarget master.registry info.workerId with
      | .duplicate existing =>
        (metered, [.reply src xid .success (storedProbe (master.registry existing)).encode])
      | .take slot => issueProbe metered slot info (helloMsg xid info) src now entropy
      | .full => (metered, answer src (helloMsg xid info) .systemErr) := by
  have admitted : Admitted master (helloMsg xid info) src now :=
    (admitted_iff_allowed master src now xid procAuthHello _).mpr allowed
  have decoded : WorkerInfo.decode (helloMsg xid info).payload = info :=
    WorkerInfo.decode_encode info
  have long : ¬ (helloMsg xid info).payload.length < WorkerInfo.size := by
    simp [helloMsg, rpcFillCall]
  have isHello : (helloMsg xid info).proc = procAuthHello := rfl
  simp only [masterStep, discoveryHandleCall_of_admitted admitted, dispatchCall, isHello, if_true,
    handleAuthHello, if_neg long, decoded, rightPsk, ne_eq, not_true_eq_false, if_false]
  cases helloTarget master.registry info.workerId <;> rfl

/-- An admitted `CAP_ACK` that answers the challenge of a pending entry
activates it. -/
theorem masterStep_capAck {ack : CapAck} {slot : Slot}
    (found : registryFindIpPort master.registry src = some slot)
    (isPending : (master.registry slot).state = .pending)
    (answers : answersChallenge ack (master.registry slot)) :
    masterStep self master (.call (capAckMsg xid ack) src now entropy) =
      ({ master with
          discRl := (discRlAllow master.discRl src now).1
          registry := (activate self master.registry slot now).2.1 },
        (activate self master.registry slot now).2.2 ++
          [.reply src xid .success (activate self master.registry slot now).1.encode]) := by
  have admitted : Admitted master (capAckMsg xid ack) src now :=
    (admitted_iff_allowed master src now xid procCapAck _).mpr allowed
  have decoded : CapAck.decode (capAckMsg xid ack).payload = ack := CapAck.decode_encode ack
  have long : CapAck.size ≤ (capAckMsg xid ack).payload.length := by simp [capAckMsg, rpcFillCall]
  rw [← decoded] at answers
  exact masterStep_of_acceptsAck self admitted rfl ⟨long, found, isPending, answers⟩

end Handled

def exampleMaster : RpcAddr := ⟨0x0a000202, 5499⟩

/-- An honest worker with one page of memory. -/
def exampleWorker (workerId : UInt32) : WorkerInfo where
  workerId := workerId
  ip := 0x0a000300 + workerId
  port := 10000 + workerId.toUInt16
  ram := 4096
  pskHash := pskCommitment
  nextIp := 0
  prevIp := 0

/-- An `AUTH_HELLO` of that worker, at a moment when both draws succeed. -/
def exampleHello (workerId now : UInt32) : MasterEvent :=
  .call (helloMsg 1 (exampleWorker workerId)) (exampleWorker workerId).addr now [some 11, some 13]

/-- The answer to the challenge those draws give. -/
def exampleAnswer : CapAck :=
  ⟨11, capProbeChecksum 13 1, capIdentity 11⟩

def exampleCapAck (workerId now : UInt32) : MasterEvent :=
  .call (capAckMsg 2 exampleAnswer) (exampleWorker workerId).addr now []

def helloApplied (master : Master) (slot : Slot) (workerId now : UInt32) : Master where
  registry :=
    Function.update master.registry slot
      (challengedEntry (master.registry slot) (exampleWorker workerId) now 11 13)
  discRl := (discRlAllow master.discRl (exampleWorker workerId).addr now).1
  discDrops := master.discDrops

def capAckApplied (master : Master) (slot : Slot) (workerId now : UInt32) : Master where
  registry := (activate exampleMaster master.registry slot now).2.1
  discRl := (discRlAllow master.discRl (exampleWorker workerId).addr now).1
  discDrops := master.discDrops

section ExampleSteps

variable {master : Master} {slot : Slot} {workerId now : UInt32}
  (allowed : (discRlAllow master.discRl (exampleWorker workerId).addr now).2 = true)

include allowed

theorem masterNext_exampleHello (target : helloTarget master.registry workerId = .take slot) :
    masterNext exampleMaster master (exampleHello workerId now) =
      helloApplied master slot workerId now := by
  have step :=
    masterStep_hello exampleMaster 1 [some 11, some 13] allowed (exampleWorker workerId) rfl
  rw [show (exampleWorker workerId).workerId = workerId from rfl, target] at step
  rw [masterNext, exampleHello, step]
  rfl

theorem masterStep_exampleCapAck
    (found : registryFindIpPort master.registry (exampleWorker workerId).addr = some slot)
    (isPending : (master.registry slot).state = .pending)
    (answers : answersChallenge exampleAnswer (master.registry slot)) :
    masterStep exampleMaster master (exampleCapAck workerId now) =
      (capAckApplied master slot workerId now,
        (activate exampleMaster master.registry slot now).2.2 ++
          [.reply (exampleWorker workerId).addr 2 .success
            (activate exampleMaster master.registry slot now).1.encode]) := by
  rw [exampleCapAck, capAckApplied,
    masterStep_capAck exampleMaster 2 [] allowed found isPending answers]

theorem masterNext_exampleCapAck
    (found : registryFindIpPort master.registry (exampleWorker workerId).addr = some slot)
    (isPending : (master.registry slot).state = .pending)
    (answers : answersChallenge exampleAnswer (master.registry slot)) :
    masterNext exampleMaster master (exampleCapAck workerId now) =
      capAckApplied master slot workerId now := by
  rw [masterNext, masterStep_exampleCapAck allowed found isPending answers]

end ExampleSteps

theorem exampleAnswer_answers {entry : WorkerEntry} (nonce : entry.capAckExpected.probeNonce = 11)
    (checksum : entry.capAckExpected.checksum = capProbeChecksum 13 (probePagesFor 4096)) :
    answersChallenge exampleAnswer entry := by
  have pages : probePagesFor 4096 = 1 := by decide
  refine ⟨nonce.symm, ?_, ?_⟩
  · rw [checksum, pages]
    rfl
  · rw [nonce]
    rfl

/-- A worker registers and becomes active. -/
def activeRun : List MasterEvent := [exampleHello 7 0, exampleCapAck 7 1]

def exampleRegistered : Master := helloApplied Master.init 0 7 0

/-- The master after worker 7 also answered its challenge. -/
def exampleActivated : Master := capAckApplied exampleRegistered 0 7 1

theorem masterNext_init_exampleHello :
    masterNext exampleMaster Master.init (exampleHello 7 0) =
      exampleRegistered := masterNext_exampleHello (by decide) (by decide)

theorem masterStep_exampleRegistered :
    masterStep exampleMaster exampleRegistered (exampleCapAck 7 1) =
      (exampleActivated,
        (activate exampleMaster exampleRegistered.registry 0 1).2.2 ++
          [.reply (exampleWorker 7).addr 2 .success
            (activate exampleMaster exampleRegistered.registry 0 1).1.encode]) :=
  masterStep_exampleCapAck (by decide) (by decide) rfl (exampleAnswer_answers rfl rfl)

theorem masterAfter_activeRun : masterAfter exampleMaster activeRun = exampleActivated := by
  have activated :
      masterNext exampleMaster exampleRegistered (exampleCapAck 7 1) =
        exampleActivated := by
    rw [masterNext, masterStep_exampleRegistered]
  simp only [masterAfter, activeRun, after_cons, after_nil, masterNext_init_exampleHello, activated]

end LlmRuntime.Discovery
