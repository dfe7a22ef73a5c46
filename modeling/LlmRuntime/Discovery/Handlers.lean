import LlmRuntime.Discovery.Registry

/-!
# The master's handlers

`discovery_handle_call` with its three procedures, and the ageing pass
`discovery_expire_workers`.  `self` is the address of the master, which closes
the ring.
-/

namespace LlmRuntime.Discovery

open Bytes Function

/-- `disc_drops`. -/
structure DiscDrops where
  malformed : UInt32
  rate : UInt32
  badprog : UInt32
  unknownproc : UInt32
  deriving DecidableEq, Repr

structure Master where
  registry : Registry
  discRl : DiscRl
  discDrops : DiscDrops

namespace Master

/-- All static storage zeroed, as at process start. -/
def init : Master where
  registry := fun _ => WorkerEntry.empty
  discRl := fun _ => ⟨0, 0, 0, 0, false⟩
  discDrops := ⟨0, 0, 0, 0⟩

def countMalformed (master : Master) : Master :=
  { master with
    discDrops := { master.discDrops with malformed := master.discDrops.malformed + 1 } }

def countRate (master : Master) : Master :=
  { master with
    discDrops := { master.discDrops with rate := master.discDrops.rate + 1 } }

def countBadprog (master : Master) : Master :=
  { master with
    discDrops := { master.discDrops with badprog := master.discDrops.badprog + 1 } }

def countUnknownproc (master : Master) : Master :=
  { master with
    discDrops :=
      { master.discDrops with
        unknownproc := master.discDrops.unknownproc + 1 } }

def setEntry (master : Master) (slot : Slot) (entry : WorkerEntry) : Master :=
  { master with registry := update master.registry slot entry }

@[simp]
theorem countMalformed_registry (master : Master) :
    master.countMalformed.registry = master.registry := rfl

@[simp]
theorem countRate_registry (master : Master) : master.countRate.registry = master.registry := rfl

@[simp]
theorem countBadprog_registry (master : Master) : master.countBadprog.registry = master.registry :=
  rfl

@[simp]
theorem countUnknownproc_registry (master : Master) :
    master.countUnknownproc.registry = master.registry := rfl

@[simp]
theorem setEntry_registry (master : Master) (slot : Slot) (entry : WorkerEntry) :
    (master.setEntry slot entry).registry = update master.registry slot entry := rfl

end Master

def answer (src : RpcAddr) (msg : RpcMsg) (stat : AcceptStat) : List Outgoing :=
  [.reply src msg.xid stat []]

/-- What an accepted `AUTH_HELLO` finds for its worker id: a live entry that is
answered again, a slot to (re)write, or a full table. -/
inductive HelloTarget where
  | duplicate (existing : Slot)
  | take (slot : Slot)
  | full
  deriving DecidableEq, Repr

def helloTarget (registry : Registry) (workerId : UInt32) : HelloTarget :=
  match registryFind registry workerId with
  | some existing =>
    if (registry existing).state ≠ .expired then .duplicate existing
    else .take existing
  | none =>
    match registryFreeSlot registry with
    | some slot => .take slot
    | none => .full

/-- The probe stored in an entry, as the duplicate path sends it again. -/
def storedProbe (entry : WorkerEntry) : AuthHelloReply where
  status := 0
  probeData := entry.capAckExpected.probeNonce
  probeSeed := entry.probeSeed
  probePages := entry.probePages

/-- The nonce and the seed drawn for one `AUTH_HELLO`. -/
def drawProbe (entropy : Entropy) : UInt32 × UInt32 :=
  let (nonce, rest) := createProbeData entropy
  (nonce, (createProbeData rest).1)

/-- The entry as the registration writes it before any entropy is drawn. -/
def registeredEntry (entry : WorkerEntry) (info : WorkerInfo) (now : UInt32) : WorkerEntry :=
  { entry with info := info, lastSeenMs := now, state := .pending }

def challengedEntry (entry : WorkerEntry) (info : WorkerInfo) (now nonce seed : UInt32) :
    WorkerEntry :=
  { registeredEntry entry info now with
    probeSeed := seed
    probePages := probePagesFor info.ram
    capAckExpected :=
      { probeNonce := nonce
        checksum := capProbeChecksum seed (probePagesFor info.ram)
        identity := Vector.replicate 32 0 } }

/-- The part of `handle_auth_hello` behind the choice of the slot.  When the
entropy fails the entry has already been rewritten. -/
def issueProbe (master : Master) (slot : Slot) (info : WorkerInfo)
    (msg : RpcMsg) (src : RpcAddr) (now : UInt32) (entropy : Entropy) :
    Master × List Outgoing :=
  let entry := master.registry slot
  let (nonce, seed) := drawProbe entropy
  if nonce = 0 ∨ seed = 0 then
    (master.setEntry slot (registeredEntry entry info now), answer src msg .systemErr)
  else
    let challenged := challengedEntry entry info now nonce seed
    (master.setEntry slot challenged, [.reply src msg.xid .success (storedProbe challenged).encode])

def handleAuthHello (master : Master) (msg : RpcMsg) (src : RpcAddr)
    (now : UInt32) (entropy : Entropy) : Master × List Outgoing :=
  if msg.payload.length < WorkerInfo.size then (master.countMalformed, answer src msg .garbageArgs)
  else
    let info := WorkerInfo.decode msg.payload
    if info.pskHash ≠ pskCommitment then (master, answer src msg .garbageArgs)
    else
      match helloTarget master.registry info.workerId with
      | .duplicate existing =>
        (master, [.reply src msg.xid .success (storedProbe (master.registry existing)).encode])
      | .take slot => issueProbe master slot info msg src now entropy
      | .full => (master, answer src msg .systemErr)

/-- The three comparisons of `handle_cap_ack` against the stored challenge. -/
def answersChallenge (ack : CapAck) (entry : WorkerEntry) : Prop :=
  ack.probeNonce = entry.capAckExpected.probeNonce ∧
    ack.checksum = entry.capAckExpected.checksum ∧
    ack.identity = capIdentity entry.capAckExpected.probeNonce

/-- The neighbours a newly activated worker gets, and the registry with the
predecessor's `next` redirected to it. -/
def spliceIn (self : RpcAddr) (registry : Registry) (slot : Slot) :
    SetNeighbor × Registry × List Outgoing :=
  match findPrevActiveWorker registry slot with
  | none => (⟨self, self⟩, registry, [])
  | some prevSlot =>
    let predecessor := registry prevSlot
    let newAddr := (registry slot).info.addr
    (⟨predecessor.info.addr, predecessor.next⟩,
      update registry prevSlot { predecessor with next := newAddr },
      [.call predecessor.info.addr procSetNeighbor
        (SetNeighbor.encode ⟨predecessor.prev, newAddr⟩)])

/-- The entry marked active by a correct `CAP_ACK`. -/
def activatedEntry (entry : WorkerEntry) (now : UInt32) : WorkerEntry :=
  { entry with lastSeenMs := now, state := .active }

/-- The part of `handle_cap_ack` behind the checks. -/
def activate (self : RpcAddr) (registry : Registry) (slot : Slot) (now : UInt32) :
    SetNeighbor × Registry × List Outgoing :=
  let (neighbors, spliced, sent) :=
    spliceIn self (update registry slot (activatedEntry (registry slot) now)) slot
  (neighbors, update spliced slot { spliced slot with
        prev := neighbors.prev, next := neighbors.next },
    sent)

def handleCapAck (self : RpcAddr) (master : Master) (msg : RpcMsg) (src : RpcAddr)
    (now : UInt32) : Master × List Outgoing :=
  if msg.payload.length < CapAck.size then (master.countMalformed, answer src msg .garbageArgs)
  else
    match registryFindIpPort master.registry src with
    | none => (master, answer src msg .systemErr)
    | some slot =>
      let entry := master.registry slot
      let ack := CapAck.decode msg.payload
      if entry.state ≠ .pending then (master, answer src msg .systemErr)
      else if ack.probeNonce ≠ entry.capAckExpected.probeNonce then
        (master, answer src msg .garbageArgs)
      else if ack.checksum ≠ entry.capAckExpected.checksum then
        (master, answer src msg .garbageArgs)
      else if
          ack.identity ≠ capIdentity entry.capAckExpected.probeNonce then
        (master, answer src msg .garbageArgs)
      else
        let (neighbors, registry, sent) := activate self master.registry slot now
        ({ master with registry := registry },
          sent ++ [.reply src msg.xid .success neighbors.encode])

def heartbeatEntry (entry : WorkerEntry) (now : UInt32) : WorkerEntry :=
  { entry with
    lastSeenMs := now
    state := if entry.state = .suspected then .active else entry.state }

def handleHeartbeat (master : Master) (msg : RpcMsg) (src : RpcAddr) (now : UInt32) :
    Master × List Outgoing :=
  if msg.payload.length < 4 then (master.countMalformed, answer src msg .garbageArgs)
  else
    match registryFind master.registry (readLeWord msg.payload).1 with
    | none => (master, answer src msg .systemErr)
    | some slot =>
      let entry := master.registry slot
      (master.setEntry slot (heartbeatEntry entry now), answer src msg
          (if entry.state = .expired then .systemErr else .success))

/-- The procedure switch behind admission control and the program check. -/
def dispatchCall (self : RpcAddr) (master : Master) (msg : RpcMsg) (src : RpcAddr)
    (now : UInt32) (entropy : Entropy) : Master × List Outgoing :=
  if msg.proc = procAuthHello then handleAuthHello master msg src now entropy
  else if msg.proc = procHeartbeat then handleHeartbeat master msg src now
  else if msg.proc = procCapAck then handleCapAck self master msg src now
  else (master.countUnknownproc, answer src msg .procUnavail)

def discoveryHandleCall (self : RpcAddr) (master : Master) (msg : RpcMsg) (src : RpcAddr)
    (now : UInt32) (entropy : Entropy) : Master × List Outgoing :=
  if msg.mtype ≠ .call then (master, [])
  else
    let (buckets, allowed) := discRlAllow master.discRl src now
    let metered := { master with discRl := buckets }
    if ¬ allowed then (metered.countRate, [])
    else if msg.prog ≠ inferenceProg ∨ msg.vers ≠ inferenceVers then
      (metered.countBadprog, answer src msg .progUnavail)
    else dispatchCall self metered msg src now entropy

def expireEntry (now : UInt32) (entry : WorkerEntry) : WorkerEntry :=
  if entry.info.workerId = 0 then entry
  else if entry.state = .expired then entry
  else
    let age := now - entry.lastSeenMs
    if age > expiredTimeout then
      { entry with state := .expired }
    else if age > suspectedTimeout ∧ entry.state ≠ .suspected then
      { entry with state := .suspected }
    else entry

/-- `master_send_evict` for every entry the pass expires. -/
def evictions (now : UInt32) (registry : Registry) : List Outgoing :=
  ((List.finRange maxWorkers).filter fun i =>
    (registry i).state ≠ .expired ∧
      (expireEntry now (registry i)).state = .expired).map fun i =>
    .call (registry i).info.addr procEvict (leWord (registry i).info.workerId)

/-- `discovery_expire_workers`; each pass of its loop reads and writes one
entry only. -/
def discoveryExpireWorkers (master : Master) (now : UInt32) : Master × List Outgoing :=
  ({ master with registry := fun i => expireEntry now (master.registry i) },
    evictions now master.registry)

def activeSlots (registry : Registry) : List Slot :=
  (List.finRange maxWorkers).filter fun i => isActive registry i

def discoveryRingOrder (registry : Registry) (max : Nat) : List Slot :=
  (activeSlots registry).take max

/-- Pass `k` of the loop of `discovery_restitch_ring`. -/
def restitchPass (self : RpcAddr) (slots : List Slot) (registry : Registry) (k : Nat) : Registry :=
  match slots[k]? with
  | none => registry
  | some slot =>
    update registry slot
      { registry slot with
        prev :=
          if k = 0 then self
          else (slots[k - 1]?.map fun i => (registry i).info.addr).getD self
        next :=
          if k + 1 = slots.length then self
          else (slots[k + 1]?.map fun i => (registry i).info.addr).getD self }

def discoveryRestitchRing (self : RpcAddr) (registry : Registry) : Registry × Nat :=
  let slots := discoveryRingOrder registry maxWorkers
  ((List.range slots.length).foldl (restitchPass self slots) registry, slots.length)

/-- One thing that happens to the registry: a received message is handled at
some clock value with some entropy, or the ageing pass runs. -/
inductive MasterEvent where
  | call (msg : RpcMsg) (src : RpcAddr) (now : UInt32) (entropy : Entropy)
  | expire (now : UInt32)
  deriving DecidableEq

namespace MasterEvent

def clock : MasterEvent → UInt32
  | .call _ _ now _ => now
  | .expire now => now

end MasterEvent

def masterStep (self : RpcAddr) (master : Master) :
    MasterEvent → Master × List Outgoing
  | .call msg src now entropy => discoveryHandleCall self master msg src now entropy
  | .expire now => discoveryExpireWorkers master now

end LlmRuntime.Discovery
