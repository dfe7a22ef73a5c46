import LlmRuntime.Rpc
import LlmRuntime.Sha256

/-!
# The worker registry

The records that travel between a worker and the master, the lookups over the
sixteen slots of `discovery.c` and the admission control.
-/

namespace LlmRuntime.Discovery

open Bytes

abbrev maxWorkers : Nat := 16

instance : NeZero maxWorkers where
  out := by decide

abbrev Slot := Fin maxWorkers

inductive WorkerState where
  | pending
  | active
  | suspected
  | expired
  deriving DecidableEq, Repr

def suspectedTimeout : UInt32 := 200 * 2
def expiredTimeout : UInt32 := 200 * 4

/-- `worker_info_t`, a raw little-endian record of 56 bytes with two bytes of
padding behind `port`. -/
structure WorkerInfo where
  workerId : UInt32
  ip : UInt32
  port : UInt16
  ram : UInt32
  pskHash : Digest
  nextIp : UInt32
  prevIp : UInt32
  deriving DecidableEq

namespace WorkerInfo

def size : Nat := 56

def addr (info : WorkerInfo) : RpcAddr :=
  ⟨info.ip, info.port⟩

def encode (info : WorkerInfo) : List UInt8 :=
  leWord info.workerId ++ (leWord info.ip ++ (leHalf info.port ++
    ([0, 0] ++ (leWord info.ram ++ (info.pskHash.toList ++
      (leWord info.nextIp ++ (leWord info.prevIp ++ [])))))))

def decode (bytes : List UInt8) : WorkerInfo :=
  let (workerId, afterId) := readLeWord bytes
  let (ip, afterIp) := readLeWord afterId
  let (port, afterPort) := readLeHalf afterIp
  let (ram, afterRam) := readLeWord (afterPort.drop 2)
  let (pskHash, afterHash) := readBlock 32 afterRam
  let (nextIp, afterNext) := readLeWord afterHash
  let (prevIp, _) := readLeWord afterNext
  { workerId, ip, port, ram, pskHash, nextIp, prevIp }

@[simp]
theorem decode_encode (info : WorkerInfo) : decode (encode info) = info := by
  simp only [decode, encode, readLeWord_leWord, readLeHalf_leHalf, readBlock_toList,
    List.cons_append, List.nil_append, List.drop_succ_cons, List.drop_zero]

@[simp]
theorem encode_length (info : WorkerInfo) : (encode info).length = size := by
  simp [encode, size, leWord, leHalf]

end WorkerInfo

/-- `cap_ack_t`: the answer to a challenge, 40 bytes. -/
structure CapAck where
  probeNonce : UInt32
  checksum : UInt32
  identity : Digest
  deriving DecidableEq

namespace CapAck

def size : Nat := 40

def encode (ack : CapAck) : List UInt8 :=
  leWord ack.probeNonce ++ (leWord ack.checksum ++ (ack.identity.toList ++ []))

def decode (bytes : List UInt8) : CapAck :=
  let (probeNonce, afterNonce) := readLeWord bytes
  let (checksum, afterChecksum) := readLeWord afterNonce
  let (identity, _) := readBlock 32 afterChecksum
  { probeNonce, checksum, identity }

@[simp]
theorem decode_encode (ack : CapAck) : decode (encode ack) = ack := by
  simp only [decode, encode, readLeWord_leWord, readBlock_toList]

@[simp]
theorem encode_length (ack : CapAck) : (encode ack).length = size := by
  simp [encode, size, leWord]

end CapAck

/-- `auth_hello_reply_t`; `status` is always `WORKER_PENDING`, which is 0. -/
structure AuthHelloReply where
  status : UInt32
  probeData : UInt32
  probeSeed : UInt32
  probePages : UInt32
  deriving DecidableEq, Repr

namespace AuthHelloReply

def size : Nat := 16

def encode (reply : AuthHelloReply) : List UInt8 :=
  leWord reply.status ++ (leWord reply.probeData ++
    (leWord reply.probeSeed ++ (leWord reply.probePages ++ [])))

def decode (bytes : List UInt8) : AuthHelloReply :=
  let (status, afterStatus) := readLeWord bytes
  let (probeData, afterData) := readLeWord afterStatus
  let (probeSeed, afterSeed) := readLeWord afterData
  let (probePages, _) := readLeWord afterSeed
  { status, probeData, probeSeed, probePages }

@[simp]
theorem decode_encode (reply : AuthHelloReply) : decode (encode reply) = reply := by
  simp only [decode, encode, readLeWord_leWord]

@[simp]
theorem encode_length (reply : AuthHelloReply) : (encode reply).length = size := by
  simp [encode, size, leWord]

end AuthHelloReply

/-- `set_neighbor_t`, 16 bytes; the ports are followed by padding. -/
structure SetNeighbor where
  prev : RpcAddr
  next : RpcAddr
  deriving DecidableEq, Repr

namespace SetNeighbor

def size : Nat := 16

def encode (neighbors : SetNeighbor) : List UInt8 :=
  leWord neighbors.prev.ip ++ (leHalf neighbors.prev.port ++ ([0, 0] ++
    (leWord neighbors.next.ip ++ (leHalf neighbors.next.port ++ [0, 0]))))

def decode (bytes : List UInt8) : SetNeighbor :=
  let (prevIp, afterPrevIp) := readLeWord bytes
  let (prevPort, afterPrevPort) := readLeHalf afterPrevIp
  let (nextIp, afterNextIp) := readLeWord (afterPrevPort.drop 2)
  let (nextPort, _) := readLeHalf afterNextIp
  { prev := ⟨prevIp, prevPort⟩, next := ⟨nextIp, nextPort⟩ }

@[simp]
theorem decode_encode (neighbors : SetNeighbor) : decode (encode neighbors) = neighbors := by
  simp only [decode, encode, readLeWord_leWord, readLeHalf_leHalf,
    List.cons_append, List.nil_append, List.drop_succ_cons, List.drop_zero]

@[simp]
theorem encode_length (neighbors : SetNeighbor) : (encode neighbors).length = size := by
  simp [encode, size, leWord, leHalf]

end SetNeighbor

/-- `worker_entry_t`.  `prev` and `next` pair the source's ip and port fields;
`probe_expected` is left out, nothing reads or writes it. -/
structure WorkerEntry where
  info : WorkerInfo
  lastSeenMs : UInt32
  state : WorkerState
  capAckExpected : CapAck
  probeSeed : UInt32
  probePages : UInt32
  next : RpcAddr
  prev : RpcAddr
  deriving DecidableEq

abbrev Registry := Slot → WorkerEntry

/-- A zero-initialised slot. -/
def WorkerEntry.empty : WorkerEntry where
  info := ⟨0, 0, 0, 0, Vector.replicate 32 0, 0, 0⟩
  lastSeenMs := 0
  state := .pending
  capAckExpected := ⟨0, 0, Vector.replicate 32 0⟩
  probeSeed := 0
  probePages := 0
  next := ⟨0, 0⟩
  prev := ⟨0, 0⟩

def registryFind (registry : Registry) (workerId : UInt32) : Option Slot :=
  (List.finRange maxWorkers).find? fun i =>
    (registry i).info.workerId = workerId

def registryFindIpPort (registry : Registry) (addr : RpcAddr) : Option Slot :=
  (List.finRange maxWorkers).find? fun i =>
    (registry i).info.ip = addr.ip ∧ (registry i).info.port = addr.port

def registryFreeSlot (registry : Registry) : Option Slot :=
  (List.finRange maxWorkers).find? fun i =>
    (registry i).state = .expired ∨ (registry i).info.workerId = 0

/-- A slot that `discovery_ring_order` counts: in use and `WORKER_ACTIVE`. -/
def isActive (registry : Registry) (i : Slot) : Prop :=
  (registry i).info.workerId ≠ 0 ∧ (registry i).state = .active

instance (registry : Registry) : DecidablePred (isActive registry) :=
  fun _ => inferInstanceAs (Decidable (_ ∧ _))

/-- The slot `offset` places before `current`, wrapping around. -/
def slotBefore (current : Slot) (offset : Nat) : Slot :=
  ⟨(current.val + maxWorkers - offset) % maxWorkers, Nat.mod_lt _ (by decide)⟩

def findPrevActiveWorker (registry : Registry) (current : Slot) : Option Slot :=
  ((List.range' 1 (maxWorkers - 1)).map (slotBefore current)).find? fun i => isActive registry i

/-- The outcomes of successive `getentropy` calls: a word, or a failure. -/
abbrev Entropy := List (Option UInt32)

/-- The retry loop of `create_probe_data` with `attempts` passes left. -/
def probeDataLoop : Nat → Entropy → UInt32 × Entropy
  | 0, entropy => (0, entropy)
  | _ + 1, [] => (0, [])
  | _ + 1, none :: rest => (0, rest)
  | attempts + 1, some nonce :: rest =>
    if nonce ≠ 0 then (nonce, rest) else probeDataLoop attempts rest

def createProbeData (entropy : Entropy) : UInt32 × Entropy := probeDataLoop 2 entropy

def capProbePgsize : UInt32 := 4096
def capProbeCeilingBytes : UInt32 := 32 * 1024 * 1024

def capProbeLoop : Nat → UInt32 → UInt32 → UInt32
  | 0, _, sum => sum
  | pages + 1, x, sum =>
    let word := x * 1103515245 + 12345
    capProbeLoop pages word (sum + word)

def capProbeChecksum (seed pages : UInt32) : UInt32 := capProbeLoop pages.toNat seed 0

/-- The page count asked for a RAM claim: the claim capped at the ceiling, and
never less than one page. -/
def probePagesFor (ram : UInt32) : UInt32 :=
  let probeBytes :=
    if ram < capProbeCeilingBytes then ram else capProbeCeilingBytes
  let pages := probeBytes / capProbePgsize
  if pages = 0 then 1 else pages

/-- `cap_probe_run` on the worker; `backed` says whether `malloc` succeeds. -/
def capProbeRun (backed : Bool) (seed pages : UInt32) : Option UInt32 :=
  if pages = 0 ∨ pages > capProbeCeilingBytes / capProbePgsize then none
  else if backed then some (capProbeChecksum seed pages)
  else none

def distinfPsk : List UInt8 := "distinf-shared-psk-v1".toList.map fun c => UInt8.ofNat c.toNat

/-- The commitment `SHA-256(PSK)` expected in an `AUTH_HELLO`. -/
def pskCommitment : Digest := Sha256.sha256Hash distinfPsk

def capIdentity (nonce : UInt32) : Digest :=
  -- what the contexts on the stack hold does not matter
  hmacSha256 Sha256.sha256Init Sha256.sha256Init distinfPsk (leWord nonce)

abbrev discoveryRlSlots : Nat := 8

instance : NeZero discoveryRlSlots where
  out := by decide

def discoveryRlBurst : Int := 32
def discoveryRlRefillTicks : UInt32 := 1

structure DiscBucket where
  ip : UInt32
  port : UInt16
  tokens : Int
  last : UInt32
  used : Bool
  deriving DecidableEq, Repr

abbrev DiscRl := Fin discoveryRlSlots → DiscBucket

/-- A value stored in a C `int`. -/
def wrapInt (value : Int) : Int := Int.bmod value (2 ^ 32)

/-- The slot scan of `disc_rl_allow`: the peer's bucket if there is one, and
the slot to claim otherwise. -/
def discRlScan (buckets : DiscRl) (addr : RpcAddr) :
    List (Fin discoveryRlSlots) → Fin discoveryRlSlots →
      Option (Fin discoveryRlSlots) × Fin discoveryRlSlots
  | [], lru => (none, lru)
  | i :: rest, lru =>
    if (buckets i).used ∧ (buckets i).ip = addr.ip ∧
        (buckets i).port = addr.port then
      (some i, lru)
    else
      discRlScan buckets addr rest
        (if ¬ (buckets i).used ∨ (buckets i).tokens > (buckets lru).tokens
          then i else lru)

/-- Refill and spend on one bucket, in that order. -/
def discRlSpend (bucket : DiscBucket) (now : UInt32) : DiscBucket × Bool :=
  let add := (now - bucket.last) / discoveryRlRefillTicks
  let filled :=
    if add ≠ 0 then
      let tokens := wrapInt (bucket.tokens + wrapInt add.toNat)
      { bucket with
        tokens := if tokens > discoveryRlBurst then discoveryRlBurst
          else tokens
        last := now }
    else bucket
  if filled.tokens ≤ 0 then (filled, false)
  else ({ filled with tokens := filled.tokens - 1 }, true)

def discRlAllow (buckets : DiscRl) (addr : RpcAddr) (now : UInt32) : DiscRl × Bool :=
  let (found, lru) := discRlScan buckets addr (List.finRange discoveryRlSlots) 0
  let (place, bucket) : Fin discoveryRlSlots × DiscBucket :=
    match found with
    | some i => (i, buckets i)
    | none => (lru, ⟨addr.ip, addr.port, discoveryRlBurst, now, true⟩)
  let (spent, allowed) := discRlSpend bucket now
  (Function.update buckets place spent, allowed)

end LlmRuntime.Discovery
