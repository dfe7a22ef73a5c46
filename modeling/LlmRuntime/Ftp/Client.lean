import LlmRuntime.Ftp.Server

/-!
# The fetch client

`user/ftpclient.c`: the chunks that meet a byte window of a file are requested
in batches, the missing ones again in rounds.  The operating system is an
explicit state: what the coming receives will return, what arrives in answer to
a request, which of the coming calls fail, and the datagrams sent.  A receive
that returns nothing is `none`.
-/

namespace LlmRuntime.Ftp

open Bytes

def maxRange : UInt32 := 8
def maxRetrans : UInt32 := 16
def maxReceiveSpins : Nat := 100000
def maxRetryRounds : Nat := 50
def retransStallLimit : Nat := 6
def maxIdleRecvs : Nat := 3

/-- The byte count of a chunk, as the client computes with it. -/
def chunkBytes : UInt32 := 512

/-- `spent` records that some receive loop used up all its spins. -/
structure Host where
  incoming : List (Option (List UInt8))
  network : List UInt8 → List (Option (List UInt8))
  failures : List Bool
  sent : List (List UInt8)
  spent : Bool

/-- A call that can fail: `bind`, `malloc` or `send`. -/
def Host.attempt (host : Host) : Bool × Host :=
  match host.failures with
  | [] => (true, host)
  | fails :: rest => (!fails, { host with failures := rest })

/-- `send`: false when it fails. -/
def Host.send (host : Host) (datagram : List UInt8) : Bool × Host :=
  match host.attempt with
  | (false, host) => (false, host)
  | (true, host) =>
    (true, { host with
        sent := host.sent ++ [datagram]
        incoming := host.incoming ++ host.network datagram })

/-- `recv_timed`: an empty datagram is as good as none. -/
def Host.recvTimed (host : Host) (size : Nat) : Option (List UInt8) × Host :=
  match host.incoming with
  | [] => (none, host)
  | result :: rest =>
    let host := { host with incoming := rest }
    match result with
    | none => (none, host)
    | some datagram =>
      if datagram.isEmpty then (none, host)
      else (some (datagram.take size), host)

/-- A blocking `recv`, which returns with the next datagram or never. -/
def recvFrom : List (Option (List UInt8)) →
    Option (List UInt8 × List (Option (List UInt8)))
  | [] => none
  | none :: rest => recvFrom rest
  | some datagram :: rest => some (datagram, rest)

/-- `transfer_ctx_t`; `fileBuf` and `received` are read and written by
offset. -/
structure TransferCtx where
  fileBuf : Nat → UInt8
  received : Nat → Bool
  fileSize : UInt32
  totalChunks : UInt32
  winOff : UInt32
  winLen : UInt32
  firstChunk : UInt32
  nChunks : UInt32

/-- A loop over `[start, stop)` of 32-bit indices. -/
def indices (start stop : UInt32) : List UInt32 :=
  (List.range' start.toNat (stop.toNat - start.toNat)).map UInt32.ofNat

namespace TransferCtx

variable (ctx : TransferCtx)

def allChunksReceived : Bool := (List.range ctx.nChunks.toNat).all ctx.received

def countReceivedChunks : Nat := (List.range ctx.nChunks.toNat).countP ctx.received

def chunkInWindow (chunkIdx : UInt32) : Bool :=
  ctx.firstChunk ≤ chunkIdx && chunkIdx < ctx.firstChunk + ctx.nChunks

/-- The entry of `received` for a chunk of the window. -/
def hasChunk (chunkIdx : UInt32) : Bool := ctx.received (chunkIdx - ctx.firstChunk).toNat

def isMissing (chunkIdx : UInt32) : Bool := ctx.chunkInWindow chunkIdx && !ctx.hasChunk chunkIdx

def countMissingInRange (start stop : UInt32) : Nat := (indices start stop).countP ctx.isMissing

def getMissingInRange (start stop : UInt32) : List UInt32 :=
  ((indices start stop).filter ctx.isMissing).take maxRetrans.toNat

end TransferCtx

def metaRequest (fileId : UInt8) : List UInt8 := [msgMetaReq, fileId, 0, 0]

def dataRangeRequest (fileId : UInt8) (startIdx : UInt32) (count : UInt16) : List UInt8 :=
  [msgDataRangeReq, fileId] ++ beHalf count ++ [0, 0, 0, 0] ++ beWord startIdx

def retransRequest (fileId : UInt8) (missing : List UInt32) : List UInt8 :=
  [msgRetransReq, fileId] ++ beHalf (UInt16.ofNat missing.length) ++ beWords missing

def packetIndex (packet : List UInt8) : UInt32 := (readBeWord (packet.drop 4)).1

/-- The declared payload length of a received packet. -/
def packetLength (packet : List UInt8) : UInt32 := (readBeHalf (packet.drop 8)).1.toUInt32

/-- `memcpy` of `count` bytes from offset `src` of a packet. -/
def copyBytes (buffer : Nat → UInt8) (dst : Nat) (packet : List UInt8)
    (src count : Nat) : Nat → UInt8 :=
  fun i =>
    if dst ≤ i ∧ i < dst + count then packet.getD (src + (i - dst)) 0
    else buffer i

/-- The first and last file byte of a chunk that the window wants. -/
def copySpan (ctx : TransferCtx) (chunkIdx payloadLen : UInt32) : UInt32 × UInt32 :=
  let chunkStart := chunkIdx * chunkBytes
  let chunkEnd := chunkStart + payloadLen
  let winEnd := ctx.winOff + ctx.winLen
  (if chunkStart > ctx.winOff then chunkStart else ctx.winOff,
    if chunkEnd < winEnd then chunkEnd else winEnd)

/-- The copy and the mark of an accepted chunk. -/
def storeChunk (ctx : TransferCtx) (packet : List UInt8)
    (chunkIdx payloadLen : UInt32) : TransferCtx :=
  let (copyStart, copyEnd) := copySpan ctx chunkIdx payloadLen
  let chunkStart := chunkIdx * chunkBytes
  { ctx with
    fileBuf :=
      if copyStart < copyEnd then
        copyBytes ctx.fileBuf (copyStart - ctx.winOff).toNat packet
          (12 + (copyStart - chunkStart).toNat) (copyEnd - copyStart).toNat
      else ctx.fileBuf
    received := Function.update ctx.received (chunkIdx - ctx.firstChunk).toNat true }

/-- `process_data_packet`: -1 for a packet that is refused, 0 for a duplicate,
1 for a new chunk. -/
def processDataPacket (ctx : TransferCtx) (packet : List UInt8) : Int × TransferCtx :=
  if packet.length < 12 then (-1, ctx)
  else if packet.getD 0 0 ≠ msgDataPacket then (-1, ctx)
  else
    let chunkIdx := packetIndex packet
    let payloadLen := packetLength packet
    if ctx.totalChunks ≤ chunkIdx then (-1, ctx)
    else if ¬ ctx.chunkInWindow chunkIdx then (-1, ctx)
    else if packet.length < 12 + payloadLen.toNat then (-1, ctx)
    else if chunkIdx * chunkBytes + payloadLen > ctx.fileSize then (-1, ctx)
    else if ctx.hasChunk chunkIdx then (0, ctx)
    else (1, storeChunk ctx packet chunkIdx payloadLen)

/-- The loop that both passes receive with, until `finished` holds, three
receives in a row give nothing, or the spins are used up. -/
def receiveLoop (finished : TransferCtx → Bool) :
    Nat → Nat → Host → TransferCtx → Host × TransferCtx
  | 0, _, host, ctx => ({ host with spent := true }, ctx)
  | spins + 1, idle, host, ctx =>
    match host.recvTimed (12 + chunkSize) with
    | (some packet, host) =>
      let ctx := (processDataPacket ctx packet).2
      if finished ctx then (host, ctx)
      else receiveLoop finished spins 0 host ctx
    | (none, host) =>
      if maxIdleRecvs ≤ idle + 1 then (host, ctx)
      else if finished ctx then (host, ctx)
      else receiveLoop finished spins (idle + 1) host ctx

/-- `request_chunk_range`, without the count it returns and nobody reads. -/
def requestChunkRange (fileId : UInt8) (startIdx : UInt32) (count : UInt16) (host : Host)
    (ctx : TransferCtx) : Host × TransferCtx :=
  let stop := startIdx + count.toUInt32
  if ctx.countMissingInRange startIdx stop = 0 then (host, ctx)
  else
    match host.send (dataRangeRequest fileId startIdx count) with
    | (false, host) => (host, ctx)
    | (true, host) =>
      receiveLoop (fun ctx => ctx.countMissingInRange startIdx stop == 0)
        (maxReceiveSpins / 10) 0 host ctx

/-- The starts of the pieces of `size` chunks that a loop over the window
visits. -/
def pieceStarts (first stop size : UInt32) : List UInt32 :=
  (List.range ((stop.toNat - first.toNat + size.toNat - 1) / size.toNat)).map
      fun k => first + UInt32.ofNat (k * size.toNat)

/-- The first pass of `llm_fetch_window` over the window. -/
def requestBatches (fileId : UInt8) (stop : UInt32) :
    List UInt32 → Host → TransferCtx → Host × TransferCtx
  | [], host, ctx => (host, ctx)
  | startIdx :: rest, host, ctx =>
    let count : UInt16 :=
      if startIdx + maxRange > stop then (stop - startIdx).toUInt16
      else maxRange.toUInt16
    let (host, ctx) := requestChunkRange fileId startIdx count host ctx
    requestBatches fileId stop rest host ctx

/-- One group of `handle_missing_chunks`. -/
def recoverGroup (fileId : UInt8) (start : UInt32) (host : Host) (ctx : TransferCtx) :
    Host × TransferCtx :=
  let missing := ctx.getMissingInRange start (start + maxRetrans)
  if missing.isEmpty then (host, ctx)
  else
    match host.attempt with
    | (false, host) => (host, ctx)
    | (true, host) =>
      match host.send (retransRequest fileId missing) with
      | (false, host) => (host, ctx)
      | (true, host) =>
        receiveLoop (fun ctx => missing.all ctx.hasChunk) (maxReceiveSpins / 10) 0 host ctx

def handleMissingChunks (fileId : UInt8) :
    List UInt32 → Host → TransferCtx → Host × TransferCtx
  | [], host, ctx => (host, ctx)
  | start :: rest, host, ctx =>
    let (host, ctx) := recoverGroup fileId start host ctx
    handleMissingChunks fileId rest host ctx

/-- The retry rounds of `llm_fetch_window`; the first argument is the number of
rounds left. -/
def retryRounds (fileId : UInt8) :
    Nat → Nat → Host → TransferCtx → Host × TransferCtx
  | 0, _, host, ctx => (host, ctx)
  | rounds + 1, stalled, host, ctx =>
    if ctx.allChunksReceived || decide (retransStallLimit ≤ stalled) then (host, ctx)
    else
      let (host, later) :=
        handleMissingChunks fileId
          (pieceStarts ctx.firstChunk (ctx.firstChunk + ctx.nChunks) maxRetrans) host ctx
      let stalled :=
        if ctx.countReceivedChunks < later.countReceivedChunks then 0
        else stalled + 1
      retryRounds fileId rounds stalled host later

/-- What `llm_meta_request` writes to its out parameters. -/
structure FileMeta where
  fileSize : UInt32
  totalChunks : UInt32
  hash : List UInt8

/-- The fields of a response that passed the check. -/
def FileMeta.parse (resp : List UInt8) : FileMeta where
  fileSize := (readBeWord (resp.drop 4)).1
  totalChunks := (readBeWord (resp.drop 12)).1
  hash := (resp.drop 16).take 32

/-- How a call ends: it waits for ever, or returns. -/
inductive Outcome (α : Type*) where
  | blocked
  | returned (value : α) (host : Host)

/-- `llm_meta_request`; `none` is its result -1. -/
def llmMetaRequest (fileId : UInt8) (host : Host) : Outcome (Option FileMeta) :=
  match host.attempt with
  | (false, host) => .returned none host
  | (true, host) =>
    match host.send (metaRequest fileId) with
    | (false, host) => .returned none host
    | (true, host) =>
      match recvFrom host.incoming with
      | none => .blocked
      | some (datagram, rest) =>
        let resp := datagram.take 48
        let host := { host with incoming := rest }
        if resp.length < 48 ∨ resp.getD 0 0 ≠ msgMetaResp then .returned none host
        else .returned (some (FileMeta.parse resp)) host

def verifyFileIntegrity (fileBuf : Nat → UInt8) (fileSize : UInt32) (hash : List UInt8) : Bool :=
  (Sha256.sha256Hash ((List.range fileSize.toNat).map fileBuf)).toList = hash

/-- The context of a transfer of a checked window. -/
def TransferCtx.start (info : FileMeta) (dst : Nat → UInt8) (byteOff byteLen : UInt32) :
    TransferCtx where
  fileBuf := dst
  received := fun _ => false
  fileSize := info.fileSize
  totalChunks := info.totalChunks
  winOff := byteOff
  winLen := byteLen
  firstChunk := byteOff / chunkBytes
  nChunks := (byteOff + byteLen + chunkBytes - 1) / chunkBytes - byteOff / chunkBytes

def transferWindow (fileId : UInt8) (host : Host) (ctx : TransferCtx) : Host × TransferCtx :=
  let stop := ctx.firstChunk + ctx.nChunks
  let (host, ctx) := requestBatches fileId stop (pieceStarts ctx.firstChunk stop maxRange) host ctx
  retryRounds fileId maxRetryRounds 0 host ctx

/-- The end of `llm_fetch_window`, with the result and the buffer. -/
def finishWindow (info : FileMeta) (ctx : TransferCtx) : Int :=
  if ¬ ctx.allChunksReceived then -1
  else if ctx.winOff = 0 ∧ ctx.winLen = info.fileSize ∧
      ¬ verifyFileIntegrity ctx.fileBuf info.fileSize info.hash then -1
  else 0

/-- `llm_fetch_window`: its result, the buffer behind `dst` when it returns,
and `*size_out`, which is written once the metadata is there. -/
structure Fetched where
  result : Int
  dst : Nat → UInt8
  sizeOut : Option UInt32

def llmFetchWindow (fileId : UInt8) (dst : Nat → UInt8) (byteOff byteLen : UInt32)
    (host : Host) : Outcome Fetched :=
  match llmMetaRequest fileId host with
  | .blocked => .blocked
  | .returned none host => .returned ⟨-1, dst, none⟩ host
  | .returned (some info) host =>
    let byteLen :=
      if byteLen = 0 then info.fileSize - byteOff else byteLen
    if info.fileSize ≤ byteOff ∨ byteOff + byteLen > info.fileSize then
      .returned ⟨-1, dst, some info.fileSize⟩ host
    else
      match host.attempt with
      | (false, host) => .returned ⟨-1, dst, some info.fileSize⟩ host
      | (true, host) =>
        match host.attempt with
        | (false, host) => .returned ⟨-1, dst, some info.fileSize⟩ host
        | (true, host) =>
          let (host, ctx) := transferWindow fileId host (TransferCtx.start info dst byteOff byteLen)
          .returned ⟨finishWindow info ctx, ctx.fileBuf, some info.fileSize⟩ host

/-- `llm_fetch_range`: an empty range is refused. -/
def llmFetchRange (fileId : UInt8) (dst : Nat → UInt8) (byteOff byteLen : UInt32)
    (host : Host) : Outcome Fetched :=
  if byteLen = 0 then .returned ⟨-1, dst, none⟩ host
  else llmFetchWindow fileId dst byteOff byteLen host

/-- `llm_fetch_file_into`: the size is learned first and checked against the
buffer. -/
def llmFetchFileInto (fileId : UInt8) (dst : Nat → UInt8) (dstLen : UInt32) (host : Host) :
    Outcome Fetched :=
  match llmMetaRequest fileId host with
  | .blocked => .blocked
  | .returned none host => .returned ⟨-1, dst, none⟩ host
  | .returned (some info) host =>
    if info.fileSize > dstLen then .returned ⟨-1, dst, some info.fileSize⟩ host
    else
      match llmFetchWindow fileId dst 0 info.fileSize host with
      | .blocked => .blocked
      | .returned fetched host => .returned { fetched with sizeOut := some info.fileSize } host

end LlmRuntime.Ftp
