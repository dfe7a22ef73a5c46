import LlmRuntime.Ftp.WrittenBytes

/-!
# Recovery of lost chunks

`handle_retrans_req` raises on every request for at least one chunk.  A client
that asks again for what the range phase lost therefore never gets it.
-/

namespace LlmRuntime.Ftp

open Bytes TransferCtx

/-- Index `j` of a request for single chunks. -/
def retransIndex (data : List UInt8) (j : Nat) : Nat := (readBeWord (data.drop (4 + 4 * j))).1.toNat

/-- The packets such a request asks for: one for each of the first indices that
is below the number of chunks. -/
def retransAnswer (file : List UInt8) (fileId : UInt8) (data : List UInt8) : List (List UInt8) :=
  let count :=
    min (min (readBeHalf (data.drop 2)).1.toNat Server.maxRetrans) ((data.length - 4) / 4)
  (((List.range count).map (retransIndex data)).filter
    (· < totalChunks file)).map (servedPacket fileId file)

section Requests

variable {server : Server} {file data : List UInt8}

theorem handleMessage_retransRequest (isRetrans : data.getD 0 0 = msgRetransReq)
    (long : 4 ≤ data.length) (served : server.files (data.getD 1 0) = some file) :
    handleMessage server data =
      if (readBeHalf (data.drop 2)).1 = 0 then [] else [errorResponse 0 3] := by
  cases data with
  | nil => cases isRetrans
  | cons msgType rest =>
    have isType : msgType = msgRetransReq := isRetrans
    rw [handleMessage_eq, isType, if_neg (by decide), if_neg (by decide),
      if_pos rfl, ← isType, handleRetransReq, if_neg (by omega)]
    simp only [served, retransLoop_unbound]
    by_cases isZero : (readBeHalf ((msgType :: rest).drop 2)).1 = 0
    · rw [isZero, if_pos rfl]
      rfl
    · have positive :
          ¬ min (readBeHalf ((msgType :: rest).drop 2)).1.toNat Server.maxRetrans = 0 := by
        intro isMin
        apply isZero
        apply UInt16.toNat_inj.mp
        change _ = 0
        rw [Server.maxRetrans] at isMin
        omega
      rw [if_neg positive, if_neg isZero]
      rfl

/-- The server answers such a request as it should only when it asks for
nothing. -/
theorem handleMessage_eq_retransAnswer_iff (isRetrans : data.getD 0 0 = msgRetransReq)
    (long : 4 ≤ data.length) (served : server.files (data.getD 1 0) = some file) :
    handleMessage server data = retransAnswer file (data.getD 1 0) data ↔
      (readBeHalf (data.drop 2)).1 = 0 := by
  rw [handleMessage_retransRequest isRetrans long served]
  by_cases isZero : (readBeHalf (data.drop 2)).1 = 0
  · rw [if_pos isZero, retransAnswer, isZero]
    simp
  · rw [if_neg isZero]
    refine ⟨fun isAnswer => ?_, fun isCount => absurd isCount isZero⟩
    have isPacket : errorResponse 0 3 ∈ retransAnswer file (data.getD 1 0) data := by
      rw [← isAnswer]
      exact List.mem_singleton_self _
    obtain ⟨k, -, same⟩ := List.mem_map.mp isPacket
    have heads := congrArg (fun datagram => datagram.getD 0 0) same
    exact absurd heads (by change ¬ msgDataPacket = msgError; decide)

end Requests

/-- The server's answers, with the given chunks lost in the answers to range
requests and everything else delivered. -/
def lossyNetwork (server : Server) (lost : Nat → Bool) (request : List UInt8) :
    List (Option (List UInt8)) :=
  if request.getD 0 0 = msgDataRangeReq then
    ((handleMessage server request).filter
      fun datagram => !lost (packetIndex datagram).toNat).map some
  else (handleMessage server request).map some

/-- A client on that network, before a fetch. -/
def lossyHost (server : Server) (lost : Nat → Bool) : Host where
  incoming := []
  network := lossyNetwork server lost
  failures := []
  sent := []
  spent := false

def NotLost (lost : Nat → Bool) (datagram : List UInt8) : Prop :=
  (datagram.take (12 + chunkSize)).getD 0 0 = msgDataPacket →
    lost (packetIndex (datagram.take (12 + chunkSize))).toNat = false

section Lost

variable {server : Server} {lost : Nat → Bool}

theorem notLost_metaResponse (lost : Nat → Bool) (fileId : UInt8) (file : List UInt8) :
    NotLost lost (metaResponse server fileId file) := by
  intro isPacket
  have differ : msgMetaResp ≠ msgDataPacket := by decide
  exact absurd isPacket differ

theorem notLost_errorResponse (lost : Nat → Bool) (fileId errorCode : UInt8) :
    NotLost lost (errorResponse fileId errorCode) := by
  intro isPacket
  have differ : msgError ≠ msgDataPacket := by decide
  exact absurd isPacket differ

theorem notLost_of_otherRequest {request datagram : List UInt8}
    (isOther : request.getD 0 0 ≠ msgDataRangeReq)
    (isReply : datagram ∈ handleMessage server request) :
    NotLost lost datagram := by
  cases request with
  | nil => cases isReply
  | cons msgType rest =>
    have notRange : msgType ≠ msgDataRangeReq := isOther
    rw [handleMessage_eq, if_neg notRange] at isReply
    split_ifs at isReply
    · rcases handleMetaReq_reply isReply with
        ⟨fileId, file, -, -, isInfo⟩ | ⟨fileId, errorCode, isError⟩
      · rw [isInfo]
        exact notLost_metaResponse lost fileId file
      · rw [isError]
        exact notLost_errorResponse lost fileId errorCode
    · obtain ⟨fileId, errorCode, isError⟩ := handleRetransReq_reply isReply
      rw [isError]
      exact notLost_errorResponse lost fileId errorCode
    · rw [List.mem_singleton.mp isReply]
      exact notLost_errorResponse lost 0 2

theorem lossyNetwork_notLost {request datagram : List UInt8}
    (arrived : some datagram ∈ lossyNetwork server lost request) :
    NotLost lost datagram := by
  rw [lossyNetwork] at arrived
  by_cases isRange : request.getD 0 0 = msgDataRangeReq
  · rw [if_pos isRange] at arrived
    obtain ⟨found, isFound, same⟩ := List.mem_map.mp arrived
    obtain ⟨isReply, kept⟩ := List.mem_filter.mp isFound
    rw [Option.some.inj same] at isReply kept
    cases handleMessage_reply isReply with
    | packet served isChunk fits =>
      intro isPacket
      rw [servedPacket_take]
      simpa using kept
    | info served fits => exact notLost_metaResponse lost _ _
    | error fileId errorCode => exact notLost_errorResponse lost fileId errorCode
  · rw [if_neg isRange] at arrived
    obtain ⟨found, isReply, same⟩ := List.mem_map.mp arrived
    rw [Option.some.inj same] at isReply
    exact notLost_of_otherRequest isRange isReply

theorem hasChunk_of_otherPacket {ctx : TransferCtx} {packet : List UInt8} {chunkIdx : UInt32}
    (other : packet.getD 0 0 = msgDataPacket → packetIndex packet ≠ chunkIdx)
    (missing : ctx.hasChunk chunkIdx = false) :
    (processDataPacket ctx packet).2.hasChunk chunkIdx = false := by
  rcases processDataPacket_cases ctx packet with same | ⟨stored, isPacket, -⟩
  · rw [same]
    exact missing
  · rw [stored, hasChunk_storeChunk, missing, Bool.or_false]
    exact decide_eq_false (other isPacket).symm

theorem stable_lost {chunkIdx : UInt32} (isLost : lost chunkIdx.toNat = true) :
    Stable fun host ctx =>
      host.Supplies (NotLost lost) ∧ ctx.hasChunk chunkIdx = false := by
  apply stable_of_supplies
  intro ctx datagram notLost isMissing
  apply hasChunk_of_otherPacket _ isMissing
  intro isPacket isIndex
  have isKept := notLost isPacket
  rw [isIndex, isLost] at isKept
  cases isKept

end Lost

/-! ## A range phase without losses -/

section Calm

variable {server : Server} {lost : Nat → Bool} {fileId : UInt8}
  {file : List UInt8} {dst : Nat → UInt8} {host : Host} {ctx : TransferCtx}
  {startIdx : UInt32} {starts : List UInt32}

/-- The receive loop takes some results from the front and nothing else. -/
theorem receiveLoop_taken (finished : TransferCtx → Bool) (spins idle : Nat)
    (host : Host) (ctx : TransferCtx) :
    let ended := receiveLoop finished spins idle host ctx
    ended.1.network = host.network ∧
      ∃ results, host.incoming = results ++ ended.1.incoming ∧
        ended.2 = processAll ctx (cutPackets results) := by
  have kept :=
    @receiveLoop_rule
      (fun later last =>
        Traced host ctx later last ∧ later.sent = host.sent) _ _
      (by
        rintro later last packet next ⟨traced, same⟩ received
        refine ⟨(stable_traced host ctx).takes _ _ _ _ traced received, ?_⟩
        obtain ⟨datagram, rest, -, -, -, isNext⟩ := Host.recvTimed_some received
        rw [isNext]
        exact same)
      (by
        rintro later last next ⟨traced, same⟩ received
        refine ⟨(stable_traced host ctx).idles _ _ _ traced received, ?_⟩
        rcases Host.recvTimed_none received with ⟨-, isNext⟩ | ⟨result, rest, -, -, isNext⟩
        · rw [isNext]
          exact same
        · rw [isNext]
          exact same)
      (fun later last kept =>
        ⟨(stable_traced host ctx).spends later last kept.1, kept.2⟩)
      finished spins idle ⟨.refl host ctx, rfl⟩
  obtain ⟨⟨network, requests, results, isSent, stream, isCtx⟩, same⟩ := kept
  rw [same, List.self_eq_append_right] at isSent
  rw [isSent, List.flatMap_nil, List.append_nil] at stream
  exact ⟨network, results, stream, isCtx⟩

theorem isMissing_processAll {packets : List (List UInt8)} {chunkIdx : UInt32}
    (missing : ctx.isMissing chunkIdx = true)
    (others : ∀ packet ∈ packets, packetIndex packet ≠ chunkIdx) :
    (processAll ctx packets).isMissing chunkIdx = true := by
  induction packets generalizing ctx with
  | nil => exact missing
  | cons packet rest ih =>
    rw [isMissing, Bool.and_eq_true, Bool.not_eq_true'] at missing
    refine ih ?_ fun later isLater =>
      others later (List.mem_cons_of_mem _ isLater)
    rw [isMissing, (processDataPacket_sameWindow ctx packet).chunkInWindow, missing.1,
      hasChunk_of_otherPacket (fun _ => others packet List.mem_cons_self) missing.2]
    rfl

theorem Filled.processAll {results : List (Option (List UInt8))} (filled : Filled file dst ctx)
    (good : ∀ datagram, some datagram ∈ results → OfFile file datagram) :
    Filled file dst (processAll ctx (cutPackets results)) :=
  processAll_keeps (fun _ datagram isIn kept => kept.process (good datagram isIn)) filled

/-- A packet of the file, of a chunk before all of `starts`. -/
def PacketBelow (file : List UInt8) (fileId : UInt8) (starts : List UInt32)
    (result : Option (List UInt8)) : Prop :=
  ∃ k < totalChunks file, result = some (servedPacket fileId file k) ∧
    ∀ start ∈ starts, k < start.toNat

/-- At most one batch of packets waits, of chunks before `starts`. -/
structure Calm (file : List UInt8) (fileId : UInt8) (starts : List UInt32)
    (host : Host) : Prop where
  works : host.failures = []
  few : host.incoming.length ≤ 8
  packets : ∀ result ∈ host.incoming, PacketBelow file fileId starts result

theorem idleBreaks_of_packets {results : List (Option (List UInt8))}
    (packets : ∀ result ∈ results, isIdle result = false) (idle : Nat) :
    idleBreaks idle results = 0 := by
  induction results generalizing idle with
  | nil => rfl
  | cons result rest ih =>
    rw [idleBreaks, packets result List.mem_cons_self, if_neg Bool.false_ne_true]
    exact ih (fun later isLater =>
      packets later (List.mem_cons_of_mem _ isLater)) 0

/-- The answer to a batch, and what is known of it. -/
theorem lossyNetwork_range (served : server.files fileId = some file) (within : WithinFile file ctx)
    (noLoss : ∀ chunkIdx, ctx.chunkInWindow chunkIdx = true → lost chunkIdx.toNat = false)
    (fromFirst : ctx.firstChunk.toNat ≤ startIdx.toNat)
    (toStop : startIdx.toNat < ctx.firstChunk.toNat + ctx.nChunks.toNat) :
    let count := batchCount startIdx (ctx.firstChunk + ctx.nChunks)
    count.toNat ≤ 8 ∧ startIdx.toNat + count.toNat ≤ totalChunks file ∧
      handleMessage server (dataRangeRequest fileId startIdx count) =
        (List.range' startIdx.toNat count.toNat).map (servedPacket fileId file) ∧
      lossyNetwork server lost (dataRangeRequest fileId startIdx count) =
        ((List.range' startIdx.toNat count.toNat).map (servedPacket fileId file)).map some := by
  have few := within.totalChunks_lt
  have inside := within.2
  have stopsAt := within.windowEnd
  have range : maxRange.toNat = 8 := rfl
  obtain ⟨before, fits⟩ := within.batch_bounds toStop
  have isCount := batchCount_toNat before fits
  generalize batchCount startIdx (ctx.firstChunk + ctx.nChunks) = count at isCount ⊢
  have answer := @handleMessage_dataRangeRequest _ _ _ served startIdx count
    (by omega) (by rw [Server.maxRange]; omega) (by omega) (by omega)
  have isRange : (dataRangeRequest fileId startIdx count).getD 0 0 = msgDataRangeReq := rfl
  refine ⟨by omega, by omega, answer, ?_⟩
  rw [lossyNetwork, if_pos isRange, answer, List.filter_eq_self.mpr]
  intro datagram isMember
  obtain ⟨k, isIndex, isPacket⟩ := List.mem_map.mp isMember
  rw [List.mem_range'_1] at isIndex
  have isNumber : (UInt32.ofNat k).toNat = k := by
    rw [UInt32.toNat_ofNat']
    omega
  rw [← isPacket, servedPacket_index, noLoss, Bool.not_false]
  rw [within.chunkInWindow_iff, isNumber]
  omega

/-- The packets with which a batch of `count` chunks is answered. -/
def batchPackets (file : List UInt8) (fileId : UInt8) (startIdx : UInt32) (count : Nat) :
    List (Option (List UInt8)) :=
  ((List.range' startIdx.toNat count).map (servedPacket fileId file)).map some

theorem length_batchPackets (count : Nat) :
    (batchPackets file fileId startIdx count).length = count := by
  rw [batchPackets, List.length_map, List.length_map, List.length_range']

/-- Everything that can be received in a batch. -/
theorem Calm.results (calm : Calm file fileId (startIdx :: starts) host) {count : Nat}
    (few : count ≤ 8) (exist : startIdx.toNat + count ≤ totalChunks file)
    (apart : ∀ start ∈ starts, startIdx.toNat + 8 ≤ start.toNat) :
    ∀ result ∈ host.incoming ++ batchPackets file fileId startIdx count,
      PacketBelow file fileId starts result := by
  intro result isResult
  rcases List.mem_append.mp isResult with old | new
  · obtain ⟨k, isChunk, isPacket, isBelow⟩ := calm.packets result old
    exact ⟨k, isChunk, isPacket, fun start isStart =>
      isBelow start (List.mem_cons_of_mem _ isStart)⟩
  · rw [batchPackets, List.map_map] at new
    obtain ⟨k, isIndex, isPacket⟩ := List.mem_map.mp new
    rw [List.mem_range'_1] at isIndex
    refine ⟨k, by omega, isPacket.symm, fun start isStart => ?_⟩
    have isApart := apart start isStart
    omega

/-- A loop that completes its batch has taken all that was there before the
batch was asked for. -/
theorem Calm.left_le (calm : Calm file fileId (startIdx :: starts) host)
    {batch front rest : List (Option (List UInt8))} {stop : UInt32}
    (isFront : host.incoming ++ batch = front ++ rest)
    (incomplete : ¬ Complete (indices startIdx stop) ctx)
    (complete : Complete (indices startIdx stop) (processAll ctx (cutPackets front))) :
    rest.length ≤ batch.length := by
  rcases List.append_eq_append_iff.mp isFront with ⟨more, -, isBatch⟩ | ⟨left, isLeft, -⟩
  · have total := congrArg List.length isBatch
    rw [List.length_append] at total
    omega
  · -- no packet of the batch was taken
    exfalso
    apply incomplete
    intro chunkIdx isIn
    by_contra missing
    have isFound := complete chunkIdx isIn
    rw [isMissing_processAll (Bool.eq_true_of_not_eq_false missing)] at isFound
    · cases isFound
    · intro packet isPacket isIndex
      obtain ⟨datagram, isDatagram, isCut⟩ := List.mem_map.mp isPacket
      obtain ⟨k, isChunk, isServed, isBelow⟩ := calm.packets (some datagram)
        (by rw [isLeft]; exact List.mem_append_left _ (List.reduceOption_mem_iff.mp isDatagram))
      have isStart := isBelow startIdx List.mem_cons_self
      have isChunkIdx := congrArg UInt32.toNat isIndex
      rw [← isCut, Option.some.inj isServed, servedPacket_take,
        servedPacket_index, UInt32.toNat_ofNat'] at isChunkIdx
      rw [mem_indices] at isIn
      omega

/-- The turn of the receive loop for a batch that it completes. -/
theorem Calm.receiveLoop {count : UInt16} {finished : TransferCtx → Bool} {spins : Nat}
    (calm : Calm file fileId (startIdx :: starts) host) (few : count.toNat ≤ 8)
    (results : ∀ result ∈ host.incoming ++ batchPackets file fileId startIdx count.toNat,
      PacketBelow file fileId starts result) {asked : Host} (works : asked.failures = [])
    (isIncoming : asked.incoming = host.incoming ++ batchPackets file fileId startIdx count.toNat)
    (incomplete : ¬ Complete (indices startIdx (startIdx + count.toUInt32)) ctx)
    (complete : Complete (indices startIdx (startIdx + count.toUInt32))
      (receiveLoop finished spins 0 asked ctx).2)
    (filled : Filled file dst ctx) :
    let ended := receiveLoop finished spins 0 asked ctx
    Calm file fileId starts ended.1 ∧ ended.1.network = asked.network ∧
      Filled file dst ended.2 := by
  have worksLater := @Stable.receiveLoop _ asked ctx stable_noFailures finished spins 0 works
  obtain ⟨isNetwork, front, isFront, isCtx⟩ := receiveLoop_taken finished spins 0 asked ctx
  rw [isIncoming] at isFront
  rw [isCtx] at complete
  have left := calm.left_le isFront incomplete complete
  rw [isFront] at results
  rw [length_batchPackets] at left
  refine ⟨⟨worksLater, left.trans few, fun result isResult =>
    results result (List.mem_append_right _ isResult)⟩, isNetwork, ?_⟩
  rw [isCtx]
  refine filled.processAll fun datagram isIn => ?_
  obtain ⟨k, isChunk, isPacket, -⟩ := results _ (List.mem_append_left _ isIn)
  exact .inl ⟨fileId, k, isChunk, Option.some.inj isPacket⟩

/-- A batch is answered in time, and at most its own packets are left. -/
theorem requestChunkRange_calm (served : server.files fileId = some file)
    (within : WithinFile file ctx) (noLoss : ∀ chunkIdx, ctx.chunkInWindow chunkIdx = true →
        lost chunkIdx.toNat = false)
    (fromFirst : ctx.firstChunk.toNat ≤ startIdx.toNat)
    (toStop : startIdx.toNat < ctx.firstChunk.toNat + ctx.nChunks.toNat)
    (apart : ∀ start ∈ starts, startIdx.toNat + 8 ≤ start.toNat)
    (network : host.network = lossyNetwork server lost)
    (calm : Calm file fileId (startIdx :: starts) host) (filled : Filled file dst ctx) :
    let count := batchCount startIdx (ctx.firstChunk + ctx.nChunks)
    let next := requestChunkRange fileId startIdx count host ctx
    (ctx.countMissingInRange startIdx (startIdx + count.toUInt32) ≠ 0 →
        BatchInTime server fileId startIdx count host) ∧
      Calm file fileId starts next.1 ∧ next.1.network = host.network ∧
      Filled file dst next.2 := by
  obtain ⟨few, exist, answer, arrives⟩ := lossyNetwork_range served within noLoss fromFirst toStop
  have complete := requestChunkRange_completes served calm.works within toStop
  rw [batchGoal] at complete
  generalize batchCount startIdx (ctx.firstChunk + ctx.nChunks) = count at *
  have sent := Host.send_of_noFailures calm.works (dataRangeRequest fileId startIdx count)
  rw [network, arrives, ← batchPackets] at sent
  have results := calm.results few exist apart
  have inTime : BatchInTime server fileId startIdx count host := by
    rw [BatchInTime, sent, answer]
    refine ⟨_, [], (List.append_nil _).symm, ?_, ?_, ?_⟩
    · have waiting := calm.few
      rw [List.length_append, length_batchPackets, maxReceiveSpins]
      omega
    · refine idleBreaks_of_packets (fun result isResult => ?_) 0
      obtain ⟨k, -, isPacket, -⟩ := results result isResult
      rw [isPacket]
      rfl
    · intro packet isPacket
      exact List.mem_append_right _ (List.mem_map_of_mem isPacket)
  refine ⟨fun _ => inTime, ?_⟩
  have isComplete := complete fun _ => inTime
  rw [requestChunkRange] at isComplete ⊢
  by_cases nothing : ctx.countMissingInRange startIdx (startIdx + count.toUInt32) = 0
  · rw [if_pos nothing]
    refine ⟨⟨calm.works, calm.few, fun result isResult => ?_⟩, rfl, filled⟩
    exact results result (List.mem_append_left _ isResult)
  · rw [if_neg nothing, sent] at isComplete ⊢
    rw [countMissingInRange_eq_zero] at nothing
    rw [network]
    exact calm.receiveLoop few results calm.works rfl nothing isComplete filled

theorem requestBatches_calm (served : server.files fileId = some file)
    (within : WithinFile file ctx) (noLoss : ∀ chunkIdx, ctx.chunkInWindow chunkIdx = true →
        lost chunkIdx.toNat = false)
    (inWindow : ∀ start ∈ starts, ctx.firstChunk.toNat ≤ start.toNat ∧
        start.toNat < ctx.firstChunk.toNat + ctx.nChunks.toNat)
    (apart : starts.Pairwise fun start later => start.toNat + 8 ≤ later.toNat)
    (network : host.network = lossyNetwork server lost)
    (calm : Calm file fileId starts host) (filled : Filled file dst ctx) :
    BatchesInTime server fileId (ctx.firstChunk + ctx.nChunks) starts host
        ctx ∧
      Filled file dst (requestBatches fileId (ctx.firstChunk + ctx.nChunks) starts host ctx).2 := by
  generalize isStop : ctx.firstChunk + ctx.nChunks = stop
  induction starts generalizing host ctx with
  | nil => exact ⟨trivial, filled⟩
  | cons first rest ih =>
    obtain ⟨behind, apartRest⟩ := List.pairwise_cons.mp apart
    obtain ⟨fromFirst, toStop⟩ := inWindow first List.mem_cons_self
    obtain ⟨inTime, calmLater, sameNetwork, filledLater⟩ :=
      requestChunkRange_calm served within noLoss fromFirst toStop behind network calm filled
    have same := @Stable.requestChunkRange _ host _ (stable_sameWindow ctx)
      fileId first (batchCount first (ctx.firstChunk + ctx.nChunks))
      (.refl ctx)
    rw [isStop] at inTime calmLater sameNetwork filledLater same
    rw [requestBatches_cons, BatchesInTime]
    generalize requestChunkRange fileId first (batchCount first stop) host ctx = next at *
    obtain ⟨restInTime, filledLast⟩ :=
      ih (within.sameWindow same)
        (fun chunkIdx isInside => noLoss chunkIdx (same.chunkInWindow chunkIdx ▸ isInside))
        (fun start isStart => by
          rw [same.firstChunk, same.nChunks]
          exact inWindow start (List.mem_cons_of_mem _ isStart))
        apartRest (sameNetwork.trans network) calmLater filledLater
        (by rw [same.firstChunk, same.nChunks]; exact isStop)
    exact ⟨⟨inTime, restInTime⟩, filledLast⟩

theorem transferWindow_calm (served : server.files fileId = some file)
    (within : WithinFile file ctx) (noLoss : ∀ chunkIdx, ctx.chunkInWindow chunkIdx = true →
        lost chunkIdx.toNat = false)
    (network : host.network = lossyNetwork server lost) (works : host.failures = [])
    (nothing : host.incoming = []) (filled : Filled file dst ctx) :
    (transferWindow fileId host ctx).2.allChunksReceived = true ∧
      Filled file dst (transferWindow fileId host ctx).2 := by
  have few := within.totalChunks_lt
  have inside := within.2
  have stopsAt := within.windowEnd
  have range : maxRange.toNat = 8 := rfl
  have fits : (ctx.firstChunk + ctx.nChunks).toNat + maxRange.toNat < 2 ^ 32 := by omega
  have calm (starts : List UInt32) : Calm file fileId starts host := by
    refine ⟨works, ?_, ?_⟩
    · rw [nothing]
      exact Nat.zero_le 8
    · rw [nothing]
      exact fun result isResult => absurd isResult List.not_mem_nil
  have passes := @requestBatches_calm _ _ _ _ _ _ _
    (pieceStarts ctx.firstChunk (ctx.firstChunk + ctx.nChunks) maxRange)
    served within noLoss
    (fun start isStart => stopsAt ▸ bounds_of_mem_pieceStarts (by decide) fits isStart)
    (pieceStarts_apart (by decide) fits) network (calm _) filled
  obtain ⟨received, isPass⟩ := transferWindow_completes served works within passes.1
  rw [isPass]
  exact ⟨received, passes.2⟩

end Calm

section Fetches

variable {server : Server} {lost : Nat → Bool} {fileId : UInt8} {file : List UInt8}

theorem lossyHost_answered (served : server.files fileId = some file)
    (small : file.length < 2 ^ 32) :
    recvFrom
        ((lossyHost server lost).incoming ++ (lossyHost server lost).network (metaRequest fileId)) =
      some (metaResponse server fileId file, []) := by
  have notRange : ¬ (metaRequest fileId).getD 0 0 = msgDataRangeReq := by
    change ¬ msgMetaReq = msgDataRangeReq
    decide
  change recvFrom ([] ++ lossyNetwork server lost (metaRequest fileId)) = _
  rw [lossyNetwork, if_neg notRange, handleMessage_metaRequest served small]
  rfl

/-- A chunk of the window that is lost stays missing. -/
theorem lossyHost_misses {ctx : TransferCtx} (within : WithinFile file ctx)
    (fresh : ∀ chunkIdx, ctx.hasChunk chunkIdx = false) {chunkIdx : UInt32}
    (inWindow : ctx.chunkInWindow chunkIdx = true) (isLost : lost chunkIdx.toNat = true) :
    (transferWindow fileId ((lossyHost server lost).afterMeta fileId [])
        ctx).2.allChunksReceived = false := by
  have supplies : ((lossyHost server lost).afterMeta fileId []).Supplies (NotLost lost) := by
    constructor
    · intro datagram arrived
      cases arrived
    · intro request datagram arrived
      exact lossyNetwork_notLost arrived
  obtain ⟨⟨-, stillMissing⟩, same⟩ :=
    ((stable_lost isLost).and (stable_sameWindow ctx)).transferWindow fileId
      ⟨⟨supplies, fresh chunkIdx⟩, .refl ctx⟩
  rw [← Bool.not_eq_true, (within.sameWindow same).allChunksReceived_iff]
  intro complete
  rw [← same.chunkInWindow] at inWindow
  have has := (isMissing_eq_false inWindow).1 (complete chunkIdx)
  rw [stillMissing] at has
  cases has

/-- A fetch over the lossy network returns 0 exactly when nothing of its window
is lost. -/
theorem lossyHost_fetch_iff (served : server.files fileId = some file)
    (standard : server.hashlib = SecureHash.digest) (noWrap : file.length + 512 ≤ 2 ^ 32)
    (dst : Nat → UInt8) {byteOff byteLen : UInt32} (before : byteOff.toNat < file.length)
    (fits : byteOff.toNat + bytesAsked file byteOff byteLen ≤ file.length) :
    (∃ fetched later,
        llmFetchWindow fileId dst byteOff byteLen (lossyHost server lost) =
            .returned fetched later ∧
          fetched.result = 0) ↔
      ∀ k,
        Overlaps byteOff.toNat
            (byteOff.toNat + bytesAsked file byteOff byteLen) k →
          lost k = false := by
  have small : file.length < 2 ^ 32 := by omega
  have known : (servedMeta server file).Describes file := servedMeta_describes small
  have isLength := windowLength_toNat known before byteLen
  have works : (lossyHost server lost).failures = [] := rfl
  have fetch := llmFetchWindow_served works (lossyHost_answered served small) small dst before fits
  generalize windowLength (servedMeta server file) byteOff byteLen = length at isLength fetch
  rw [← isLength] at fits ⊢
  have window := start_windowOf known dst fits (by omega)
  have begins := start_filled known dst byteOff length
  have fresh :
      ∀ chunkIdx, (start (servedMeta server file) dst byteOff length).hasChunk chunkIdx = false :=
    fun _ => rfl
  rw [fetch]
  have inWindow (chunkIdx : UInt32) :
      (start (servedMeta server file) dst byteOff
          length).chunkInWindow chunkIdx = true ↔
        Overlaps byteOff.toNat (byteOff.toNat + length.toNat) chunkIdx.toNat :=
    window.chunkInWindow_iff chunkIdx
  constructor
  · rintro ⟨fetched, later, returned, success⟩ k overlaps
    by_contra isLost
    have isNumber : (UInt32.ofNat k).toNat = k := by
      rw [Overlaps, chunkSize] at overlaps
      rw [UInt32.toNat_ofNat']
      omega
    have isInside := (inWindow (UInt32.ofNat k)).2 (by rw [isNumber]; exact overlaps)
    have isGone : lost (UInt32.ofNat k).toNat = true := by
      rw [isNumber]
      exact Bool.eq_true_of_not_eq_false isLost
    have missed :
        (transferWindow fileId ((lossyHost server lost).afterMeta fileId [])
          (start (servedMeta server file) dst byteOff length)).2.allChunksReceived = false :=
      lossyHost_misses window.within fresh isInside isGone
    simp only [Outcome.returned.injEq] at returned
    rw [← returned.1, finishWindow_eq_zero, missed] at success
    cases success.1
  · intro noLoss
    have worksLater : ((lossyHost server lost).afterMeta fileId []).failures = [] := rfl
    have nothing : ((lossyHost server lost).afterMeta fileId []).incoming = [] := rfl
    have ended :=
      transferWindow_calm served window.within
        (fun chunkIdx isInside =>
          noLoss chunkIdx.toNat ((inWindow chunkIdx).1 isInside))
        rfl worksLater nothing begins
    have same :
        SameWindow (start (servedMeta server file) dst byteOff length)
          (transferWindow fileId ((lossyHost server lost).afterMeta fileId [])
            (start (servedMeta server file) dst byteOff length)).2 :=
      (stable_sameWindow _).transferWindow fileId (.refl _)
    exact ⟨_, _, rfl, (window.sameWindow same).finishes ended.2 ended.1 small standard⟩

end Fetches

/-- Requests for single chunks are answered as they should only when they ask
for nothing; and so a fetch, all answers to such requests delivered, returns 0
only when the range phase loses nothing of its window. -/
theorem lost_chunks_recovered_iff {server : Server} {fileId : UInt8}
    {file : List UInt8} (served : server.files fileId = some file) :
    (∀ data : List UInt8, data.getD 0 0 = msgRetransReq → 4 ≤ data.length → data.getD 1 0 = fileId →
          (handleMessage server data = retransAnswer file fileId data ↔
            (readBeHalf (data.drop 2)).1 = 0)) ∧
      (server.hashlib = SecureHash.digest → file.length + 512 ≤ 2 ^ 32 →
        ∀ (lost : Nat → Bool) (dst : Nat → UInt8)
          (byteOff byteLen : UInt32),
          byteOff.toNat < file.length →
          byteOff.toNat + bytesAsked file byteOff byteLen ≤ file.length →
            ((∃ fetched later, llmFetchWindow fileId dst byteOff byteLen
                    (lossyHost server lost) =
                  .returned fetched later ∧
                fetched.result = 0) ↔
              ∀ k,
                Overlaps byteOff.toNat
                    (byteOff.toNat + bytesAsked file byteOff byteLen) k →
                  lost k = false)) := by
  constructor
  · intro data isRetrans long isFile
    rw [← isFile]
    apply handleMessage_eq_retransAnswer_iff isRetrans long
    rw [isFile]
    exact served
  · intro standard noWrap lost dst byteOff byteLen before fits
    exact lossyHost_fetch_iff served standard noWrap dst before fits

/-- A fetch of the whole small file, with nothing lost. -/
theorem lost_chunks_recovered_iff_smallServer :
    handleMessage smallServer [msgRetransReq, 7, 0, 0] =
        retransAnswer [10, 20, 30] 7 [msgRetransReq, 7, 0, 0] ∧
      ∃ fetched later,
        llmFetchWindow 7 (fun _ => 0) 0 0 (lossyHost smallServer fun _ => false) =
          .returned fetched later ∧
        fetched.result = 0 := by
  have served : smallServer.files 7 = some [10, 20, 30] := rfl
  have standard : smallServer.hashlib = SecureHash.digest := rfl
  obtain ⟨requests, fetches⟩ := lost_chunks_recovered_iff served
  constructor
  · exact (requests [msgRetransReq, 7, 0, 0] rfl (by decide) rfl).2 (by decide)
  · exact (fetches standard (by decide) (fun _ => false) (fun _ => 0) 0 0
      (by decide) (by decide)).2 fun _ _ => rfl

/-- A request for chunk 0 is answered with an error, and a fetch that lost it
fails although everything else is delivered. -/
theorem retransRequest_raises :
    handleMessage smallServer (retransRequest 7 [0]) = [errorResponse 0 3] ∧
      retransAnswer [10, 20, 30] 7 (retransRequest 7 [0]) = [servedPacket 7 [10, 20, 30] 0] ∧
      ∃ fetched later,
        llmFetchWindow 7 (fun _ => 0) 0 0 (lossyHost smallServer fun k => k == 0) =
          .returned fetched later ∧
        fetched.result = -1 := by
  refine ⟨by decide, by decide, ?_⟩
  have served : smallServer.files 7 = some [10, 20, 30] := rfl
  have small : ([10, 20, 30] : List UInt8).length < 2 ^ 32 := by decide
  have works : (lossyHost smallServer fun k => k == 0).failures = [] := rfl
  have before : (0 : UInt32).toNat < ([10, 20, 30] : List UInt8).length := by decide
  have fits :
      (0 : UInt32).toNat + bytesAsked [10, 20, 30] 0 0 ≤ ([10, 20, 30] : List UInt8).length := by
    decide
  refine ⟨_, _,
    llmFetchWindow_served works (lossyHost_answered served small) small
      (fun _ => 0) before fits, ?_⟩
  decide +kernel

end LlmRuntime.Ftp
