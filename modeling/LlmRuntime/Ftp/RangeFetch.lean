import LlmRuntime.Ftp.Replies
import LlmRuntime.Sha256Standard

/-!
# Range fetches against the server

A fetch whose batches are answered in time returns the bytes of its window.
-/

namespace LlmRuntime.Ftp

open TransferCtx

/-- The length of the window that `llm_fetch_window` works with. -/
def windowLength (info : FileMeta) (byteOff byteLen : UInt32) : UInt32 :=
  if byteLen = 0 then info.fileSize - byteOff else byteLen

theorem windowLength_eq (info : FileMeta) (byteOff byteLen : UInt32) :
    windowLength info byteOff byteLen =
      if byteLen = 0 then info.fileSize - byteOff else byteLen := rfl

theorem finishWindow_eq_zero (info : FileMeta) (ctx : TransferCtx) :
    finishWindow info ctx = 0 ↔
      ctx.allChunksReceived = true ∧
        (ctx.winOff = 0 ∧ ctx.winLen = info.fileSize →
          verifyFileIntegrity ctx.fileBuf info.fileSize info.hash = true) := by
  rw [finishWindow]
  by_cases received : ctx.allChunksReceived = true
  · rw [if_neg (not_not.mpr received)]
    split_ifs with unverified
    · refine ⟨fun isZero => absurd isZero (by decide), ?_⟩
      rintro ⟨-, verified⟩
      exact absurd (verified ⟨unverified.1, unverified.2.1⟩) unverified.2.2
    · refine ⟨fun _ => ⟨received, ?_⟩, fun _ => rfl⟩
      rintro ⟨fromStart, wholeFile⟩
      by_contra notVerified
      exact unverified ⟨fromStart, wholeFile, notVerified⟩
  · rw [if_pos received]
    refine ⟨fun isZero => absurd isZero (by decide), ?_⟩
    rintro ⟨isReceived, -⟩
    exact absurd isReceived received

variable {file : List UInt8} {host : Host} {info : FileMeta} {byteOff : UInt32} {ctx : TransferCtx}

theorem llmFetchWindow_afterMeta {fileId : UInt8} {later : Host}
    (learned : llmMetaRequest fileId host = .returned (some info) later)
    (works : later.failures = []) (dst : Nat → UInt8) (byteOff byteLen : UInt32) :
    llmFetchWindow fileId dst byteOff byteLen host =
      if info.fileSize ≤ byteOff ∨
          byteOff + windowLength info byteOff byteLen > info.fileSize then
        .returned ⟨-1, dst, some info.fileSize⟩ later
      else
        let ended :=
          transferWindow fileId later (start info dst byteOff (windowLength info byteOff byteLen))
        .returned
          ⟨finishWindow info ended.2, ended.2.fileBuf, some info.fileSize⟩
          ended.1 := by
  have attempted := Host.attempt_of_noFailures works
  rw [llmFetchWindow, learned]
  simp only [windowLength, attempted]
  rfl

/-- The number of bytes a fetch is asked for, in a file of the size. -/
def askedLength (size : Nat) (byteOff byteLen : UInt32) : Nat :=
  if byteLen = 0 then size - byteOff.toNat else byteLen.toNat

theorem windowLength_eq_askedLength
    (before : byteOff.toNat < info.fileSize.toNat) (byteLen : UInt32) :
    (windowLength info byteOff byteLen).toNat =
      askedLength info.fileSize.toNat byteOff byteLen := by
  rw [windowLength, askedLength]
  split_ifs
  · rw [UInt32.toNat_sub_of_le _ _ (UInt32.le_iff_toNat_le.mpr before.le)]
  · rfl

/-- The number of bytes a fetch asks for: those up to the end of the file if
its length is 0. -/
def bytesAsked (file : List UInt8) (byteOff byteLen : UInt32) : Nat :=
  if byteLen = 0 then file.length - byteOff.toNat else byteLen.toNat

theorem windowLength_toNat (known : info.Describes file)
    (before : byteOff.toNat < file.length) (byteLen : UInt32) :
    (windowLength info byteOff byteLen).toNat = bytesAsked file byteOff byteLen := by
  rw [← known.size] at before
  rw [windowLength_eq_askedLength before, known.size]
  rfl

theorem llmFetchWindow_served {server : Server} {fileId asked : UInt8}
    {rest : List (Option (List UInt8))} (works : host.failures = [])
    (answered : recvFrom (host.incoming ++ host.network (metaRequest asked)) =
        some (metaResponse server fileId file, rest))
    (small : file.length < 2 ^ 32) (dst : Nat → UInt8) {byteLen : UInt32}
    (before : byteOff.toNat < file.length)
    (fits : byteOff.toNat + bytesAsked file byteOff byteLen ≤ file.length) :
    llmFetchWindow asked dst byteOff byteLen host =
      let ended :=
        transferWindow asked (host.afterMeta asked rest)
          (start (servedMeta server file) dst byteOff
            (windowLength (servedMeta server file) byteOff byteLen))
      .returned
        ⟨finishWindow (servedMeta server file) ended.2, ended.2.fileBuf,
          some (servedMeta server file).fileSize⟩
        ended.1 := by
  have known : (servedMeta server file).Describes file := servedMeta_describes small
  have isLength := windowLength_toNat known before byteLen
  rw [llmFetchWindow_afterMeta (llmMetaRequest_answered works answered) works, if_neg]
  rintro (behind | beyond)
  · rw [UInt32.le_iff_toNat_le, known.size] at behind
    omega
  · rw [gt_iff_lt, UInt32.lt_iff_toNat_lt, known.size, UInt32.toNat_add, isLength] at beyond
    omega

theorem retryRounds_of_received (fileId : UInt8) (rounds stalled : Nat)
    (received : ctx.allChunksReceived = true) :
    retryRounds fileId rounds stalled host ctx = (host, ctx) := by
  cases rounds with
  | zero => rfl
  | succ rounds => rw [retryRounds, received, Bool.true_or, if_pos rfl]

/-- The number of chunks a batch of the first pass asks for. -/
def batchCount (startIdx stop : UInt32) : UInt16 :=
  if startIdx + maxRange > stop then (stop - startIdx).toUInt16
  else maxRange.toUInt16

theorem requestBatches_cons (fileId : UInt8) (stop startIdx : UInt32)
    (rest : List UInt32) (host : Host) (ctx : TransferCtx) :
    requestBatches fileId stop (startIdx :: rest) host ctx =
      requestBatches fileId stop rest
        (requestChunkRange fileId startIdx (batchCount startIdx stop) host ctx).1
        (requestChunkRange fileId startIdx (batchCount startIdx stop) host ctx).2 := rfl

theorem batchCount_toNat {startIdx stop : UInt32} (ordered : startIdx.toNat < stop.toNat)
    (fits : stop.toNat + maxRange.toNat < 2 ^ 32) :
    (batchCount startIdx stop).toNat = min maxRange.toNat (stop.toNat - startIdx.toNat) := by
  have range : maxRange.toNat = 8 := rfl
  rw [range] at fits ⊢
  rw [batchCount]
  split_ifs with short
  · rw [gt_iff_lt, UInt32.lt_iff_toNat_lt, UInt32.toNat_add, range] at short
    rw [UInt32.toNat_toUInt16, UInt32.toNat_sub_of_le _ _ (UInt32.le_iff_toNat_le.mpr ordered.le)]
    omega
  · rw [gt_iff_lt, UInt32.lt_iff_toNat_lt, UInt32.toNat_add, range] at short
    have isRange : maxRange.toUInt16.toNat = 8 := rfl
    rw [isRange]
    omega

/-- The results of the receives of a batch begin with a front that is within
the loop's spins, has no three receives in a row that give nothing, and contains
the server's answer to the request. -/
def BatchInTime (server : Server) (fileId : UInt8) (startIdx : UInt32) (count : UInt16)
    (host : Host) : Prop :=
  ∃ front rest,
    (host.send (dataRangeRequest fileId startIdx count)).2.incoming = front ++ rest ∧
      front.length ≤ maxReceiveSpins / 10 ∧ idleBreaks 0 front = 0 ∧
      ∀ packet ∈ handleMessage server (dataRangeRequest fileId startIdx count), some packet ∈ front

/-- Each batch that the first pass requests is answered in time. -/
def BatchesInTime (server : Server) (fileId : UInt8) (stop : UInt32) :
    List UInt32 → Host → TransferCtx → Prop
  | [], _, _ => True
  | startIdx :: rest, host, ctx =>
    let count := batchCount startIdx stop
    let next := requestChunkRange fileId startIdx count host ctx
    (ctx.countMissingInRange startIdx (startIdx + count.toUInt32) ≠ 0 →
        BatchInTime server fileId startIdx count host) ∧
      BatchesInTime server fileId stop rest next.1 next.2

section FirstPass

variable {server : Server} {fileId : UInt8} {file : List UInt8}

def batchGoal (startIdx stop : UInt32) : List UInt32 :=
  indices startIdx (startIdx + (batchCount startIdx stop).toUInt32)

variable {ctx : TransferCtx} {startIdx : UInt32} {host : Host}

theorem mem_batchGoal {stop : UInt32} (ordered : startIdx.toNat < stop.toNat)
    (fits : stop.toNat + maxRange.toNat < 2 ^ 32) (chunkIdx : UInt32) :
    chunkIdx ∈ batchGoal startIdx stop ↔
      startIdx.toNat ≤ chunkIdx.toNat ∧
        chunkIdx.toNat < startIdx.toNat + maxRange.toNat ∧
        chunkIdx.toNat < stop.toNat := by
  rw [batchGoal, mem_indices, UInt32.toNat_add, UInt16.toNat_toUInt32,
    batchCount_toNat ordered fits]
  omega

theorem WithinFile.batch_bounds (within : WithinFile file ctx)
    (ordered : startIdx.toNat < ctx.firstChunk.toNat + ctx.nChunks.toNat) :
    startIdx.toNat < (ctx.firstChunk + ctx.nChunks).toNat ∧
      (ctx.firstChunk + ctx.nChunks).toNat + maxRange.toNat < 2 ^ 32 := by
  have few := within.totalChunks_lt
  have inside := within.2
  have stopsAt := within.windowEnd
  have range : maxRange.toNat = 8 := rfl
  omega

theorem requestChunkRange_completes (served : server.files fileId = some file)
    (works : host.failures = []) (within : WithinFile file ctx)
    (ordered : startIdx.toNat < ctx.firstChunk.toNat + ctx.nChunks.toNat)
    (inTime : ctx.countMissingInRange startIdx (startIdx + (batchCount startIdx
              (ctx.firstChunk + ctx.nChunks)).toUInt32) ≠ 0 →
        BatchInTime server fileId startIdx
          (batchCount startIdx (ctx.firstChunk + ctx.nChunks)) host) :
    Complete (batchGoal startIdx (ctx.firstChunk + ctx.nChunks))
      (requestChunkRange fileId startIdx
        (batchCount startIdx (ctx.firstChunk + ctx.nChunks)) host ctx).2 := by
  have few := within.totalChunks_lt
  have inside := within.2
  have range : maxRange.toNat = 8 := rfl
  have stopsAt := within.windowEnd
  obtain ⟨before, fits⟩ := within.batch_bounds ordered
  have isCount := batchCount_toNat before fits
  rw [requestChunkRange]
  by_cases nothing :
      ctx.countMissingInRange startIdx
        (startIdx + (batchCount startIdx (ctx.firstChunk + ctx.nChunks)).toUInt32) = 0
  · rw [if_pos nothing]
    exact (countMissingInRange_eq_zero _ _).1 nothing
  · rw [if_neg nothing]
    obtain ⟨front, rest, isIncoming, soon, noBreak, answered⟩ := inTime nothing
    rw [Host.send_of_noFailures works] at isIncoming ⊢
    apply receiveLoop_completes front isIncoming soon noBreak within
    · intro later _
      rw [beq_iff_eq]
      exact countMissingInRange_eq_zero _ _
    · intro chunkIdx isGoal missing
      refine ⟨fileId, answered _ ?_⟩
      rw [mem_batchGoal before fits] at isGoal
      rw [handleMessage_dataRangeRequest served (by omega)
        (by rw [isCount, range, Server.maxRange]; omega) (by omega)
        (by omega)]
      apply List.mem_map_of_mem
      rw [List.mem_range'_1]
      omega

theorem requestBatches_completes (served : server.files fileId = some file) (starts : List UInt32)
    (works : host.failures = []) (within : WithinFile file ctx)
    (inWindow : ∀ startIdx ∈ starts, startIdx.toNat < ctx.firstChunk.toNat + ctx.nChunks.toNat)
    (inTime : BatchesInTime server fileId (ctx.firstChunk + ctx.nChunks) starts host ctx) :
    ∀ startIdx ∈ starts,
      Complete (batchGoal startIdx (ctx.firstChunk + ctx.nChunks))
        (requestBatches fileId (ctx.firstChunk + ctx.nChunks) starts host ctx).2 := by
  generalize isStop : ctx.firstChunk + ctx.nChunks = stop at inTime ⊢
  induction starts generalizing host ctx with
  | nil =>
    intro startIdx isStart
    cases isStart
  | cons first rest ih =>
    obtain ⟨firstInTime, restInTime⟩ := inTime
    rw [← isStop] at firstInTime
    have firstWithin := inWindow first List.mem_cons_self
    have firstComplete := requestChunkRange_completes served works within firstWithin firstInTime
    rw [isStop] at firstComplete
    generalize isNext :
      requestChunkRange fileId first (batchCount first stop) host ctx =
        next at firstComplete restInTime
    have kept :=
      ((stable_sameWindow ctx).and stable_noFailures).requestChunkRange
        fileId first (batchCount first stop) ⟨.refl ctx, works⟩
    rw [isNext] at kept
    intro startIdx isStart
    rw [requestBatches_cons, isNext]
    rcases List.mem_cons.mp isStart with isFirst | isLater
    · rw [isFirst]
      exact (stable_complete _).requestBatches fileId stop rest firstComplete
    · apply ih kept.2 (within.sameWindow kept.1) _ _ restInTime startIdx isLater
      · intro start isMember
        rw [kept.1.firstChunk, kept.1.nChunks]
        exact inWindow start (List.mem_cons_of_mem _ isMember)
      · rw [kept.1.firstChunk, kept.1.nChunks]
        exact isStop

/-- With all batches in time the first pass leaves nothing to do. -/
theorem transferWindow_completes (served : server.files fileId = some file)
    (works : host.failures = []) (within : WithinFile file ctx)
    (inTime : BatchesInTime server fileId (ctx.firstChunk + ctx.nChunks)
        (pieceStarts ctx.firstChunk (ctx.firstChunk + ctx.nChunks) maxRange)
        host ctx) :
    let passed :=
      requestBatches fileId (ctx.firstChunk + ctx.nChunks)
        (pieceStarts ctx.firstChunk (ctx.firstChunk + ctx.nChunks) maxRange)
        host ctx
    passed.2.allChunksReceived = true ∧ transferWindow fileId host ctx = passed := by
  have few := within.totalChunks_lt
  have inside := within.2
  have stopsAt := within.windowEnd
  have range : maxRange.toNat = 8 := rfl
  have fits : (ctx.firstChunk + ctx.nChunks).toNat + maxRange.toNat < 2 ^ 32 := by omega
  have starts :
      ∀ start ∈ pieceStarts ctx.firstChunk (ctx.firstChunk + ctx.nChunks) maxRange,
        start.toNat < ctx.firstChunk.toNat + ctx.nChunks.toNat := by
    intro start isStart
    rw [← stopsAt]
    exact (bounds_of_mem_pieceStarts (by omega) fits isStart).2
  have complete := requestBatches_completes served _ works within starts inTime
  have same :
      SameWindow ctx
        (requestBatches fileId (ctx.firstChunk + ctx.nChunks)
          (pieceStarts ctx.firstChunk (ctx.firstChunk + ctx.nChunks) maxRange) host ctx).2 :=
    (stable_sameWindow ctx).requestBatches fileId _ _ (.refl ctx)
  rw [transferWindow]
  generalize
    requestBatches fileId (ctx.firstChunk + ctx.nChunks)
      (pieceStarts ctx.firstChunk (ctx.firstChunk + ctx.nChunks) maxRange)
      host ctx = passed at complete same ⊢
  have received : passed.2.allChunksReceived = true := by
    rw [(within.sameWindow same).allChunksReceived_iff]
    intro chunkIdx
    by_contra missing
    have inWindow : ctx.chunkInWindow chunkIdx = true := by
      rw [← same.chunkInWindow]
      rw [Bool.not_eq_false, isMissing, Bool.and_eq_true] at missing
      exact missing.1
    rw [within.chunkInWindow_iff] at inWindow
    obtain ⟨start, isStart, fromStart, toEnd, beforeStop⟩ :=
      mem_pieceStarts (by omega) fits inWindow.1 (by omega)
    apply missing
    apply complete start isStart
    rw [mem_batchGoal beforeStop fits]
    omega
  exact ⟨received, retryRounds_of_received fileId maxRetryRounds 0 received⟩

end FirstPass

/-! ## The result -/

theorem WindowOf.verifies {dst : Nat → UInt8} (window : WindowOf file ctx)
    (filled : Filled file dst ctx) (received : ctx.allChunksReceived = true)
    {size : UInt32} {hash : List UInt8} (isSize : size.toNat = file.length)
    (isHash : hash = (Sha256.sha256Hash file).toList)
    (fromStart : ctx.winOff = 0) (wholeFile : ctx.winLen = size) :
    verifyFileIntegrity ctx.fileBuf size hash = true := by
  have isFile : (List.range size.toNat).map ctx.fileBuf = file := by
    apply List.ext_getElem
    · rw [List.length_map, List.length_range, isSize]
    · intro i inside inFile
      rw [List.getElem_map, List.getElem_range,
        window.bytes filled received (by rw [wholeFile]; omega), fromStart]
      change file.getD (0 + i) 0 = file[i]
      rw [Nat.zero_add, List.getD_eq_getElem _ _ inFile]
  rw [verifyFileIntegrity, isFile, isHash, decide_eq_true_iff]

theorem WindowOf.finishes {server : Server} {dst : Nat → UInt8} (window : WindowOf file ctx)
    (filled : Filled file dst ctx) (received : ctx.allChunksReceived = true)
    (small : file.length < 2 ^ 32) (standard : server.hashlib = SecureHash.digest) :
    finishWindow (servedMeta server file) ctx = 0 := by
  have known : (servedMeta server file).Describes file := servedMeta_describes small
  have isHash : (servedMeta server file).hash = (Sha256.sha256Hash file).toList := by
    rw [Sha256.sha256Hash_eq_digest (by omega), ← standard]
    rfl
  rw [finishWindow_eq_zero]
  refine ⟨received, ?_⟩
  rintro ⟨fromStart, wholeFile⟩
  exact window.verifies filled received known.size isHash fromStart wholeFile

/-- Metadata arrives first, then only packets of the file and datagrams that
are no data packets, each requested batch in time. -/
structure FetchInTime (server : Server) (fileId : UInt8) (file : List UInt8)
    (dst : Nat → UInt8) (byteOff byteLen : UInt32) (host : Host)
    (response : List UInt8) (rest : List (Option (List UInt8))) : Prop where
  works : host.failures = []
  isResponse : response ∈ handleMessage server (metaRequest fileId)
  answered : recvFrom (host.incoming ++ host.network (metaRequest fileId)) = some (response, rest)
  packets : (host.afterMeta fileId rest).Supplies (OfFile file)
  batches :
    let ctx := start (FileMeta.parse (response.take 48)) dst byteOff byteLen
    BatchesInTime server fileId (ctx.firstChunk + ctx.nChunks)
      (pieceStarts ctx.firstChunk (ctx.firstChunk + ctx.nChunks) maxRange)
      (host.afterMeta fileId rest) ctx

/-- A window fetch whose batches are answered in time returns 0 with the bytes
of the window. -/
theorem llmFetchWindow_byteExact {server : Server} {fileId : UInt8} {file : List UInt8}
    (served : server.files fileId = some file) (small : file.length < 2 ^ 31)
    (standard : server.hashlib = SecureHash.digest) {byteOff byteLen : UInt32}
    (positive : 1 ≤ byteLen.toNat) (fits : byteOff.toNat + byteLen.toNat ≤ file.length)
    {dst : Nat → UInt8} {host : Host} {response : List UInt8} {rest : List (Option (List UInt8))}
    (inTime : FetchInTime server fileId file dst byteOff byteLen host response rest) :
    ∃ fetched later,
      llmFetchWindow fileId dst byteOff byteLen host = .returned fetched later ∧
        fetched.result = 0 ∧
        ∀ i, i < byteLen.toNat → fetched.dst i = file.getD (byteOff.toNat + i) 0 := by
  obtain ⟨works, isResponse, answered, packets, batches⟩ := inTime
  have smaller : file.length < 2 ^ 32 := by omega
  have notZero : byteLen ≠ 0 := by
    intro isZero
    rw [isZero] at positive
    exact absurd positive (by decide)
  rw [handleMessage_metaRequest served smaller, List.mem_singleton] at isResponse
  rw [isResponse] at answered batches
  rw [metaResponse_take, parse_metaResponse] at batches
  have known : (servedMeta server file).Describes file := servedMeta_describes smaller
  have window := start_windowOf known dst fits (by omega)
  have begins := start_filled known dst byteOff byteLen
  have afterwards :=
    ((stable_filled file dst).and (stable_sameWindow _)).transferWindow
      fileId ⟨⟨packets, begins⟩, .refl _⟩
  have stillWorks : (host.afterMeta fileId rest).failures = [] := works
  obtain ⟨received, isPass⟩ := transferWindow_completes served stillWorks window.within batches
  rw [← isPass] at received
  have isAsked : bytesAsked file byteOff byteLen = byteLen.toNat := by
    rw [bytesAsked, if_neg notZero]
  have isLength : windowLength (servedMeta server file) byteOff byteLen = byteLen := by
    rw [windowLength, if_neg notZero]
  rw [llmFetchWindow_served works answered smaller dst (by omega) (by omega), isLength]
  generalize
    transferWindow fileId (host.afterMeta fileId rest)
      (start (servedMeta server file) dst byteOff byteLen) = ended at afterwards received
  obtain ⟨⟨-, filled⟩, same⟩ := afterwards
  have sameWindow := window.sameWindow same
  refine ⟨_, _, rfl, ?_, ?_⟩
  · exact sameWindow.finishes filled received smaller standard
  · intro i inside
    have stillInside : i < ended.2.winLen.toNat := by
      rw [same.winLen]
      exact inside
    have isByte := sameWindow.bytes filled received stillInside
    rw [same.winOff] at isByte
    exact isByte

/-- A server with one file, and a client that asks for its last two bytes and
gets the packet twice. -/
def smallServer : Server where
  hashlib := SecureHash.digest
  files := fun fileId => if fileId = 7 then some [10, 20, 30] else none

def smallFetch : Host where
  incoming :=
    [none, some (metaResponse smallServer 7 [10, 20, 30]),
      some (servedPacket 7 [10, 20, 30] 0),
      some (servedPacket 7 [10, 20, 30] 0)]
  network := fun _ => []
  failures := []
  sent := []
  spent := false

theorem smallFetch_inTime :
    FetchInTime smallServer 7 [10, 20, 30] (fun _ => 0) 1 2 smallFetch
      (metaResponse smallServer 7 [10, 20, 30])
      [some (servedPacket 7 [10, 20, 30] 0), some (servedPacket 7 [10, 20, 30] 0)] where
  works := rfl
  isResponse := by
    rw [handleMessage_metaRequest rfl (by decide)]
    exact List.mem_singleton_self _
  answered := rfl
  packets := by
    constructor
    · intro datagram arrived
      have isPacket : datagram = servedPacket 7 [10, 20, 30] 0 := by
        simpa [Host.afterMeta] using arrived
      exact .inl ⟨7, 0, by decide, isPacket⟩
    · intro request datagram arrived
      cases arrived
  batches := by
    refine ⟨fun _ => ⟨[some (servedPacket 7 [10, 20, 30] 0)],
      [some (servedPacket 7 [10, 20, 30] 0)], rfl, by decide, rfl, ?_⟩,
      trivial⟩
    intro packet isReply
    have isPacket : packet = servedPacket 7 [10, 20, 30] 0 := by
      have replies :
          handleMessage smallServer (dataRangeRequest 7 0 1) = [servedPacket 7 [10, 20, 30] 0] := by
        decide
      exact List.mem_singleton.mp (replies ▸ isReply)
    rw [isPacket]
    exact List.mem_singleton_self _

theorem llmFetchWindow_byteExact_smallFetch :
    ∃ fetched later,
      llmFetchWindow 7 (fun _ => 0) 1 2 smallFetch = .returned fetched later ∧
        fetched.result = 0 ∧
        ∀ i, i < (2 : UInt32).toNat →
          fetched.dst i = ([10, 20, 30] : List UInt8).getD ((1 : UInt32).toNat + i) 0 := by
  have served : smallServer.files 7 = some [10, 20, 30] := rfl
  have small : ([10, 20, 30] : List UInt8).length < 2 ^ 31 := by decide
  have standard : smallServer.hashlib = SecureHash.digest := rfl
  exact llmFetchWindow_byteExact served small standard (by decide) (by decide) smallFetch_inTime

end LlmRuntime.Ftp
