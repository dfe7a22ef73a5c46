import LlmRuntime.Ftp.WrittenBytes
import LlmRuntime.Ftp.WrittenBytes

/-!
# Where packets land

`process_data_packet` computes with 32-bit numbers that the server chooses.  A
sum that wraps empties the copy or the window; so a packet writes inside the
window, at its place, and marks its own chunk.
-/

namespace LlmRuntime.Ftp

open Bytes TransferCtx

/-- The copy of the packet writes offset `j` of the buffer. -/
def WritesTo (ctx : TransferCtx) (packet : List UInt8) (j : Nat) : Prop :=
  (processDataPacket ctx packet).1 = 1 ∧ CopiesTo ctx (packetIndex packet) (packetLength packet) j

/-- The offsets of the packet that `process_data_packet` reads. -/
def packetReads (ctx : TransferCtx) (packet : List UInt8) : List Nat :=
  if packet.length < 12 then []
  else if packet.getD 0 0 ≠ msgDataPacket then [0]
  else
    let chunkIdx := packetIndex packet
    let (copyStart, copyEnd) := copySpan ctx chunkIdx (packetLength packet)
    [0, 4, 5, 6, 7, 8, 9] ++
      if (processDataPacket ctx packet).1 = 1 ∧ copyStart < copyEnd then
        List.range' (12 + (copyStart - chunkIdx * chunkBytes).toNat) (copyEnd - copyStart).toNat
      else []

/-- What one packet may do to a transfer. -/
structure Contained (ctx : TransferCtx) (packet : List UInt8) : Prop where
  inPacket : ∀ i ∈ packetReads ctx packet, i < packet.length
  inWindow : ∀ j, WritesTo ctx packet j → j < ctx.winLen.toNat
  inPlace :
    ∀ j, WritesTo ctx packet j →
      Carries packet (ctx.winOff.toNat + j) ((processDataPacket ctx packet).2.fileBuf j)
  otherBytes :
    ∀ j, ¬ WritesTo ctx packet j → (processDataPacket ctx packet).2.fileBuf j = ctx.fileBuf j
  ownEntry :
    (processDataPacket ctx packet).1 = 1 →
      (packetIndex packet - ctx.firstChunk).toNat < ctx.nChunks.toNat ∧
        (processDataPacket ctx packet).2.received =
          Function.update ctx.received (packetIndex packet - ctx.firstChunk).toNat true
  otherwise :
    (processDataPacket ctx packet).1 ≠ 1 →
      ((processDataPacket ctx packet).1 = -1 ∨ (processDataPacket ctx packet).1 = 0) ∧
        (processDataPacket ctx packet).2 = ctx

/-- A packet that is new is a whole data packet for a chunk of the window, and
is stored. -/
theorem processDataPacket_new {ctx : TransferCtx} {packet : List UInt8}
    (isNew : (processDataPacket ctx packet).1 = 1) :
    packet.getD 0 0 = msgDataPacket ∧
      packetIndex packet < ctx.totalChunks ∧
      ctx.chunkInWindow (packetIndex packet) = true ∧
      12 + (packetLength packet).toNat ≤ packet.length ∧
      (processDataPacket ctx packet).2 =
        storeChunk ctx packet (packetIndex packet) (packetLength packet) := by
  rw [processDataPacket] at isNew ⊢
  dsimp only at isNew ⊢
  split_ifs at isNew ⊢ with short isData unknown outside cut past isThere
  · cases isNew
  · cases isNew
  · cases isNew
  · cases isNew
  · cases isNew
  · cases isNew
  · exact ⟨not_not.mp isData, UInt32.not_le.mp unknown, outside, not_lt.mp cut, rfl⟩
  · cases isNew

theorem processDataPacket_otherwise {ctx : TransferCtx} {packet : List UInt8}
    (notNew : (processDataPacket ctx packet).1 ≠ 1) :
    ((processDataPacket ctx packet).1 = -1 ∨ (processDataPacket ctx packet).1 = 0) ∧
      (processDataPacket ctx packet).2 = ctx := by
  rw [processDataPacket] at notNew ⊢
  dsimp only at notNew ⊢
  split_ifs at notNew ⊢ with short isData unknown outside cut past isThere
  · exact ⟨.inl rfl, rfl⟩
  · exact ⟨.inl rfl, rfl⟩
  · exact ⟨.inl rfl, rfl⟩
  · exact ⟨.inl rfl, rfl⟩
  · exact ⟨.inl rfl, rfl⟩
  · exact ⟨.inr rfl, rfl⟩
  · exact absurd rfl notNew
  · exact ⟨.inl rfl, rfl⟩

/-- The window of a context, as `llm_fetch_window` computes it from any
numbers. -/
structure ComputedWindow (ctx : TransferCtx) : Prop where
  first : ctx.firstChunk.toNat = ctx.winOff.toNat / 512
  stop :
    (ctx.firstChunk + ctx.nChunks).toNat =
      (ctx.winOff.toNat + ctx.winLen.toNat + 511) % 2 ^ 32 / 512

theorem start_computedWindow (info : FileMeta) (dst : Nat → UInt8) (byteOff byteLen : UInt32) :
    ComputedWindow (start info dst byteOff byteLen) :=
  ⟨UInt32.toNat_div _ _, start_lastChunk info dst byteOff byteLen⟩

theorem ComputedWindow.sameWindow {ctx later : TransferCtx} (window : ComputedWindow ctx)
    (same : SameWindow ctx later) : ComputedWindow later := by
  obtain ⟨first, stop⟩ := window
  constructor
  · rw [same.firstChunk, same.winOff]
    exact first
  · rw [same.firstChunk, same.nChunks, same.winOff, same.winLen]
    exact stop

section Contained

variable {ctx : TransferCtx} {packet : List UInt8}

theorem ComputedWindow.chunkStart (window : ComputedWindow ctx)
    {chunkIdx : UInt32} (inWindow : ctx.chunkInWindow chunkIdx = true) :
    ctx.firstChunk.toNat ≤ chunkIdx.toNat ∧
      chunkIdx.toNat < (ctx.firstChunk + ctx.nChunks).toNat ∧
      (chunkIdx * chunkBytes).toNat = chunkIdx.toNat * 512 := by
  rw [chunkInWindow, Bool.and_eq_true, decide_eq_true_iff, decide_eq_true_iff,
    UInt32.le_iff_toNat_le, UInt32.lt_iff_toNat_lt] at inWindow
  refine ⟨inWindow.1, inWindow.2, ?_⟩
  have beforeStop := inWindow.2
  have bytes : chunkBytes.toNat = 512 := rfl
  rw [window.stop] at beforeStop
  rw [UInt32.toNat_mul, bytes]
  omega

/-- An offset that is written lies in the window and in the payload, whatever
wraps. -/
theorem ComputedWindow.copied (window : ComputedWindow ctx)
    {chunkIdx length : UInt32} (inWindow : ctx.chunkInWindow chunkIdx = true)
    {j : Nat} (copied : CopiesTo ctx chunkIdx length j) :
    j < ctx.winLen.toNat ∧
      chunkIdx.toNat * 512 ≤ ctx.winOff.toNat + j ∧
      ctx.winOff.toNat + j < chunkIdx.toNat * 512 + length.toNat := by
  obtain ⟨-, -, chunkStart⟩ := window.chunkStart inWindow
  rw [copiesTo_iff ctx chunkStart rfl, UInt32.toNat_add, UInt32.toNat_add, chunkStart] at copied
  obtain ⟨fromStart, toEnd, toWindowEnd⟩ := copied
  -- a remainder is at most the sum
  have chunkEnd := Nat.mod_le (chunkIdx.toNat * 512 + length.toNat) (2 ^ 32)
  have windowEnd := Nat.mod_le (ctx.winOff.toNat + ctx.winLen.toNat) (2 ^ 32)
  omega

theorem ComputedWindow.entry (window : ComputedWindow ctx) {chunkIdx : UInt32}
    (inWindow : ctx.chunkInWindow chunkIdx = true) :
    (chunkIdx - ctx.firstChunk).toNat < ctx.nChunks.toNat := by
  obtain ⟨fromFirst, toStop, -⟩ := window.chunkStart inWindow
  have chunks : ctx.nChunks.toNat < 2 ^ 32 := ctx.nChunks.toNat_lt
  have first : ctx.firstChunk.toNat < 2 ^ 32 := ctx.firstChunk.toNat_lt
  rw [UInt32.toNat_add] at toStop
  rw [UInt32.toNat_sub_of_le _ _ (UInt32.le_iff_toNat_le.mpr fromFirst)]
  omega

theorem ComputedWindow.sourceEnd (window : ComputedWindow ctx)
    {chunkIdx length : UInt32} (inWindow : ctx.chunkInWindow chunkIdx = true)
    (nonempty : (copySpan ctx chunkIdx length).1 < (copySpan ctx chunkIdx length).2) :
    ((copySpan ctx chunkIdx length).1 - chunkIdx * chunkBytes).toNat +
        ((copySpan ctx chunkIdx length).2 -
          (copySpan ctx chunkIdx length).1).toNat ≤ length.toNat := by
  obtain ⟨-, -, chunkStart⟩ := window.chunkStart inWindow
  obtain ⟨isStart, isEnd⟩ :=
    copySpan_toNat ctx chunkStart
      (rfl : (chunkIdx * chunkBytes + length).toNat = (chunkIdx * chunkBytes + length).toNat)
  have ordered := UInt32.lt_iff_toNat_lt.mp nonempty
  have afterChunk : (chunkIdx * chunkBytes).toNat ≤ (copySpan ctx chunkIdx length).1.toNat := by
    rw [isStart, chunkStart]
    exact Nat.le_max_left _ _
  have chunkEnd := Nat.mod_le (chunkIdx.toNat * 512 + length.toNat) (2 ^ 32)
  rw [UInt32.toNat_sub_of_le _ _ (UInt32.le_iff_toNat_le.mpr afterChunk),
    UInt32.toNat_sub_of_le _ _ (UInt32.le_iff_toNat_le.mpr ordered.le), chunkStart]
  rw [UInt32.toNat_add, chunkStart] at isEnd
  omega

theorem ComputedWindow.packetReads_lt (window : ComputedWindow ctx) {i : Nat}
    (isRead : i ∈ packetReads ctx packet) : i < packet.length := by
  rw [packetReads] at isRead
  dsimp only at isRead
  split_ifs at isRead with short isData copies
  · cases isRead
  · rw [List.mem_singleton] at isRead
    omega
  · rw [List.mem_append] at isRead
    rcases isRead with inHeader | inPayload
    · simp only [List.mem_cons, List.not_mem_nil, or_false] at inHeader
      omega
    · obtain ⟨-, -, inWindow, whole, -⟩ := processDataPacket_new copies.1
      have source := window.sourceEnd inWindow copies.2
      rw [List.mem_range'_1] at inPayload
      omega
  · rw [List.append_nil] at isRead
    simp only [List.mem_cons, List.not_mem_nil, or_false] at isRead
    omega

end Contained

/-- A packet stays inside every window that can be computed, and inside
itself. -/
theorem ComputedWindow.contained {ctx : TransferCtx} (window : ComputedWindow ctx)
    (packet : List UInt8) : Contained ctx packet := by
  constructor
  · intro i isRead
    exact window.packetReads_lt isRead
  · rintro j ⟨isNew, copied⟩
    obtain ⟨-, -, inWindow, -, -⟩ := processDataPacket_new isNew
    exact (window.copied inWindow copied).1
  · rintro j ⟨isNew, copied⟩
    obtain ⟨isData, -, inWindow, whole, isStored⟩ := processDataPacket_new isNew
    obtain ⟨-, fromStart, toEnd⟩ := window.copied inWindow copied
    obtain ⟨-, -, chunkStart⟩ := window.chunkStart inWindow
    refine ⟨isData, whole, fromStart, toEnd, ?_⟩
    rw [isStored, storeChunk_fileBuf_copied packet chunkStart rfl copied]
    rfl
  · intro j notWritten
    by_cases isNew : (processDataPacket ctx packet).1 = 1
    · obtain ⟨-, -, -, -, isStored⟩ := processDataPacket_new isNew
      rw [isStored]
      exact storeChunk_fileBuf_kept packet fun copied =>
        notWritten ⟨isNew, copied⟩
    · rw [(processDataPacket_otherwise isNew).2]
  · intro isNew
    obtain ⟨-, -, inWindow, -, isStored⟩ := processDataPacket_new isNew
    refine ⟨window.entry inWindow, ?_⟩
    rw [isStored]
    rfl
  · exact processDataPacket_otherwise

/-- The context with whatever buffer and bitmap its transfer has reached. -/
def TransferCtx.reached (ctx : TransferCtx) (fileBuf : Nat → UInt8) (received : Nat → Bool) :
    TransferCtx :=
  { ctx with fileBuf := fileBuf, received := received }

/-- Every packet is contained in every context that `llm_fetch_window`
builds. -/
theorem packet_contained (info : FileMeta) (dst : Nat → UInt8) (byteOff byteLen : UInt32)
    (fileBuf : Nat → UInt8) (received : Nat → Bool) (packet : List UInt8) :
    Contained
      ((start info dst byteOff (windowLength info byteOff byteLen)).reached fileBuf received)
      packet := by
  have window := start_computedWindow info dst byteOff (windowLength info byteOff byteLen)
  have same :
      SameWindow (start info dst byteOff (windowLength info byteOff byteLen))
        ((start info dst byteOff (windowLength info byteOff byteLen)).reached fileBuf received) :=
    ⟨rfl, rfl, rfl, rfl, rfl, rfl⟩
  exact (window.sameWindow same).contained packet

/-- Offset `j` is one that packets of the chunks that the window and the file
have in common can write. -/
def Reaches (start : TransferCtx) (j : Nat) : Prop :=
  j < start.winLen.toNat ∧
    start.winOff.toNat + j < start.totalChunks.toNat * chunkSize ∧
    0 < (start.firstChunk + start.nChunks).toNat

theorem stable_unreached {start : TransferCtx} (window : ComputedWindow start) :
    Stable fun host ctx =>
      host.Supplies (fun _ => True) ∧ SameWindow start ctx ∧
        ∀ j, ¬ Reaches start j → ctx.fileBuf j = start.fileBuf j := by
  apply stable_of_supplies
  rintro ctx datagram - ⟨same, kept⟩
  have windowNow := window.sameWindow same
  have cut : (datagram.take (12 + chunkSize)).length ≤ 12 + chunkSize := List.length_take_le _ _
  generalize datagram.take (12 + chunkSize) = packet at cut ⊢
  refine ⟨same.trans (processDataPacket_sameWindow ctx packet), ?_⟩
  intro j unreached
  rw [(windowNow.contained _).otherBytes j, kept j unreached]
  rintro ⟨isNew, copied⟩
  obtain ⟨-, known, inWindow, whole, -⟩ := processDataPacket_new isNew
  obtain ⟨inside, -, toEnd⟩ := windowNow.copied inWindow copied
  obtain ⟨-, toStop, -⟩ := windowNow.chunkStart inWindow
  rw [UInt32.lt_iff_toNat_lt] at known
  rw [chunkSize] at cut
  rw [same.winLen] at inside
  rw [same.winOff] at toEnd
  rw [same.totalChunks] at known
  rw [same.firstChunk, same.nChunks] at toStop
  refine unreached ⟨inside, ?_, by omega⟩
  rw [chunkSize]
  linarith

/-- What a metadata response says. -/
structure MetaAnswer where
  size : UInt32
  chunks : UInt32
  digest : Vector UInt8 32

namespace MetaAnswer

variable (answer : MetaAnswer)

def info : FileMeta := ⟨answer.size, answer.chunks, answer.digest.toList⟩

theorem info_fileSize : answer.info.fileSize = answer.size := rfl

def response : List UInt8 :=
  [msgMetaResp, 0, 0, 1] ++ beWord answer.size ++ beWord chunkBytes ++
    beWord answer.chunks ++ answer.digest.toList

theorem response_length : answer.response.length = 48 := by
  simp only [response, List.length_append, List.length_cons,
    List.length_nil, beWord, Vector.length_toList]

theorem parse_response : FileMeta.parse answer.response = answer.info := by
  have digestLength : answer.digest.toList.length = 32 := Vector.length_toList
  rw [FileMeta.parse, info, FileMeta.mk.injEq]
  refine ⟨?_, ?_, ?_⟩
  · simp only [response, List.append_assoc, List.cons_append, List.nil_append,
      List.drop_succ_cons, List.drop_zero, readBeWord_beWord]
  · have behind :
        answer.response.drop 12 = beWord answer.chunks ++ answer.digest.toList := by
      simp only [response, beWord, List.cons_append, List.nil_append,
        List.drop_succ_cons, List.drop_zero]
    rw [behind, readBeWord_beWord]
  · have behind : answer.response.drop 16 = answer.digest.toList := by
      simp only [response, beWord, List.cons_append, List.nil_append,
        List.drop_succ_cons, List.drop_zero]
    rw [behind, List.take_of_length_le digestLength.le]

end MetaAnswer

/-- The metadata requests of a call that return metadata return that of the
two answers. -/
def AnsweredBy (fileId : UInt8) (first second : MetaAnswer) (host : Host) : Prop :=
  ∀ info middle,
    llmMetaRequest fileId host = .returned (some info) middle →
      info = first.info ∧
        ∀ again later,
          llmMetaRequest fileId middle = .returned (some again) later → again = second.info

/-- No call that is answered so changes a byte behind the destination,
whatever else arrives. -/
def StaysInside (fileId : UInt8) (dstLen : UInt32) (first second : MetaAnswer) : Prop :=
  ∀ host dst fetched later,
    AnsweredBy fileId first second host →
    llmFetchFileInto fileId dst dstLen host = .returned fetched later →
      ∀ j, dstLen.toNat ≤ j → fetched.dst j = dst j

section Into

variable {fileId : UInt8} {dst : Nat → UInt8} {dstLen : UInt32}
  {host later : Host} {fetched : Fetched} {first second : MetaAnswer}

theorem llmFetchFileInto_dst (answered : AnsweredBy fileId first second host)
    (returned : llmFetchFileInto fileId dst dstLen host = .returned fetched later) :
    fetched.dst = dst ∨
      first.size.toNat ≤ dstLen.toNat ∧
        ∃ middle,
          fetched.dst =
            (transferWindow fileId middle (start second.info dst 0
                (windowLength second.info 0 first.size))).2.fileBuf := by
  rcases llmFetchFileInto_cases returned with
    ⟨-, unchanged⟩ | ⟨info, middle, inner, learned, fits, window, isFetched⟩
  · exact .inl unchanged
  rw [isFetched]
  obtain ⟨isFirst, isSecond⟩ := answered info middle learned
  rcases llmFetchWindow_cases window with
    ⟨-, unchanged⟩ | ⟨again, ending, learnedAgain, -, -, isDst, -⟩
  · exact .inl unchanged
  · rw [isSecond again ending learnedAgain, isFirst] at isDst
    rw [isFirst, gt_iff_lt, UInt32.not_lt, UInt32.le_iff_toNat_le] at fits
    exact .inr ⟨fits, _, isDst⟩

/-- The window of a first answer that is not 0 fits, and so does what an empty
file can be filled with if the second answer is small or its end wraps. -/
theorem staysInside_of_bound (bound : first.size ≠ 0 ∨ 2 ^ 32 < second.size.toNat + 512 ∨
        min second.size.toNat (second.chunks.toNat * chunkSize) ≤ dstLen.toNat) :
    StaysInside fileId dstLen first second := by
  intro host dst fetched later answered returned j behind
  rcases llmFetchFileInto_dst answered returned with unchanged | ⟨fits, middle, transferred⟩
  · rw [unchanged]
  have window := start_computedWindow second.info dst 0 (windowLength second.info 0 first.size)
  have supplies : middle.Supplies fun _ => True := ⟨fun _ _ => trivial, fun _ _ _ => trivial⟩
  obtain ⟨-, -, kept⟩ :=
    (stable_unreached window).transferWindow fileId ⟨supplies, .refl _, fun _ _ => rfl⟩
  rw [transferred]
  apply kept j
  rintro ⟨inside, inFile, nonempty⟩
  rw [window.stop] at nonempty
  change j < (windowLength second.info 0 first.size).toNat at inside
  change 0 + j < second.chunks.toNat * chunkSize at inFile
  change 0 < (0 + (windowLength second.info 0 first.size).toNat + 511) % 2 ^ 32 / 512 at nonempty
  by_cases empty : first.size = 0
  · rw [windowLength, if_pos empty, sub_zero] at inside nonempty
    change j < second.size.toNat at inside
    change 0 < (0 + second.size.toNat + 511) % 2 ^ 32 / 512 at nonempty
    have sizeBound : second.size.toNat < 2 ^ 32 := second.size.toNat_lt
    rcases bound with notEmpty | wraps | small
    · exact notEmpty empty
    · omega
    · omega
  · rw [windowLength, if_neg empty] at inside
    omega

end Into

/-! ## A packet that lands behind the destination -/

theorem transferWindow_takesFirst {holds : Host → TransferCtx → Prop} (stable : Stable holds)
    (fileId : UInt8) {host : Host} {ctx : TransferCtx} {datagram : List UInt8}
    {rest : List (Option (List UInt8))} (works : host.failures = [])
    (isIncoming : host.incoming = some datagram :: rest) (nonempty : datagram ≠ [])
    (fromStart : ctx.firstChunk = 0) (someChunk : 0 < ctx.nChunks.toNat)
    (fits : ctx.nChunks.toNat + maxRange.toNat < 2 ^ 32) (notThere : ctx.hasChunk 0 = false)
    (afterwards : ∀ later : Host, later.network = host.network →
        (∃ request, later.incoming = rest ++ host.network request) →
          holds later (processDataPacket ctx (datagram.take (12 + chunkSize))).2) :
    holds (transferWindow fileId host ctx).1 (transferWindow fileId host ctx).2 := by
  rw [transferWindow, fromStart, zero_add]
  dsimp only
  obtain ⟨pieces, isPieces⟩ : ∃ pieces, pieceStarts 0 ctx.nChunks maxRange = 0 :: pieces := by
    have range : maxRange.toNat = 8 := rfl
    obtain ⟨count, isCount⟩ :
        ∃ count,
          (ctx.nChunks.toNat - (0 : UInt32).toNat + maxRange.toNat - 1) /
            maxRange.toNat = count + 1 := by
      refine ⟨_, (Nat.succ_pred_eq_of_pos ?_).symm⟩
      rw [range]
      change 0 < (ctx.nChunks.toNat - 0 + 8 - 1) / 8
      omega
    rw [pieceStarts, isCount, List.range_succ_eq_map, List.map_cons]
    exact ⟨_, rfl⟩
  rw [isPieces, requestBatches_cons]
  apply stable.retryRounds
  apply stable.requestBatches
  have isMissing : ctx.isMissing 0 = true := by
    rw [isMissing, notThere, chunkInWindow, fromStart, zero_add]
    have inside : (0 : UInt32) < ctx.nChunks := UInt32.lt_iff_toNat_lt.mpr someChunk
    simp [inside]
  have someMissing : ctx.countMissingInRange 0 (0 + (batchCount 0 ctx.nChunks).toUInt32) ≠ 0 := by
    rw [Ne, countMissingInRange_eq_zero]
    intro complete
    have ordered : (0 : UInt32).toNat < ctx.nChunks.toNat := someChunk
    have isCount := batchCount_toNat ordered fits
    have range : maxRange.toNat = 8 := rfl
    have zero : (0 : UInt32).toNat = 0 := rfl
    have found := complete 0 (by
      rw [mem_indices, zero_add, UInt16.toNat_toUInt32, isCount, range, zero]
      omega)
    rw [isMissing] at found
    cases found
  rw [requestChunkRange, if_neg someMissing, Host.send_of_noFailures works]
  dsimp only
  have spins : maxReceiveSpins / 10 = 9999 + 1 := rfl
  rw [spins, receiveLoop]
  have received (request : List UInt8) :
      Host.recvTimed
          { host with
            sent := host.sent ++ [request]
            incoming := host.incoming ++ host.network request }
          (12 + chunkSize) =
        (some (datagram.take (12 + chunkSize)), { host with
            sent := host.sent ++ [request]
            incoming := rest ++ host.network request }) := by
    have notEmpty : ¬ datagram.isEmpty = true := by
      rw [List.isEmpty_iff]
      exact nonempty
    rw [Host.recvTimed, isIncoming]
    dsimp only [List.cons_append]
    rw [if_neg notEmpty]
  rw [received]
  dsimp only
  split_ifs
  · exact afterwards _ rfl ⟨_, rfl⟩
  · exact stable.receiveLoop _ _ _ (afterwards _ rfl ⟨_, rfl⟩)

/-- Two metadata responses and a data packet of ones up to offset `j`. -/
def overrunning (first second : MetaAnswer) (j : Nat) : Host :=
  delivering
    [some first.response, some second.response,
      some (servedPacket 0 (List.replicate (j + 1) 1) (j / chunkSize))]

section Overrun

variable (fileId : UInt8) (first second : MetaAnswer) (j : Nat)

/-- The system before the transfer of the call. -/
def overrunStart (fileId : UInt8) (first second : MetaAnswer) (j : Nat) : Host :=
  ((overrunning first second j).afterMeta fileId [some second.response,
      some (servedPacket 0 (List.replicate (j + 1) 1) (j / chunkSize))]).afterMeta fileId
    [some (servedPacket 0 (List.replicate (j + 1) 1) (j / chunkSize))]

theorem overrunning_first :
    llmMetaRequest fileId (overrunning first second j) =
      .returned (some first.info)
        ((overrunning first second j).afterMeta fileId [some second.response,
            some (servedPacket 0 (List.replicate (j + 1) 1) (j / chunkSize))]) := by
  rw [← first.parse_response]
  exact llmMetaRequest_of_response rfl rfl first.response_length rfl

theorem overrunning_second :
    llmMetaRequest fileId
        ((overrunning first second j).afterMeta fileId [some second.response,
            some (servedPacket 0 (List.replicate (j + 1) 1) (j / chunkSize))]) =
      .returned (some second.info) (overrunStart fileId first second j) := by
  rw [← second.parse_response]
  exact llmMetaRequest_of_response rfl rfl second.response_length rfl

theorem overrunning_answeredBy : AnsweredBy fileId first second (overrunning first second j) := by
  intro info middle learned
  rw [overrunning_first fileId first second j] at learned
  cases learned
  refine ⟨rfl, ?_⟩
  intro again later learnedAgain
  rw [overrunning_second fileId first second j] at learnedAgain
  cases learnedAgain
  rfl

variable {first second}

/-- The packet writes a one at offset `j` of an empty window up to the end of
the second file. -/
theorem overrunning_packet {j : Nat} (plain : second.size.toNat + 512 ≤ 2 ^ 32)
    (inFile : j < second.size.toNat) (inChunks : j < second.chunks.toNat * chunkSize) :
    (processDataPacket
        (start second.info (fun _ => 0) 0 second.size)
        ((servedPacket 0 (List.replicate (j + 1) 1)
          (j / chunkSize)).take (12 + chunkSize))).2.fileBuf j = 1 := by
  rw [servedPacket_take]
  have index := servedPacket_index 0 (List.replicate (j + 1) 1) (j / chunkSize)
  have declared := servedPacket_declared 0 (List.replicate (j + 1) 1) (j / chunkSize)
  have payload := servedPacket_payload 0 (List.replicate (j + 1) 1) (j / chunkSize) (j % chunkSize)
  have length := servedPacket_length 0 (List.replicate (j + 1) 1) (j / chunkSize)
  have isData :
      (servedPacket 0 (List.replicate (j + 1) 1) (j / chunkSize)).getD 0 0 = msgDataPacket := rfl
  have chunkLength := chunkOf_length (List.replicate (j + 1) (1 : UInt8)) (j / chunkSize)
  have isOne :
      (chunkOf (List.replicate (j + 1) (1 : UInt8)) (j / chunkSize)).getD
        (j % chunkSize) 0 = 1 := by
    rw [chunkOf_getD]
    · rw [List.getD_eq_getElem _ _ (by rw [List.length_replicate, chunkSize]; omega),
        List.getElem_replicate]
    · rw [chunkLength, List.length_replicate, chunkSize]
      omega
  rw [List.length_replicate] at chunkLength
  rw [isOne] at payload
  rw [chunkLength] at declared length
  generalize servedPacket 0 (List.replicate (j + 1) 1) (j / chunkSize) = packet at *
  have isIndex : (packetIndex packet).toNat = j / chunkSize := by
    have sizeBound : second.size.toNat < 2 ^ 32 := second.size.toNat_lt
    rw [index, UInt32.toNat_ofNat', chunkSize]
    omega
  have noWrap : (0 : UInt32).toNat + second.size.toNat + 512 ≤ 2 ^ 32 := by
    change 0 + second.size.toNat + 512 ≤ 2 ^ 32
    omega
  have window := start_plainWindow second.info (fun _ => 0) noWrap
  rw [chunkSize] at *
  have accepted : Accepts (start second.info (fun _ => 0) 0 second.size) packet := by
    refine ⟨?_, ⟨?_, ?_⟩, isData, rfl, ?_, ?_⟩
    · rw [UInt32.lt_iff_toNat_lt, isIndex]
      change j / 512 < second.chunks.toNat
      omega
    · rw [isIndex, chunkSize]
      exact Nat.succ_pos _
    · rw [isIndex, chunkSize]
      change j / 512 * 512 < 0 + second.size.toNat
      omega
    · rw [declared, length]
    · rw [isIndex, declared, chunkSize]
      change _ ≤ second.size.toNat
      omega
  have cut : ∀ later ∈ [packet], later.length ≤ 12 + chunkSize := by
    intro later isLater
    rw [List.mem_singleton.mp isLater, length, chunkSize]
    omega
  obtain ⟨-, -, carries⟩ :=
    window.stored_stays cut accepted rfl inFile
      (by
        rw [isIndex, chunkSize]
        change j / 512 * 512 ≤ 0 + j
        omega)
      (by
        rw [isIndex, declared, chunkSize]
        change 0 + j < _
        omega)
  have isByte := carries.isByte
  rw [isIndex, chunkSize] at isByte
  change packet.getD (12 + (0 + j - j / 512 * 512)) 0 = _ at isByte
  have place : 0 + j - j / 512 * 512 = j % 512 := by omega
  rw [place, payload] at isByte
  exact isByte.symm

theorem overrunning_fetch (dstLen : UInt32) (empty : first.size = 0)
    (nonempty : 0 < second.size.toNat) :
    ∃ fetched later,
      llmFetchFileInto fileId (fun _ => 0) dstLen
          (overrunning first second j) = .returned fetched later ∧
        fetched.dst =
          (transferWindow fileId (overrunStart fileId first second j)
            (start second.info (fun _ => 0) 0 second.size)).2.fileBuf := by
  have isLength : windowLength second.info 0 first.size = second.size := by
    rw [windowLength, if_pos empty, second.info_fileSize, sub_zero]
  have begins :
      ¬ (second.info.fileSize ≤ 0 ∨
        0 + windowLength second.info 0 first.size > second.info.fileSize) := by
    rw [isLength, zero_add, second.info_fileSize, not_or, UInt32.not_le, gt_iff_lt, UInt32.not_lt]
    exact ⟨UInt32.lt_iff_toNat_lt.mpr nonempty, UInt32.le_refl _⟩
  have fits : ¬ first.size > dstLen := by
    rw [empty, gt_iff_lt, UInt32.not_lt, UInt32.le_iff_toNat_le]
    exact Nat.zero_le _
  have fetching :=
    llmFetchWindow_afterMeta (overrunning_second fileId first second j) rfl
      (fun _ => 0) 0 first.size
  rw [if_neg begins, isLength] at fetching
  rw [llmFetchFileInto, overrunning_first]
  dsimp only
  rw [first.info_fileSize, if_neg fits, fetching]
  exact ⟨_, _, rfl, rfl⟩

/-- The one arrives, whatever the size of the destination. -/
theorem overrunning_writes (dstLen : UInt32) {j : Nat} (empty : first.size = 0)
    (plain : second.size.toNat + 512 ≤ 2 ^ 32) (inFile : j < second.size.toNat)
    (inChunks : j < second.chunks.toNat * chunkSize) :
    ∃ fetched later,
      llmFetchFileInto fileId (fun _ => 0) dstLen
          (overrunning first second j) = .returned fetched later ∧
        fetched.dst j = 1 := by
  have written := overrunning_packet plain inFile inChunks
  obtain ⟨fetched, later, returned, isDst⟩ :=
    overrunning_fetch fileId j dstLen empty (Nat.lt_of_le_of_lt (Nat.zero_le _) inFile)
  have noWrap : (0 : UInt32).toNat + second.size.toNat + 512 ≤ 2 ^ 32 := by
    change 0 + second.size.toNat + 512 ≤ 2 ^ 32
    omega
  obtain ⟨-, isLast⟩ := start_chunks second.info (fun _ => 0) noWrap
  have fromStart : (start second.info (fun _ => 0) 0 second.size).firstChunk = 0 := rfl
  have zero : (0 : UInt32).toNat = 0 := rfl
  have range : maxRange.toNat = 8 := rfl
  rw [fromStart, zero, chunkSize] at isLast
  have stays :
      Stable fun host ctx =>
        host.Supplies (fun _ => False) ∧ ctx.fileBuf j = 1 :=
    stable_of_supplies fun _ _ nothing _ => nothing.elim
  have isIncoming :
      (overrunStart fileId first second j).incoming =
        [some (servedPacket 0 (List.replicate (j + 1) 1) (j / chunkSize))] :=
    rfl
  have nonempty : servedPacket 0 (List.replicate (j + 1) 1) (j / chunkSize) ≠ [] :=
    List.cons_ne_nil _ _
  obtain ⟨-, isOne⟩ :=
    transferWindow_takesFirst stays fileId rfl isIncoming nonempty fromStart
      (by omega) (by rw [range]; omega) rfl (by
        rintro later isNetwork ⟨request, isRest⟩
        refine ⟨⟨?_, ?_⟩, written⟩
        · intro datagram arrived
          rw [isRest] at arrived
          cases arrived
        · intro request datagram arrived
          rw [isNetwork] at arrived
          cases arrived)
  refine ⟨fetched, later, returned, ?_⟩
  rw [isDst]
  exact isOne

theorem not_staysInside {dstLen : UInt32} (empty : first.size = 0)
    (plain : second.size.toNat + 512 ≤ 2 ^ 32)
    (beyond : dstLen.toNat < min second.size.toNat (second.chunks.toNat * chunkSize)) :
    ¬ StaysInside fileId dstLen first second := by
  intro inside
  obtain ⟨inFile, inChunks⟩ := lt_min_iff.mp beyond
  obtain ⟨fetched, later, returned, isOne⟩ :=
    overrunning_writes fileId dstLen empty plain inFile inChunks
  have kept :=
    inside _ _ fetched later (overrunning_answeredBy fileId _ _ _) returned dstLen.toNat le_rfl
  rw [isOne] at kept
  exact absurd kept (by decide)

end Overrun

/-- A call stays inside its destination for all that can arrive if and only if
the first answer is not the size 0, or what the second answer lets packets reach
fits. -/
theorem file_into_bound_iff (fileId : UInt8) (dstLen : UInt32) (first second : MetaAnswer) :
    StaysInside fileId dstLen first second ↔
      first.size ≠ 0 ∨ 2 ^ 32 < second.size.toNat + 512 ∨
        min second.size.toNat (second.chunks.toNat * chunkSize) ≤ dstLen.toNat := by
  constructor
  · intro inside
    by_contra exceeds
    simp only [not_or, not_not, not_lt, not_le] at exceeds
    obtain ⟨empty, plain, beyond⟩ := exceeds
    exact not_staysInside fileId empty plain beyond inside
  · exact staysInside_of_bound

/-- The answers 0 and 1024 to the two requests, and a destination of 512
bytes: chunk 1 is written behind it. -/
theorem emptyAnswer_overruns :
    ∃ fetched later,
      llmFetchFileInto 1 (fun _ => 0) 512
          (overrunning ⟨0, 0, Vector.replicate 32 0⟩ ⟨1024, 2, Vector.replicate 32 0⟩ 512) =
        .returned fetched later ∧
      fetched.dst 512 = 1 := overrunning_writes 1 512 rfl (by decide) (by decide) (by decide)

end LlmRuntime.Ftp
