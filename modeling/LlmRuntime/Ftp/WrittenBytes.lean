import LlmRuntime.Ftp.FileMixing

/-!
# Which bytes a fetch writes

`process_data_packet` counts a chunk as received with the first packet that
passes its checks, and copies as many bytes as that packet declares.  The
datagrams between two states of the operating system determine the context.
-/

namespace LlmRuntime.Ftp

open TransferCtx

/-- The datagrams among the results of receives, as the buffer of the receive
loops takes them. -/
def cutPackets (results : List (Option (List UInt8))) : List (List UInt8) :=
  results.reduceOption.map fun datagram => datagram.take (12 + chunkSize)

def processAll (ctx : TransferCtx) (packets : List (List UInt8)) : TransferCtx :=
  packets.foldl (fun ctx packet => (processDataPacket ctx packet).2) ctx

/-- What was delivered between two states: what was there and what came in
answer to the requests sent in between, without what is left. -/
def Host.delivered (host later : Host) : List (List UInt8) :=
  let stream := host.incoming ++ (later.sent.drop host.sent.length).flatMap host.network
  cutPackets (stream.take (stream.length - later.incoming.length))

variable {host : Host} {packet : List UInt8} {info : FileMeta} {byteOff byteLen : UInt32}

theorem Host.Supplies.delivered {good : List UInt8 → Prop} (supplies : host.Supplies good)
    (later : Host) (isPacket : packet ∈ host.delivered later) :
    ∃ datagram, good datagram ∧ packet = datagram.take (12 + chunkSize) := by
  obtain ⟨datagram, isDatagram, isCut⟩ := List.mem_map.mp isPacket
  refine ⟨datagram, ?_, isCut.symm⟩
  rw [List.reduceOption_mem_iff] at isDatagram
  rcases List.mem_append.mp (List.mem_of_mem_take isDatagram) with old | new
  · exact supplies.arrived datagram old
  · obtain ⟨request, -, answers⟩ := List.mem_flatMap.mp new
    exact supplies.answered request datagram answers

theorem cutPackets_append (results more : List (Option (List UInt8))) :
    cutPackets (results ++ more) = cutPackets results ++ cutPackets more := by
  rw [cutPackets, List.reduceOption_append, List.map_append]
  rfl

theorem length_of_mem_cutPackets {results : List (Option (List UInt8))}
    (isPacket : packet ∈ cutPackets results) :
    packet.length ≤ 12 + chunkSize := by
  obtain ⟨datagram, -, isCut⟩ := List.mem_map.mp isPacket
  rw [← isCut]
  exact List.length_take_le _ _

theorem processAll_append (ctx : TransferCtx) (packets more : List (List UInt8)) :
    processAll ctx (packets ++ more) = processAll (processAll ctx packets) more := List.foldl_append

theorem processAll_cons (ctx : TransferCtx) (packet : List UInt8) (rest : List (List UInt8)) :
    processAll ctx (packet :: rest) = processAll (processDataPacket ctx packet).2 rest := rfl

theorem processAll_sameWindow (ctx : TransferCtx) (packets : List (List UInt8)) :
    SameWindow ctx (processAll ctx packets) := by
  induction packets generalizing ctx with
  | nil => exact .refl ctx
  | cons packet rest ih => exact (processDataPacket_sameWindow ctx packet).trans (ih _)

theorem processAll_keeps {holds : TransferCtx → Prop} {results : List (Option (List UInt8))}
    (keeps : ∀ ctx datagram, some datagram ∈ results → holds ctx →
      holds (processDataPacket ctx (datagram.take (12 + chunkSize))).2)
    {ctx : TransferCtx} (initially : holds ctx) : holds (processAll ctx (cutPackets results)) := by
  induction results generalizing ctx with
  | nil => exact initially
  | cons result rest ih =>
    have keepsRest (ctx : TransferCtx) (datagram : List UInt8) (isIn : some datagram ∈ rest) :=
      keeps ctx datagram (List.mem_cons_of_mem _ isIn)
    cases result with
    | none => exact ih keepsRest initially
    | some datagram => exact ih keepsRest (keeps ctx datagram List.mem_cons_self initially)

/-- The later state and context come from the earlier ones by requests and
receives. -/
structure Traced (host : Host) (start : TransferCtx) (later : Host) (ctx : TransferCtx) : Prop where
  network : later.network = host.network
  taken :
    ∃ requests results,
      later.sent = host.sent ++ requests ∧
        host.incoming ++ requests.flatMap host.network = results ++ later.incoming ∧
        ctx = processAll start (cutPackets results)

namespace Traced

variable {host later next : Host} {start ctx : TransferCtx}

theorem refl (host : Host) (start : TransferCtx) : Traced host start host start :=
  ⟨rfl, [], [], (List.append_nil _).symm, List.append_nil _, rfl⟩

theorem same (traced : Traced host start later ctx) (sameNetwork : next.network = later.network)
    (sameSent : next.sent = later.sent) (sameIncoming : next.incoming = later.incoming) :
    Traced host start next ctx := by
  obtain ⟨network, taken⟩ := traced
  refine ⟨sameNetwork.trans network, ?_⟩
  rw [sameSent, sameIncoming]
  exact taken

theorem attempt (traced : Traced host start later ctx) : Traced host start later.attempt.2 ctx := by
  obtain ⟨sameIncoming, sameNetwork⟩ := later.attempt_incoming
  exact traced.same sameNetwork later.attempt_sent sameIncoming

theorem request (traced : Traced host start later ctx) (datagram : List UInt8)
    (sameNetwork : next.network = later.network) (isSent : next.sent = later.sent ++ [datagram])
    (isIncoming : next.incoming = later.incoming ++ later.network datagram) :
    Traced host start next ctx := by
  obtain ⟨network, requests, results, wasSent, stream, isCtx⟩ := traced
  refine ⟨sameNetwork.trans network, requests ++ [datagram], results, ?_, ?_, isCtx⟩
  · rw [isSent, wasSent, List.append_assoc]
  · rw [isIncoming, network, List.flatMap_append, List.flatMap_singleton,
      ← List.append_assoc, stream, List.append_assoc]

theorem send (traced : Traced host start later ctx) (datagram : List UInt8) :
    Traced host start (later.send datagram).2 ctx := by
  have kept := traced.attempt
  rw [Host.send]
  rcases outcome : later.attempt with ⟨done, next⟩
  rw [outcome] at kept
  cases done with
  | false => exact kept
  | true => exact kept.request datagram rfl rfl rfl

theorem receive (traced : Traced host start later ctx) {results rest : List (Option (List UInt8))}
    (isIncoming : later.incoming = results ++ rest) (sameNetwork : next.network = later.network)
    (sameSent : next.sent = later.sent) (isRest : next.incoming = rest) :
    Traced host start next (processAll ctx (cutPackets results)) := by
  obtain ⟨network, requests, earlier, wasSent, stream, isCtx⟩ := traced
  refine ⟨sameNetwork.trans network, requests, earlier ++ results, sameSent.trans wasSent, ?_, ?_⟩
  · rw [stream, isIncoming, isRest, List.append_assoc]
  · rw [cutPackets_append, processAll_append, ← isCtx]

theorem eq_processAll (traced : Traced host start later ctx) :
    ctx = processAll start (host.delivered later) := by
  obtain ⟨-, requests, results, wasSent, stream, isCtx⟩ := traced
  rw [isCtx, Host.delivered, wasSent, List.drop_left, stream,
    List.length_append, Nat.add_sub_cancel, List.take_left]

end Traced

theorem processDataPacket_nil (ctx : TransferCtx) : (processDataPacket ctx []).2 = ctx := rfl

theorem stable_traced (host : Host) (start : TransferCtx) : Stable (Traced host start) where
  attempts := fun _ _ traced => traced.attempt
  sends := fun _ _ datagram traced => traced.send datagram
  takes := by
    intro later ctx packet next traced received
    obtain ⟨datagram, rest, isIncoming, -, isPacket, isNext⟩ := Host.recvTimed_some received
    rw [isNext, isPacket]
    have front : later.incoming = [some datagram] ++ rest := isIncoming
    exact traced.receive front rfl rfl rfl
  idles := by
    intro later ctx next traced received
    rcases Host.recvTimed_none received with
      ⟨-, isNext⟩ | ⟨result, rest, isIncoming, isIdle, isNext⟩
    · rw [isNext]
      exact traced
    · have front : later.incoming = [result] ++ rest := isIncoming
      have taken :
          Traced host start { later with incoming := rest }
            (processAll ctx (cutPackets [result])) :=
        traced.receive front rfl rfl rfl
      have unchanged : processAll ctx (cutPackets [result]) = ctx := by
        rcases isIdle with isNone | isEmpty
        · rw [isNone]
          rfl
        · rw [isEmpty]
          exact processDataPacket_nil ctx
      rw [unchanged] at taken
      rw [isNext]
      exact taken
  spends := fun _ _ traced => traced.same rfl rfl rfl

theorem Traced.metadata {fileId : UInt8} {later : Host}
    (learned : llmMetaRequest fileId host = .returned (some info) later)
    (start : TransferCtx) : Traced host start later start := by
  obtain ⟨datagram, rest, received, -, isMeta, -, isIncoming, isNetwork,
    isSent⟩ := llmMetaRequest_some learned
  obtain ⟨skipped, isResults, idle⟩ := recvFrom_some received
  refine ⟨isNetwork, [metaRequest fileId], skipped ++ [some datagram], isSent, ?_, ?_⟩
  · rw [List.flatMap_singleton, isResults, isIncoming, List.append_assoc]
    rfl
  · have nothing : skipped.reduceOption = [] := by
      rw [List.reduceOption, List.filterMap_eq_nil_iff]
      intro result isSkipped
      exact idle result isSkipped
    have unlike : datagram.getD 0 0 ≠ msgDataPacket := by
      intro isData
      cases datagram with
      | nil => cases isMeta
      | cons first others =>
        have both : msgMetaResp = msgDataPacket := isMeta.symm.trans isData
        exact absurd both (by decide)
    rw [cutPackets_append, cutPackets, nothing]
    exact (processDataPacket_other start chunkSize (.inr unlike)).symm

theorem llmFetchWindow_delivered {fileId : UInt8} {dst : Nat → UInt8} {middle later : Host}
    {fetched : Fetched} (learned : llmMetaRequest fileId host = .returned (some info) middle)
    (returned : llmFetchWindow fileId dst byteOff byteLen host = .returned fetched later)
    (success : fetched.result = 0) :
    ¬ (info.fileSize ≤ byteOff ∨
        byteOff + windowLength info byteOff byteLen > info.fileSize) ∧
      let ended :=
        processAll (start info dst byteOff (windowLength info byteOff byteLen))
          (host.delivered later)
      ended.allChunksReceived = true ∧ fetched.dst = ended.fileBuf := by
  obtain ⟨infoAgain, middleAgain, learnedAgain, isInside, finished, isDst,
    isLater⟩ := llmFetchWindow_zero returned success
  rw [learned] at learnedAgain
  cases learnedAgain
  refine ⟨isInside, ?_⟩
  have traced :=
    (stable_traced host _).transferWindow fileId
      (Traced.metadata learned (start info dst byteOff
          (windowLength info byteOff byteLen))).attempt.attempt
  have isEnded := traced.eq_processAll
  rw [← isLater] at isEnded
  rw [finishWindow_eq_zero] at finished
  rw [isEnded] at finished isDst
  exact ⟨finished.1, isDst⟩

/-- The parts of a context whose arithmetic does not wrap. -/
structure PlainWindow (ctx : TransferCtx) : Prop where
  noWrap : ctx.winOff.toNat + ctx.winLen.toNat + 512 ≤ 2 ^ 32
  first : ctx.firstChunk.toNat = ctx.winOff.toNat / chunkSize
  last :
    ctx.firstChunk.toNat + ctx.nChunks.toNat =
      (ctx.winOff.toNat + ctx.winLen.toNat + chunkSize - 1) / chunkSize

/-- The window wants a byte of chunk `k`. -/
def Wants (ctx : TransferCtx) (k : Nat) : Prop :=
  Overlaps ctx.winOff.toNat (ctx.winOff.toNat + ctx.winLen.toNat) k

/-- A packet of chunk `k` that is as long as it declares and does not run past
the end of the file. -/
def Storable (size k : Nat) (packet : List UInt8) : Prop :=
  packet.getD 0 0 = msgDataPacket ∧ (packetIndex packet).toNat = k ∧
    12 + (packetLength packet).toNat ≤ packet.length ∧
    k * chunkSize + (packetLength packet).toNat ≤ size

instance (size k : Nat) (packet : List UInt8) : Decidable (Storable size k packet) :=
  inferInstanceAs (Decidable (_ ∧ _ ∧ _ ∧ _))

/-- What `process_data_packet` asks of a packet, apart from duplicates. -/
def Accepts (ctx : TransferCtx) (packet : List UInt8) : Prop :=
  packetIndex packet < ctx.totalChunks ∧
    Wants ctx (packetIndex packet).toNat ∧
    Storable ctx.fileSize.toNat (packetIndex packet).toNat packet

/-- A packet is refused, a duplicate, or stored. -/
inductive Handling (ctx : TransferCtx) (packet : List UInt8) : Int × TransferCtx → Prop where
  | refused (reason : ¬ Accepts ctx packet) : Handling ctx packet (-1, ctx)
  | duplicate (accepted : Accepts ctx packet)
      (isThere : ctx.hasChunk (packetIndex packet) = true) :
      Handling ctx packet (0, ctx)
  | stored (accepted : Accepts ctx packet)
      (isNew : ctx.hasChunk (packetIndex packet) = false) :
      Handling ctx packet (1, storeChunk ctx packet (packetIndex packet) (packetLength packet))

theorem processDataPacket_one {ctx : TransferCtx} (isNew : (processDataPacket ctx packet).1 = 1) :
    ctx.chunkInWindow (packetIndex packet) = true := by
  rw [processDataPacket] at isNew
  dsimp only at isNew
  by_contra outside
  rw [if_pos outside] at isNew
  split_ifs at isNew <;> cases isNew

namespace PlainWindow

variable {ctx : TransferCtx}

section Plain

variable (window : PlainWindow ctx)

include window

theorem sameWindow {later : TransferCtx} (same : SameWindow ctx later) : PlainWindow later := by
  obtain ⟨noWrap, first, last⟩ := window
  refine ⟨?_, ?_, ?_⟩
  · rw [same.winOff, same.winLen]
    exact noWrap
  · rw [same.firstChunk, same.winOff]
    exact first
  · rw [same.firstChunk, same.nChunks, same.winOff, same.winLen]
    exact last

theorem chunks_lt : ctx.firstChunk.toNat + ctx.nChunks.toNat < 2 ^ 32 := by
  have noWrap := window.noWrap
  have last := window.last
  rw [chunkSize] at last
  omega

theorem chunkInWindow_iff (chunkIdx : UInt32) :
    ctx.chunkInWindow chunkIdx = true ↔ Wants ctx chunkIdx.toNat := by
  have first := window.first
  have last := window.last
  rw [TransferCtx.chunkInWindow_iff window.chunks_lt, Wants, Overlaps]
  rw [chunkSize] at first last ⊢
  omega

theorem windowEnd : (ctx.winOff + ctx.winLen).toNat = ctx.winOff.toNat + ctx.winLen.toNat := by
  have noWrap := window.noWrap
  rw [UInt32.toNat_add]
  omega

variable {chunkIdx : UInt32} {packet : List UInt8}

theorem chunkEnd {length : UInt32}
    (wanted : Wants ctx chunkIdx.toNat) (short : length.toNat ≤ chunkSize) :
    (chunkIdx * chunkBytes).toNat = chunkIdx.toNat * chunkSize ∧
      (chunkIdx * chunkBytes + length).toNat = chunkIdx.toNat * chunkSize + length.toNat := by
  have noWrap := window.noWrap
  have before := wanted.2
  have bytes : chunkBytes.toNat = 512 := rfl
  rw [chunkSize] at before short ⊢
  have chunkStart : (chunkIdx * chunkBytes).toNat = chunkIdx.toNat * 512 := by
    rw [UInt32.toNat_mul, bytes]
    omega
  refine ⟨chunkStart, ?_⟩
  rw [UInt32.toNat_add, chunkStart]
  omega

theorem handling (cut : packet.length ≤ 12 + chunkSize) :
    Handling ctx packet (processDataPacket ctx packet) := by
  have inWindow := window.chunkInWindow_iff (packetIndex packet)
  have accept
      (long : ¬ packet.length < 12)
      (isData : ¬ packet.getD 0 0 ≠ msgDataPacket)
      (known : ¬ ctx.totalChunks ≤ packetIndex packet)
      (isInside : ctx.chunkInWindow (packetIndex packet) = true)
      (whole : ¬ packet.length < 12 + (packetLength packet).toNat)
      (inFile : ¬ packetIndex packet * chunkBytes + packetLength packet > ctx.fileSize) :
      Accepts ctx packet := by
    have wanted := inWindow.mp isInside
    have declared : (packetLength packet).toNat ≤ chunkSize := by omega
    rw [gt_iff_lt, UInt32.lt_iff_toNat_lt, (window.chunkEnd wanted declared).2] at inFile
    exact ⟨UInt32.not_le.mp known, wanted, not_not.mp isData, rfl,
      not_lt.mp whole, not_lt.mp inFile⟩
  rw [processDataPacket]
  dsimp only
  split_ifs with short isData unknown isInside tooShort past isThere
  · refine .refused ?_
    rintro ⟨-, -, -, -, whole, -⟩
    omega
  · refine .refused ?_
    rintro ⟨-, -, isDataPacket, -⟩
    exact isData isDataPacket
  · refine .refused ?_
    rintro ⟨known, -⟩
    exact absurd known (UInt32.not_lt.mpr unknown)
  · refine .refused ?_
    rintro ⟨-, -, -, -, whole, -⟩
    omega
  · refine .refused ?_
    rintro ⟨-, wanted, -, -, -, inFile⟩
    have declared : (packetLength packet).toNat ≤ chunkSize := by omega
    rw [gt_iff_lt, UInt32.lt_iff_toNat_lt, (window.chunkEnd wanted declared).2] at past
    omega
  · exact .duplicate (accept short isData unknown isInside tooShort past) isThere
  · exact .stored (accept short isData unknown isInside tooShort past)
      (Bool.eq_false_iff.mpr isThere)
  · refine .refused ?_
    rintro ⟨-, wanted, -⟩
    exact isInside (inWindow.mpr wanted)

theorem hasChunk_step (cut : packet.length ≤ 12 + chunkSize) (wanted : Wants ctx chunkIdx.toNat) :
    (processDataPacket ctx packet).2.hasChunk chunkIdx = true ↔
      ctx.hasChunk chunkIdx = true ∨
        chunkIdx < ctx.totalChunks ∧ Storable ctx.fileSize.toNat chunkIdx.toNat packet := by
  have isHandled := window.handling cut
  generalize processDataPacket ctx packet = outcome at isHandled ⊢
  have accepts
      (known : chunkIdx < ctx.totalChunks)
      (storable : Storable ctx.fileSize.toNat chunkIdx.toNat packet) :
      packetIndex packet = chunkIdx ∧ Accepts ctx packet := by
    have isIndex : packetIndex packet = chunkIdx := UInt32.toNat_inj.mp storable.2.1
    rw [Accepts, isIndex]
    exact ⟨rfl, known, wanted, storable⟩
  cases isHandled with
  | refused reason =>
    constructor
    · exact .inl
    · rintro (isThere | ⟨known, storable⟩)
      · exact isThere
      · exact absurd (accepts known storable).2 reason
  | duplicate accepted isThere =>
    constructor
    · exact .inl
    · rintro (isThere | ⟨known, storable⟩)
      · exact isThere
      · rw [← (accepts known storable).1]
        exact isThere
  | stored accepted isNew =>
    rw [hasChunk_storeChunk, Bool.or_eq_true, decide_eq_true_iff]
    constructor
    · rintro (isIndex | isThere)
      · rw [isIndex]
        exact .inr ⟨accepted.1, accepted.2.2⟩
      · exact .inl isThere
    · rintro (isThere | ⟨known, storable⟩)
      · exact .inr isThere
      · exact .inl (accepts known storable).1.symm

/-- A chunk is received when a storable packet of it was among the packets. -/
theorem hasChunk_processAll {packets : List (List UInt8)}
    (cut : ∀ packet ∈ packets, packet.length ≤ 12 + chunkSize) (wanted : Wants ctx chunkIdx.toNat) :
    (processAll ctx packets).hasChunk chunkIdx = true ↔
      ctx.hasChunk chunkIdx = true ∨
        chunkIdx < ctx.totalChunks ∧
          ∃ packet ∈ packets, Storable ctx.fileSize.toNat chunkIdx.toNat packet := by
  induction packets generalizing ctx with
  | nil => simp [processAll]
  | cons packet rest ih =>
    have same := processDataPacket_sameWindow ctx packet
    have step := window.hasChunk_step (cut packet List.mem_cons_self) wanted
    have stillWanted : Wants (processDataPacket ctx packet).2 chunkIdx.toNat := by
      rw [Wants, same.winOff, same.winLen]
      exact wanted
    rw [processAll_cons, ih (window.sameWindow same)
        (fun later isLater => cut later (List.mem_cons_of_mem _ isLater))
        stillWanted,
      same.totalChunks, same.fileSize, step, or_assoc, ← and_or_left]
    simp only [List.mem_cons, exists_eq_or_imp]

theorem fileBuf_step (cut : packet.length ≤ 12 + chunkSize) {i : Nat}
    (fromStart : chunkIdx.toNat * chunkSize ≤ ctx.winOff.toNat + i)
    (toEnd : ctx.winOff.toNat + i < (chunkIdx.toNat + 1) * chunkSize)
    (isThere : ctx.hasChunk chunkIdx = true) :
    (processDataPacket ctx packet).2.fileBuf i = ctx.fileBuf i := by
  have isHandled := window.handling cut
  generalize processDataPacket ctx packet = outcome at isHandled ⊢
  cases isHandled with
  | refused | duplicate => rfl
  | stored accepted isNew =>
    apply storeChunk_fileBuf_kept
    intro copied
    obtain ⟨-, wanted, -, -, whole, -⟩ := accepted
    have declared : (packetLength packet).toNat ≤ chunkSize := by omega
    obtain ⟨chunkStart, chunkEnd⟩ := window.chunkEnd wanted declared
    rw [copiesTo_iff ctx chunkStart chunkEnd] at copied
    -- the bytes of other chunks are elsewhere
    have isIndex : packetIndex packet = chunkIdx := by
      apply UInt32.toNat_inj.mp
      rw [chunkSize] at *
      omega
    rw [isIndex, isThere] at isNew
    cases isNew

theorem fileBuf_processAll {packets : List (List UInt8)}
    (cut : ∀ packet ∈ packets, packet.length ≤ 12 + chunkSize) {i : Nat}
    (fromStart : chunkIdx.toNat * chunkSize ≤ ctx.winOff.toNat + i)
    (toEnd : ctx.winOff.toNat + i < (chunkIdx.toNat + 1) * chunkSize)
    (isThere : ctx.hasChunk chunkIdx = true) :
    (processAll ctx packets).fileBuf i = ctx.fileBuf i := by
  induction packets generalizing ctx with
  | nil => rfl
  | cons packet rest ih =>
    have same := processDataPacket_sameWindow ctx packet
    rw [processAll_cons, ih (window.sameWindow same)
        (fun later isLater => cut later (List.mem_cons_of_mem _ isLater))
        (by rw [same.winOff]; exact fromStart)
        (by rw [same.winOff]; exact toEnd)
        (hasChunk_processDataPacket packet isThere)]
    exact window.fileBuf_step (cut packet List.mem_cons_self) fromStart toEnd isThere

end Plain

end PlainWindow

theorem start_plainWindow (info : FileMeta) (dst : Nat → UInt8)
    (noWrap : byteOff.toNat + byteLen.toNat + 512 ≤ 2 ^ 32) :
    PlainWindow (start info dst byteOff byteLen) := by
  obtain ⟨isFirst, isLast⟩ := start_chunks info dst noWrap
  exact ⟨noWrap, isFirst, isLast⟩

/-! ## Filled windows -/

/-- The packet carries the byte at a position of the file. -/
structure Carries (packet : List UInt8) (position : Nat) (byte : UInt8) : Prop where
  isData : packet.getD 0 0 = msgDataPacket
  whole : 12 + (packetLength packet).toNat ≤ packet.length
  fromStart : (packetIndex packet).toNat * chunkSize ≤ position
  toEnd : position < (packetIndex packet).toNat * chunkSize + (packetLength packet).toNat
  isByte : packet.getD (12 + (position - (packetIndex packet).toNat * chunkSize)) 0 = byte

/-- Offset `i` of the buffer was written by one of the packets, which carries
the byte for the position. -/
def WrittenFrom (start : TransferCtx) (packets : List (List UInt8)) (i position : Nat)
    (byte : UInt8) : Prop :=
  ∃ before packet after,
    packets = before ++ packet :: after ∧
      (processDataPacket (processAll start before) packet).1 = 1 ∧
      CopiesTo (processAll start before) (packetIndex packet) (packetLength packet) i ∧
      Carries packet position byte

/-- The window lies in the file, and each of its bytes was written from a
packet that carries the byte of the file position. -/
structure FilledBuffer (info : FileMeta) (dst : Nat → UInt8) (byteOff byteLen : UInt32)
    (packets : List (List UInt8)) (result : Nat → UInt8) : Prop where
  inFile : byteOff.toNat + askedLength info.fileSize.toNat byteOff byteLen ≤ info.fileSize.toNat
  written :
    ∀ i, i < askedLength info.fileSize.toNat byteOff byteLen →
      WrittenFrom (start info dst byteOff (windowLength info byteOff byteLen))
        packets i (byteOff.toNat + i) (result i)

/-- The first storable packet of each chunk of `[start, stop)` carries all the
bytes of the chunk that lie in there. -/
def FirstPacketsFull (size start stop : Nat) (packets : List (List UInt8)) : Prop :=
  ∀ k packet,
    Overlaps start stop k →
    (packets.find? fun packet => decide (Storable size k packet)) = some packet →
    min ((k + 1) * chunkSize) stop ≤ k * chunkSize + (packetLength packet).toNat

section Window

variable {ctx : TransferCtx} {packets : List (List UInt8)}

variable {i : Nat}

/-- A packet of a wanted chunk is stored if the chunk is not there, and a byte
that it carries stays what it is from then on. -/
theorem PlainWindow.stored_stays (window : PlainWindow ctx) {packet : List UInt8}
    {after : List (List UInt8)} (cut : ∀ later ∈ packet :: after, later.length ≤ 12 + chunkSize)
    (accepted : Accepts ctx packet) (isNew : ctx.hasChunk (packetIndex packet) = false)
    (inside : i < ctx.winLen.toNat)
    (fromStart : (packetIndex packet).toNat * chunkSize ≤ ctx.winOff.toNat + i)
    (toEnd : ctx.winOff.toNat + i < (packetIndex packet).toNat * chunkSize +
          (packetLength packet).toNat) :
    (processDataPacket ctx packet).1 = 1 ∧
      CopiesTo ctx (packetIndex packet) (packetLength packet) i ∧
      Carries packet (ctx.winOff.toNat + i) ((processAll ctx (packet :: after)).fileBuf i) := by
  have short := cut packet List.mem_cons_self
  obtain ⟨-, wanted, isData, -, whole, -⟩ := id accepted
  have declared : (packetLength packet).toNat ≤ chunkSize := by omega
  obtain ⟨chunkStart, chunkEnd⟩ := window.chunkEnd wanted declared
  have copied : CopiesTo ctx (packetIndex packet) (packetLength packet) i := by
    rw [copiesTo_iff ctx chunkStart chunkEnd, window.windowEnd]
    omega
  have isStored :
      processDataPacket ctx packet =
        (1, storeChunk ctx packet (packetIndex packet) (packetLength packet)) := by
    have isHandled := window.handling short
    generalize processDataPacket ctx packet = outcome at isHandled ⊢
    cases isHandled with
    | refused reason => exact absurd accepted reason
    | duplicate _ isThere =>
      rw [isNew] at isThere
      cases isThere
    | stored _ _ => rfl
  have same := processDataPacket_sameWindow ctx packet
  have isThere : (processDataPacket ctx packet).2.hasChunk (packetIndex packet) = true := by
    rw [isStored, hasChunk_storeChunk, decide_eq_true rfl, Bool.true_or]
  have stays :=
    (window.sameWindow same).fileBuf_processAll
      (fun later isLater => cut later (List.mem_cons_of_mem _ isLater))
      (by rw [same.winOff]; exact fromStart)
      (by rw [same.winOff, Nat.succ_mul]; omega) isThere
  rw [← processAll_cons] at stays
  refine ⟨by rw [isStored], copied, isData, whole, fromStart, toEnd, ?_⟩
  rw [stays, isStored, storeChunk_fileBuf_copied packet chunkStart chunkEnd copied]

theorem PlainWindow.hasChunk_eq_false_iff (window : PlainWindow ctx)
    (cut : ∀ packet ∈ packets, packet.length ≤ 12 + chunkSize)
    (fresh : ∀ chunkIdx, ctx.hasChunk chunkIdx = false) {chunkIdx : UInt32}
    (wanted : Wants ctx chunkIdx.toNat) (known : chunkIdx < ctx.totalChunks) :
    (processAll ctx packets).hasChunk chunkIdx = false ↔
      ∀ packet ∈ packets, ¬ Storable ctx.fileSize.toNat chunkIdx.toNat packet := by
  rw [← Bool.not_eq_true, window.hasChunk_processAll cut wanted, fresh chunkIdx]
  simp [known]

theorem PlainWindow.written_of_full (window : PlainWindow ctx)
    (cut : ∀ packet ∈ packets, packet.length ≤ 12 + chunkSize)
    (fresh : ∀ chunkIdx, ctx.hasChunk chunkIdx = false)
    (received : (processAll ctx packets).allChunksReceived = true)
    (full : FirstPacketsFull ctx.fileSize.toNat ctx.winOff.toNat
        (ctx.winOff.toNat + ctx.winLen.toNat) packets)
    (inside : i < ctx.winLen.toNat) :
    WrittenFrom ctx packets i (ctx.winOff.toNat + i) ((processAll ctx packets).fileBuf i) := by
  obtain ⟨chunkIdx, fromStart, toEnd⟩ :
      ∃ chunkIdx : UInt32,
        chunkIdx.toNat * chunkSize ≤ ctx.winOff.toNat + i ∧
          ctx.winOff.toNat + i < (chunkIdx.toNat + 1) * chunkSize := by
    have noWrap := window.noWrap
    refine ⟨UInt32.ofNat ((ctx.winOff.toNat + i) / 512), ?_⟩
    rw [UInt32.toNat_ofNat', chunkSize]
    omega
  have wanted : Wants ctx chunkIdx.toNat := by
    rw [Wants, Overlaps]
    omega
  have same := processAll_sameWindow ctx packets
  have isThere : (processAll ctx packets).hasChunk chunkIdx = true := by
    rw [allChunksReceived_iff (window.sameWindow same).chunks_lt] at received
    apply (isMissing_eq_false _).1 (received chunkIdx)
    rw [same.chunkInWindow, window.chunkInWindow_iff]
    exact wanted
  rw [window.hasChunk_processAll cut wanted, fresh chunkIdx] at isThere
  rcases isThere with isOld | ⟨known, someStorable⟩
  · cases isOld
  obtain ⟨packet, isFirst⟩ :
      ∃ packet,
        (packets.find? fun packet =>
          decide (Storable ctx.fileSize.toNat chunkIdx.toNat packet)) = some packet := by
    rw [← Option.isSome_iff_exists, List.find?_isSome]
    simpa using someStorable
  have reaches := full chunkIdx.toNat packet wanted isFirst
  obtain ⟨storable, before, after, isSplit, noneBefore⟩ := List.find?_eq_some_iff_append.mp isFirst
  rw [decide_eq_true_iff] at storable
  have isIndex : packetIndex packet = chunkIdx := UInt32.toNat_inj.mp storable.2.1
  have sameBefore := processAll_sameWindow ctx before
  have cutBefore : ∀ earlier ∈ before, earlier.length ≤ 12 + chunkSize := by
    intro earlier isEarlier
    apply cut
    rw [isSplit]
    exact List.mem_append_left _ isEarlier
  have isNew : (processAll ctx before).hasChunk (packetIndex packet) = false := by
    rw [isIndex, window.hasChunk_eq_false_iff cutBefore fresh wanted known]
    intro earlier isEarlier
    have notStorable := noneBefore earlier isEarlier
    simpa using notStorable
  have accepted : Accepts (processAll ctx before) packet := by
    rw [Accepts, Wants, sameBefore.totalChunks, sameBefore.winOff,
      sameBefore.winLen, sameBefore.fileSize, isIndex]
    exact ⟨known, wanted, storable⟩
  have stored :=
    (window.sameWindow sameBefore).stored_stays
      (fun later isLater => cut later (by
        rw [isSplit]
        exact List.mem_append_right _ isLater))
      accepted isNew (i := i)
      (by rw [sameBefore.winLen]; exact inside)
      (by rw [isIndex, sameBefore.winOff]; exact fromStart)
      (by rw [isIndex, sameBefore.winOff]; omega)
  rw [sameBefore.winOff, ← processAll_append, ← isSplit] at stored
  exact ⟨before, packet, after, isSplit, stored⟩

theorem PlainWindow.full_of_written (window : PlainWindow ctx)
    (cut : ∀ packet ∈ packets, packet.length ≤ 12 + chunkSize)
    (fresh : ∀ chunkIdx, ctx.hasChunk chunkIdx = false) {k : Nat}
    {packet : List UInt8} {byte : UInt8} (isFirst : (packets.find? fun packet =>
        decide (Storable ctx.fileSize.toNat k packet)) = some packet)
    (fromStart : k * chunkSize ≤ ctx.winOff.toNat + i)
    (toEnd : ctx.winOff.toNat + i < (k + 1) * chunkSize)
    (written : WrittenFrom ctx packets i (ctx.winOff.toNat + i) byte) :
    ctx.winOff.toNat + i < k * chunkSize + (packetLength packet).toNat := by
  obtain ⟨before, stored, after, isSplit, isNew, -, carries⟩ := written
  have sameBefore := processAll_sameWindow ctx before
  have cutStored : stored.length ≤ 12 + chunkSize := by
    apply cut
    rw [isSplit]
    exact List.mem_append_right _ List.mem_cons_self
  have cutBefore : ∀ earlier ∈ before, earlier.length ≤ 12 + chunkSize := by
    intro earlier isEarlier
    apply cut
    rw [isSplit]
    exact List.mem_append_left _ isEarlier
  have isHandled := (window.sameWindow sameBefore).handling cutStored
  generalize processDataPacket (processAll ctx before) stored = outcome at isHandled isNew
  cases isHandled with
  | refused | duplicate => cases isNew
  | stored accepted notThere =>
    rw [Accepts, Wants, sameBefore.totalChunks, sameBefore.winOff,
      sameBefore.winLen, sameBefore.fileSize] at accepted
    obtain ⟨known, wanted, storable⟩ := accepted
    have isIndex : (packetIndex stored).toNat = k := by
      have whole := storable.2.2.1
      have carriesFrom := carries.fromStart
      have carriesTo := carries.toEnd
      rw [chunkSize] at *
      omega
    rw [window.hasChunk_eq_false_iff cutBefore fresh wanted known, isIndex] at notThere
    have isFound :
        (packets.find? fun packet =>
          decide (Storable ctx.fileSize.toNat k packet)) = some stored := by
      rw [List.find?_eq_some_iff_append]
      refine ⟨?_, before, after, isSplit, ?_⟩
      · rw [isIndex] at storable
        exact decide_eq_true storable
      · intro earlier isEarlier
        simpa using notThere earlier isEarlier
    rw [isFirst, Option.some.injEq] at isFound
    have carriesTo := carries.toEnd
    rw [isIndex] at carriesTo
    rw [isFound]
    exact carriesTo

theorem PlainWindow.firstPacketsFull (window : PlainWindow ctx)
    (cut : ∀ packet ∈ packets, packet.length ≤ 12 + chunkSize)
    (fresh : ∀ chunkIdx, ctx.hasChunk chunkIdx = false)
    (nonempty : 0 < ctx.winLen.toNat) {result : Nat → UInt8} (written : ∀ i, i < ctx.winLen.toNat →
        WrittenFrom ctx packets i (ctx.winOff.toNat + i) (result i)) :
    FirstPacketsFull ctx.fileSize.toNat ctx.winOff.toNat
      (ctx.winOff.toNat + ctx.winLen.toNat) packets := by
  intro k packet overlaps isFirst
  -- the last byte of the chunk that the window wants
  obtain ⟨i, isLast⟩ :
      ∃ i,
        ctx.winOff.toNat + i + 1 =
          min ((k + 1) * chunkSize) (ctx.winOff.toNat + ctx.winLen.toNat) := by
    rw [Overlaps] at overlaps
    refine ⟨min ((k + 1) * chunkSize)
      (ctx.winOff.toNat + ctx.winLen.toNat) - 1 - ctx.winOff.toNat, ?_⟩
    omega
  have positive : 0 < chunkSize := by decide
  have fromStart : k * chunkSize ≤ ctx.winOff.toNat + i := by
    have before := overlaps.2
    rw [Nat.succ_mul] at isLast
    omega
  have reaches :=
    window.full_of_written cut fresh isFirst fromStart (by omega) (written i (by omega))
  omega

end Window

/-- Nothing is written when the chunk count of the window wraps. -/
theorem noWrap_of_written {dst : Nat → UInt8} {packets : List (List UInt8)} {i position : Nat}
    {byte : UInt8} (noOverflow : byteOff.toNat + byteLen.toNat < 2 ^ 32)
    (written : WrittenFrom (start info dst byteOff byteLen) packets i position byte) :
    byteOff.toNat + byteLen.toNat + 512 ≤ 2 ^ 32 := by
  obtain ⟨before, packet, after, -, isNew, -, -⟩ := written
  have inWindow := processDataPacket_one isNew
  have isLast := start_lastChunk info dst byteOff byteLen
  dsimp only at isLast
  rw [(processAll_sameWindow _ before).chunkInWindow, chunkInWindow, Bool.and_eq_true,
    decide_eq_true_iff, decide_eq_true_iff, UInt32.lt_iff_toNat_lt, isLast] at inWindow
  omega

/-- A fetch that returns 0 has filled its buffer if and only if the end of its
window does not wrap and the first packet of each chunk is full. -/
theorem fetched_buffer_filled_iff {fileId : UInt8} {dst : Nat → UInt8} {byteOff byteLen : UInt32}
    {host middle later : Host} {info : FileMeta} {fetched : Fetched}
    (learned : llmMetaRequest fileId host = .returned (some info) middle)
    (returned : llmFetchWindow fileId dst byteOff byteLen host = .returned fetched later)
    (success : fetched.result = 0) :
    FilledBuffer info dst byteOff byteLen (host.delivered later)
        fetched.dst ↔
      byteOff.toNat + askedLength info.fileSize.toNat byteOff byteLen + 512 ≤ 2 ^ 32 ∧
        FirstPacketsFull info.fileSize.toNat byteOff.toNat
          (byteOff.toNat + askedLength info.fileSize.toNat byteOff byteLen)
          (host.delivered later) := by
  obtain ⟨isInside, received, isDst⟩ := llmFetchWindow_delivered learned returned success
  rw [not_or, UInt32.not_le, gt_iff_lt, UInt32.not_lt] at isInside
  have before := UInt32.lt_iff_toNat_lt.mp isInside.1
  have positive : 0 < askedLength info.fileSize.toNat byteOff byteLen := by
    rw [askedLength]
    split_ifs with toRest
    · omega
    · exact Nat.pos_of_ne_zero fun isZero =>
        toRest (UInt32.toNat_inj.mp isZero)
  have isLength := windowLength_eq_askedLength before byteLen
  have cut : ∀ packet ∈ host.delivered later, packet.length ≤ 12 + chunkSize :=
    fun packet isPacket => length_of_mem_cutPackets isPacket
  have fresh (chunkIdx : UInt32) :
      (start info dst byteOff (windowLength info byteOff byteLen)).hasChunk chunkIdx = false :=
    rfl
  constructor
  · rintro ⟨inFile, written⟩
    have sizeBound : info.fileSize.toNat < 2 ^ 32 := info.fileSize.toNat_lt
    rw [← isLength] at inFile positive written ⊢
    have noWrap := noWrap_of_written (by omega) (written 0 positive)
    exact ⟨noWrap, (start_plainWindow info dst noWrap).firstPacketsFull cut fresh positive written⟩
  · rintro ⟨noWrap, full⟩
    have atMost := UInt32.le_iff_toNat_le.mp isInside.2
    rw [UInt32.toNat_add] at atMost
    rw [← isLength] at noWrap full
    refine ⟨by omega, fun i inside => ?_⟩
    rw [← isLength] at inside
    rw [isDst]
    exact (start_plainWindow info dst noWrap).written_of_full cut fresh received full inside

/-- A packet of chunk 0 that declares no payload. -/
def shortPacket : List UInt8 := [msgDataPacket, 1, 0, 0, 0, 0, 0, 0, 0, 0, 0, 0]

theorem packetFetch_learned (packet : List UInt8) :
    llmMetaRequest 1 (packetFetch packet) =
      .returned (some (servedMeta twoFiles [10, 11]))
        ((packetFetch packet).afterMeta 1 [some packet]) := llmMetaRequest_answered rfl rfl

theorem fetched_buffer_filled_iff_ownPacket :
    ∃ fetched later,
      llmFetchWindow 1 (fun _ => 0) 0 1 (packetFetch (servedPacket 1 [10, 11] 0)) =
        .returned fetched later ∧
      fetched.result = 0 ∧
      FilledBuffer (servedMeta twoFiles [10, 11]) (fun _ => 0) 0 1
        ((packetFetch (servedPacket 1 [10, 11] 0)).delivered later)
        fetched.dst := by
  have returned := packetFetch_returned (servedPacket 1 [10, 11] 0)
  have learned := packetFetch_learned (servedPacket 1 [10, 11] 0)
  have isZero := packetFetch_zero (servedPacket 1 [10, 11] 0) (by decide +kernel)
  refine ⟨_, _, returned, isZero, ?_⟩
  refine (fetched_buffer_filled_iff learned returned isZero).2 ⟨by decide, ?_⟩
  intro k packet overlaps isFirst
  have firstChunk : k = 0 := by
    have before : k * 512 < 1 := overlaps.2
    omega
  have supplies :
      (packetFetch (servedPacket 1 [10, 11] 0)).Supplies fun datagram =>
        (datagram.take (12 + chunkSize)).getD 0 0 = msgDataPacket →
          packetLength (datagram.take (12 + chunkSize)) = 2 := by
    apply packetFetch_supplies
    · intro isData
      cases isData
    · intro _
      decide
  obtain ⟨datagram, declares, isPacket⟩ := supplies.delivered _ (List.mem_of_find?_eq_some isFirst)
  have storable := List.find?_some isFirst
  rw [decide_eq_true_iff] at storable
  rw [isPacket] at storable ⊢
  rw [declares storable.1, firstChunk]
  decide

/-- The short packet completes chunk 0, and nothing is written; nor is anything
for a window whose end wraps to a place inside the file. -/
theorem shortPacket_leaves_hole :
    (∃ fetched later,
      llmFetchWindow 1 (fun _ => 0) 0 1 (packetFetch shortPacket) = .returned fetched later ∧
        fetched.result = 0 ∧
        ¬ FilledBuffer (servedMeta twoFiles [10, 11]) (fun _ => 0) 0 1
          ((packetFetch shortPacket).delivered later) fetched.dst) ∧
      ∃ fetched later,
        llmFetchWindow 1 (fun _ => 0) 1 4294967295 (packetFetch shortPacket) =
          .returned fetched later ∧
        fetched.result = 0 ∧
        ¬ FilledBuffer (servedMeta twoFiles [10, 11]) (fun _ => 0) 1
          4294967295 ((packetFetch shortPacket).delivered later)
          fetched.dst := by
  constructor
  · refine ⟨_, _, packetFetch_returned shortPacket, ?_, fun filled => ?_⟩
    · exact packetFetch_zero shortPacket (by decide +kernel)
    obtain ⟨before, packet, after, isSplit, -, -, carries⟩ := filled.written 0 (by decide)
    have supplies :
        (packetFetch shortPacket).Supplies fun datagram =>
          ∀ byte, ¬ Carries (datagram.take (12 + chunkSize)) 0 byte := by
      apply packetFetch_supplies
      · intro byte carries
        cases carries.isData
      · intro byte carries
        exact absurd carries.toEnd (by decide)
    have delivered := List.mem_append_right before (List.mem_cons_self : packet ∈ packet :: after)
    rw [← isSplit] at delivered
    obtain ⟨datagram, carriesNothing, isPacket⟩ := supplies.delivered _ delivered
    rw [isPacket] at carries
    exact carriesNothing _ carries
  · have returned :=
      llmFetchWindow_afterMeta (packetFetch_learned shortPacket) rfl (fun _ => 0) 1 4294967295
    rw [if_neg (by decide)] at returned
    refine ⟨_, _, returned, ?_, fun filled => ?_⟩
    · rw [finishWindow_eq_zero]
      refine ⟨by decide +kernel, ?_⟩
      rintro ⟨fromStart, -⟩
      exact absurd fromStart (by decide +kernel)
    · exact absurd filled.inFile (by decide)

end LlmRuntime.Ftp
