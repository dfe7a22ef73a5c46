import LlmRuntime.Ftp.Packets

/-!
# The window of a transfer

The buffer is a function of the set of chunks that have arrived.
-/

namespace LlmRuntime.Ftp

open Bytes TransferCtx

/-- The parts of a context that no packet changes. -/
structure SameWindow (ctx later : TransferCtx) : Prop where
  fileSize : later.fileSize = ctx.fileSize
  totalChunks : later.totalChunks = ctx.totalChunks
  winOff : later.winOff = ctx.winOff
  winLen : later.winLen = ctx.winLen
  firstChunk : later.firstChunk = ctx.firstChunk
  nChunks : later.nChunks = ctx.nChunks

theorem SameWindow.refl (ctx : TransferCtx) : SameWindow ctx ctx :=
  ⟨rfl, rfl, rfl, rfl, rfl, rfl⟩

variable {ctx : TransferCtx} {file : List UInt8} {dst : Nat → UInt8}

theorem SameWindow.trans {middle later : TransferCtx} (first : SameWindow ctx middle)
    (second : SameWindow middle later) : SameWindow ctx later :=
  ⟨second.fileSize.trans first.fileSize,
    second.totalChunks.trans first.totalChunks,
    second.winOff.trans first.winOff, second.winLen.trans first.winLen,
    second.firstChunk.trans first.firstChunk,
    second.nChunks.trans first.nChunks⟩

theorem processDataPacket_cases (ctx : TransferCtx) (packet : List UInt8) :
    (processDataPacket ctx packet).2 = ctx ∨
      ((processDataPacket ctx packet).2 =
          storeChunk ctx packet (packetIndex packet) (packetLength packet) ∧
        packet.getD 0 0 = msgDataPacket ∧
        ctx.isMissing (packetIndex packet) = true) := by
  rw [processDataPacket]
  dsimp only
  split_ifs with short isData unknown inWindow cut past isThere
  · exact .inl rfl
  · exact .inl rfl
  · exact .inl rfl
  · exact .inl rfl
  · exact .inl rfl
  · exact .inl rfl
  · refine .inr ⟨rfl, not_not.mp isData, ?_⟩
    rw [isMissing, inWindow, Bool.true_and, Bool.not_eq_true']
    exact Bool.eq_false_iff.mpr isThere
  · exact .inl rfl

theorem processDataPacket_sameWindow (ctx : TransferCtx) (packet : List UInt8) :
    SameWindow ctx (processDataPacket ctx packet).2 := by
  rcases processDataPacket_cases ctx packet with same | ⟨stored, -, -⟩
  · rw [same]
    exact .refl ctx
  · rw [stored]
    exact ⟨rfl, rfl, rfl, rfl, rfl, rfl⟩

theorem processDataPacket_other {datagram : List UInt8} (ctx : TransferCtx) (size : Nat)
    (other : datagram.length < 12 ∨ datagram.getD 0 0 ≠ msgDataPacket) :
    (processDataPacket ctx (datagram.take (12 + size))).2 = ctx := by
  rw [processDataPacket]
  by_cases short : (datagram.take (12 + size)).length < 12
  · rw [if_pos short]
  · have sameHead :
        (datagram.take (12 + size)).getD 0 0 = datagram.getD 0 0 := by
      rw [List.getD_eq_getElem?_getD, List.getElem?_take,
        if_pos (by omega), List.getD_eq_getElem?_getD]
    rw [List.length_take] at short
    have different : datagram.getD 0 0 ≠ msgDataPacket := by
      rcases other with tooShort | different
      · omega
      · exact different
    rw [if_neg (by rw [List.length_take]; exact short), sameHead, if_pos different]

section Bitmap

variable {ctx : TransferCtx}

/-- Chunk `k` is in the window and has arrived. -/
def Got (ctx : TransferCtx) (k : Nat) : Prop :=
  ctx.chunkInWindow (UInt32.ofNat k) = true ∧ ctx.hasChunk (UInt32.ofNat k) = true

theorem hasChunk_storeChunk (ctx : TransferCtx) (packet : List UInt8)
    (chunkIdx length other : UInt32) :
    (storeChunk ctx packet chunkIdx length).hasChunk other =
      (decide (other = chunkIdx) || ctx.hasChunk other) := by
  simp only [hasChunk, storeChunk, Function.update_apply]
  by_cases same : other = chunkIdx
  · simp [same]
  · have different :
        ¬ (other - ctx.firstChunk).toNat = (chunkIdx - ctx.firstChunk).toNat := by
      intro equal
      apply same
      exact sub_left_inj.mp (UInt32.toNat_inj.mp equal)
    rw [if_neg different, decide_eq_false same, Bool.false_or]

theorem chunkInWindow_storeChunk (ctx : TransferCtx) (packet : List UInt8)
    (chunkIdx length other : UInt32) :
    (storeChunk ctx packet chunkIdx length).chunkInWindow other = ctx.chunkInWindow other := rfl

theorem hasChunk_processDataPacket {other : UInt32} (packet : List UInt8)
    (has : ctx.hasChunk other = true) :
    (processDataPacket ctx packet).2.hasChunk other = true := by
  rcases processDataPacket_cases ctx packet with same | ⟨stored, -, -⟩
  · rw [same]
    exact has
  · rw [stored, hasChunk_storeChunk, has, Bool.or_true]

theorem got_storeChunk {packet : List UInt8} {j k : Nat} {length : UInt32}
    (inWindow : ctx.chunkInWindow (UInt32.ofNat k) = true) (small : k < 2 ^ 32)
    (smallToo : j < 2 ^ 32) :
    Got (storeChunk ctx packet (UInt32.ofNat k) length) j ↔ j = k ∨ Got ctx j := by
  rw [Got, Got, chunkInWindow_storeChunk, hasChunk_storeChunk, Bool.or_eq_true, decide_eq_true_iff]
  have sameIndex : UInt32.ofNat j = UInt32.ofNat k ↔ j = k := by
    constructor
    · intro equal
      have numbers := congrArg UInt32.toNat equal
      rw [UInt32.toNat_ofNat', UInt32.toNat_ofNat'] at numbers
      omega
    · intro equal
      rw [equal]
  rw [sameIndex]
  constructor
  · rintro ⟨inside, isNew | isOld⟩
    · exact .inl isNew
    · exact .inr ⟨inside, isOld⟩
  · rintro (isNew | isOld)
    · rw [isNew]
      exact ⟨inWindow, .inl rfl⟩
    · exact ⟨isOld.1, .inr isOld.2⟩

end Bitmap

/-- The buffer as the chunks that have arrived leave it. -/
structure Filled (file : List UInt8) (dst : Nat → UInt8) (ctx : TransferCtx) : Prop where
  describes : Describes file ctx
  right :
    ∀ k i, k < totalChunks file → Got ctx k → Covers file ctx k i →
      ctx.fileBuf i = file.getD (ctx.winOff.toNat + i) 0
  rest :
    ∀ i, (∀ k, k < totalChunks file → Got ctx k → ¬ Covers file ctx k i) → ctx.fileBuf i = dst i

theorem Filled.storeChunk (filled : Filled file dst ctx) {k : Nat} (isChunk : k < totalChunks file)
    (inWindow : ctx.chunkInWindow (UInt32.ofNat k) = true) (fileId : UInt8) :
    Filled file dst
      (storeChunk ctx (servedPacket fileId file k) (UInt32.ofNat k)
        (packetLength (servedPacket fileId file k))) := by
  have describes := filled.describes
  have small (j : Nat) (isChunk : j < totalChunks file) : j < 2 ^ 32 := by
    have bound := (describes.index_lt isChunk).1
    omega
  refine ⟨⟨describes.size, describes.chunks⟩, ?_, ?_⟩
  · intro j i isOther got covered
    rw [storeChunk_fileBuf describes isChunk]
    split_ifs with here
    · rfl
    · rcases (got_storeChunk inWindow (small k isChunk) (small j isOther)).1 got with isNew | isOld
      · rw [isNew] at covered
        exact absurd covered here
      · exact filled.right j i isOther isOld covered
  · intro i uncovered
    have notHere : ¬ Covers file ctx k i := by
      apply uncovered k isChunk
      rw [got_storeChunk inWindow (small k isChunk) (small k isChunk)]
      exact .inl rfl
    rw [storeChunk_fileBuf describes isChunk, if_neg notHere]
    apply filled.rest
    intro j isOther got
    apply uncovered j isOther
    rw [got_storeChunk inWindow (small k isChunk) (small j isOther)]
    exact .inr got

/-- A datagram the client can get while it fetches the file and nothing else:
a packet of the file, or no data packet at all. -/
def OfFile (file : List UInt8) (datagram : List UInt8) : Prop :=
  (∃ fileId k, k < totalChunks file ∧ datagram = servedPacket fileId file k) ∨
    datagram.length < 12 ∨ datagram.getD 0 0 ≠ msgDataPacket

theorem Filled.process {datagram : List UInt8} (good : OfFile file datagram)
    (filled : Filled file dst ctx) :
    Filled file dst (processDataPacket ctx (datagram.take (12 + chunkSize))).2 := by
  rcases good with ⟨fileId, k, isChunk, isPacket⟩ | other
  · rw [isPacket, processDataPacket_served filled.describes isChunk]
    split_ifs with missing
    · simp only [isMissing, Bool.and_eq_true] at missing
      exact filled.storeChunk isChunk missing.1 fileId
    · exact filled
  · rw [processDataPacket_other ctx chunkSize other]
    exact filled

section Ranges

variable {ctx : TransferCtx}

theorem mem_indices (start stop chunkIdx : UInt32) :
    chunkIdx ∈ indices start stop ↔ start.toNat ≤ chunkIdx.toNat ∧ chunkIdx.toNat < stop.toNat := by
  rw [indices, List.mem_map]
  constructor
  · rintro ⟨k, isBetween, isIndex⟩
    rw [List.mem_range'_1] at isBetween
    have bound : stop.toNat < 2 ^ 32 := stop.toNat_lt
    rw [← isIndex, UInt32.toNat_ofNat']
    omega
  · rintro ⟨fromStart, toStop⟩
    refine ⟨chunkIdx.toNat, ?_, UInt32.ofNat_toNat⟩
    rw [List.mem_range'_1]
    omega

/-- None of the chunks is missing. -/
def Complete (goal : List UInt32) (ctx : TransferCtx) : Prop :=
  ∀ chunkIdx ∈ goal, ctx.isMissing chunkIdx = false

theorem countMissingInRange_eq_zero (start stop : UInt32) :
    ctx.countMissingInRange start stop = 0 ↔ Complete (indices start stop) ctx := by
  rw [countMissingInRange, List.countP_eq_zero]
  simp only [Complete, Bool.not_eq_true]

theorem mem_getMissingInRange (start chunkIdx : UInt32) :
    chunkIdx ∈ ctx.getMissingInRange start (start + maxRetrans) ↔
      chunkIdx ∈ indices start (start + maxRetrans) ∧ ctx.isMissing chunkIdx = true := by
  have atMost :
      ((indices start (start + maxRetrans)).filter ctx.isMissing).length ≤ maxRetrans.toNat := by
    apply (List.length_filter_le _ _).trans
    have wraps : (start + maxRetrans).toNat ≤ start.toNat + maxRetrans.toNat := by
      rw [UInt32.toNat_add]
      exact Nat.mod_le _ _
    rw [indices, List.length_map, List.length_range']
    omega
  rw [getMissingInRange, List.take_of_length_le atMost, List.mem_filter]

theorem isMissing_eq_false {chunkIdx : UInt32} (inWindow : ctx.chunkInWindow chunkIdx = true) :
    ctx.isMissing chunkIdx = false ↔ ctx.hasChunk chunkIdx = true := by
  rw [isMissing, inWindow, Bool.true_and, Bool.not_eq_false']

theorem isMissing_processDataPacket {chunkIdx : UInt32} (packet : List UInt8)
    (found : ctx.isMissing chunkIdx = false) :
    (processDataPacket ctx packet).2.isMissing chunkIdx = false := by
  rcases processDataPacket_cases ctx packet with same | ⟨stored, -, -⟩
  · rw [same]
    exact found
  · rw [stored, isMissing, chunkInWindow_storeChunk, hasChunk_storeChunk]
    rw [isMissing, Bool.and_eq_false_iff] at found
    rw [Bool.and_eq_false_iff]
    rcases found with outside | isThere
    · exact .inl outside
    · right
      rw [Bool.not_eq_false'] at isThere ⊢
      rw [isThere, Bool.or_true]

theorem isMissing_servedPacket {file : List UInt8} (describes : Describes file ctx) {k : Nat}
    (isChunk : k < totalChunks file) (fileId : UInt8) :
    (processDataPacket ctx
        ((servedPacket fileId file k).take (12 + chunkSize))).2.isMissing
      (UInt32.ofNat k) = false := by
  rw [processDataPacket_served describes isChunk]
  by_cases missing : ctx.isMissing (UInt32.ofNat k) = true
  · rw [if_pos missing, isMissing, hasChunk_storeChunk,
      decide_eq_true rfl, Bool.true_or, Bool.not_true, Bool.and_false]
  · rw [if_neg missing]
    exact Bool.eq_false_iff.mpr missing

theorem SameWindow.chunkInWindow
    {later : TransferCtx} (same : SameWindow ctx later) (chunkIdx : UInt32) :
    later.chunkInWindow chunkIdx = ctx.chunkInWindow chunkIdx := by
  rw [TransferCtx.chunkInWindow, TransferCtx.chunkInWindow, same.firstChunk, same.nChunks]

theorem SameWindow.describes {later : TransferCtx} {file : List UInt8} (same : SameWindow ctx later)
    (describes : Describes file ctx) : Describes file later := by
  constructor
  · rw [same.fileSize]
    exact describes.size
  · rw [same.totalChunks]
    exact describes.chunks

end Ranges

namespace TransferCtx

variable {ctx : TransferCtx}

theorem windowEnd_toNat (fits : ctx.firstChunk.toNat + ctx.nChunks.toNat < 2 ^ 32) :
    (ctx.firstChunk + ctx.nChunks).toNat = ctx.firstChunk.toNat + ctx.nChunks.toNat := by
  rw [UInt32.toNat_add]
  omega

theorem chunkInWindow_iff (fits : ctx.firstChunk.toNat + ctx.nChunks.toNat < 2 ^ 32)
    (chunkIdx : UInt32) :
    ctx.chunkInWindow chunkIdx = true ↔
      ctx.firstChunk.toNat ≤ chunkIdx.toNat ∧
        chunkIdx.toNat < ctx.firstChunk.toNat + ctx.nChunks.toNat := by
  rw [chunkInWindow, Bool.and_eq_true, decide_eq_true_iff, decide_eq_true_iff,
    UInt32.le_iff_toNat_le, UInt32.lt_iff_toNat_lt, windowEnd_toNat fits]

theorem isMissing_index (fits : ctx.firstChunk.toNat + ctx.nChunks.toNat < 2 ^ 32) {j : Nat}
    (isEntry : j < ctx.nChunks.toNat) :
    ctx.isMissing (ctx.firstChunk + UInt32.ofNat j) = !ctx.received j := by
  have inWindow : ctx.chunkInWindow (ctx.firstChunk + UInt32.ofNat j) = true := by
    rw [chunkInWindow_iff fits, UInt32.toNat_add, UInt32.toNat_ofNat']
    omega
  have isOffset : (ctx.firstChunk + UInt32.ofNat j - ctx.firstChunk).toNat = j := by
    rw [add_sub_cancel_left, UInt32.toNat_ofNat']
    omega
  rw [isMissing, inWindow, Bool.true_and, hasChunk, isOffset]

theorem allChunksReceived_iff (fits : ctx.firstChunk.toNat + ctx.nChunks.toNat < 2 ^ 32) :
    ctx.allChunksReceived = true ↔ ∀ chunkIdx, ctx.isMissing chunkIdx = false := by
  rw [allChunksReceived, List.all_eq_true]
  constructor
  · intro received chunkIdx
    by_cases inWindow : ctx.chunkInWindow chunkIdx = true
    · rw [isMissing_eq_false inWindow, hasChunk]
      apply received
      rw [chunkInWindow_iff fits] at inWindow
      rw [List.mem_range, UInt32.toNat_sub_of_le _ _ (UInt32.le_iff_toNat_le.mpr inWindow.1)]
      omega
    · rw [isMissing, Bool.eq_false_iff.mpr inWindow, Bool.false_and]
  · intro complete j isEntry
    have found := complete (ctx.firstChunk + UInt32.ofNat j)
    rw [isMissing_index fits (List.mem_range.mp isEntry), Bool.not_eq_false'] at found
    exact found

end TransferCtx

/-- The chunks of the window are chunks of the file. -/
def WithinFile (file : List UInt8) (ctx : TransferCtx) : Prop :=
  Describes file ctx ∧ ctx.firstChunk.toNat + ctx.nChunks.toNat ≤ totalChunks file

namespace WithinFile

variable {file : List UInt8} {ctx : TransferCtx}

theorem sameWindow {later : TransferCtx} (within : WithinFile file ctx)
    (same : SameWindow ctx later) : WithinFile file later := by
  refine ⟨same.describes within.1, ?_⟩
  rw [same.firstChunk, same.nChunks]
  exact within.2

theorem totalChunks_lt (within : WithinFile file ctx) : totalChunks file < 2 ^ 24 := by
  have size := within.1.size
  have bound : ctx.fileSize.toNat < 2 ^ 32 := ctx.fileSize.toNat_lt
  rw [totalChunks, chunkSize]
  omega

theorem chunks_lt (within : WithinFile file ctx) :
    ctx.firstChunk.toNat + ctx.nChunks.toNat < 2 ^ 32 := by
  have bound := within.totalChunks_lt
  have inside := within.2
  omega

theorem windowEnd (within : WithinFile file ctx) :
    (ctx.firstChunk + ctx.nChunks).toNat = ctx.firstChunk.toNat + ctx.nChunks.toNat :=
  windowEnd_toNat within.chunks_lt

theorem chunkInWindow_iff (within : WithinFile file ctx) (chunkIdx : UInt32) :
    ctx.chunkInWindow chunkIdx = true ↔
      ctx.firstChunk.toNat ≤ chunkIdx.toNat ∧
        chunkIdx.toNat < ctx.firstChunk.toNat + ctx.nChunks.toNat :=
  TransferCtx.chunkInWindow_iff within.chunks_lt chunkIdx

theorem allChunksReceived_iff (within : WithinFile file ctx) :
    ctx.allChunksReceived = true ↔ ∀ chunkIdx, ctx.isMissing chunkIdx = false :=
  TransferCtx.allChunksReceived_iff within.chunks_lt

end WithinFile

section Pieces

variable {first stop size : UInt32} (positive : 0 < size.toNat)
  (fits : stop.toNat + size.toNat < 2 ^ 32)

include positive fits

theorem pieceStart_toNat {k : Nat}
    (isPiece : k < (stop.toNat - first.toNat + size.toNat - 1) / size.toNat) :
    (first + UInt32.ofNat (k * size.toNat)).toNat = first.toNat + k * size.toNat ∧
      first.toNat + k * size.toNat < stop.toNat := by
  rw [Nat.lt_div_iff_mul_lt positive] at isPiece
  rw [UInt32.toNat_add, UInt32.toNat_ofNat']
  omega

theorem mem_pieceStarts {chunkIdx : UInt32} (fromFirst : first.toNat ≤ chunkIdx.toNat)
    (toStop : chunkIdx.toNat < stop.toNat) :
    ∃ start ∈ pieceStarts first stop size,
      start.toNat ≤ chunkIdx.toNat ∧
        chunkIdx.toNat < start.toNat + size.toNat ∧
        start.toNat < stop.toNat := by
  have split := Nat.div_add_mod (chunkIdx.toNat - first.toNat) size.toNat
  have rest := Nat.mod_lt (chunkIdx.toNat - first.toNat) positive
  generalize (chunkIdx.toNat - first.toNat) / size.toNat = k at split
  rw [Nat.mul_comm] at split
  have isPiece : k < (stop.toNat - first.toNat + size.toNat - 1) / size.toNat := by
    rw [Nat.lt_div_iff_mul_lt positive]
    omega
  refine ⟨_, List.mem_map_of_mem (List.mem_range.mpr isPiece), ?_⟩
  rw [(pieceStart_toNat positive fits isPiece).1]
  omega

theorem bounds_of_mem_pieceStarts {start : UInt32} (isStart : start ∈ pieceStarts first stop size) :
    first.toNat ≤ start.toNat ∧ start.toNat < stop.toNat := by
  obtain ⟨k, isPiece, rfl⟩ := List.mem_map.mp isStart
  have isNumber := pieceStart_toNat positive fits (List.mem_range.mp isPiece)
  omega

theorem pieceStarts_apart :
    (pieceStarts first stop size).Pairwise fun start later =>
      start.toNat + size.toNat ≤ later.toNat := by
  rw [pieceStarts, List.pairwise_map]
  refine List.pairwise_lt_range.imp_of_mem fun {j k} isFirst isLater before => ?_
  rw [(pieceStart_toNat positive fits (List.mem_range.mp isFirst)).1,
    (pieceStart_toNat positive fits (List.mem_range.mp isLater)).1]
  have next : (j + 1) * size.toNat ≤ k * size.toNat := Nat.mul_le_mul_right _ before
  rw [Nat.succ_mul] at next
  omega

end Pieces

/-- The context of a window of bytes of the file. -/
structure WindowOf (file : List UInt8) (ctx : TransferCtx) : Prop where
  describes : Describes file ctx
  fits : ctx.winOff.toNat + ctx.winLen.toNat ≤ file.length
  first : ctx.firstChunk.toNat = ctx.winOff.toNat / chunkSize
  last :
    ctx.firstChunk.toNat + ctx.nChunks.toNat =
      (ctx.winOff.toNat + ctx.winLen.toNat + chunkSize - 1) / chunkSize

theorem WindowOf.within (window : WindowOf file ctx) : WithinFile file ctx := by
  have fits := window.fits
  refine ⟨window.describes, ?_⟩
  rw [window.last, totalChunks, chunkSize]
  omega

theorem WindowOf.sameWindow {later : TransferCtx} (window : WindowOf file ctx)
    (same : SameWindow ctx later) :
    WindowOf file later := by
  obtain ⟨describes, fits, first, last⟩ := window
  refine ⟨same.describes describes, ?_, ?_, ?_⟩
  · rw [same.winOff, same.winLen]
    exact fits
  · rw [same.firstChunk, same.winOff]
    exact first
  · rw [same.firstChunk, same.nChunks, same.winOff, same.winLen]
    exact last

theorem WindowOf.exists_covers (window : WindowOf file ctx) {i : Nat}
    (inside : i < ctx.winLen.toNat) :
    ∃ k, k < totalChunks file ∧
      ctx.chunkInWindow (UInt32.ofNat k) = true ∧ Covers file ctx k i := by
  have fits := window.fits
  have first := window.first
  have last := window.last
  have within := window.within
  have size := window.describes.size
  have sizeBound : ctx.fileSize.toNat < 2 ^ 32 := ctx.fileSize.toNat_lt
  rw [chunkSize] at first last
  have isChunk : (ctx.winOff.toNat + i) / 512 < totalChunks file := by
    rw [lt_totalChunks_iff, chunkSize]
    omega
  refine ⟨(ctx.winOff.toNat + i) / 512, isChunk, ?_, ?_, ?_, ?_⟩
  · rw [within.chunkInWindow_iff, UInt32.toNat_ofNat']
    omega
  · rw [chunkSize]
    omega
  · rw [chunkOf_length, chunkSize]
    omega
  · rw [UInt32.toNat_add]
    omega

theorem WindowOf.bytes (window : WindowOf file ctx) (filled : Filled file dst ctx)
    (received : ctx.allChunksReceived = true) {i : Nat} (inside : i < ctx.winLen.toNat) :
    ctx.fileBuf i = file.getD (ctx.winOff.toNat + i) 0 := by
  obtain ⟨k, isChunk, inWindow, covered⟩ := window.exists_covers inside
  have complete := window.within.allChunksReceived_iff.1 received
  have has := (isMissing_eq_false inWindow).1 (complete (UInt32.ofNat k))
  exact filled.right k i isChunk ⟨inWindow, has⟩ covered

/-- The metadata of a file. -/
structure FileMeta.Describes (file : List UInt8) (info : FileMeta) : Prop where
  size : info.fileSize.toNat = file.length
  chunks : info.totalChunks.toNat = Ftp.totalChunks file

theorem start_lastChunk (info : FileMeta) (dst : Nat → UInt8) (byteOff byteLen : UInt32) :
    let ctx := start info dst byteOff byteLen
    (ctx.firstChunk + ctx.nChunks).toNat =
      (byteOff.toNat + byteLen.toNat + 511) % 2 ^ 32 / 512 := by
  have regroup : byteOff + byteLen + chunkBytes - 1 = byteOff + byteLen + 511 := by
    rw [add_sub_assoc]
    rfl
  have constant : (511 : UInt32).toNat = 511 := rfl
  have divisor : chunkBytes.toNat = 512 := rfl
  dsimp only [start]
  rw [add_sub_cancel, regroup, UInt32.toNat_div, UInt32.toNat_add,
    UInt32.toNat_add, constant, divisor]
  omega

theorem start_chunks (info : FileMeta) (dst : Nat → UInt8) {byteOff byteLen : UInt32}
    (noWrap : byteOff.toNat + byteLen.toNat + 512 ≤ 2 ^ 32) :
    let ctx := start info dst byteOff byteLen
    ctx.firstChunk.toNat = byteOff.toNat / chunkSize ∧
      ctx.firstChunk.toNat + ctx.nChunks.toNat =
        (byteOff.toNat + byteLen.toNat + chunkSize - 1) / chunkSize := by
  have isLast := start_lastChunk info dst byteOff byteLen
  have isFirst : (start info dst byteOff byteLen).firstChunk.toNat = byteOff.toNat / 512 :=
    UInt32.toNat_div _ _
  refine ⟨isFirst, ?_⟩
  generalize start info dst byteOff byteLen = ctx at isFirst isLast ⊢
  have bound : ctx.nChunks.toNat < 2 ^ 32 := ctx.nChunks.toNat_lt
  dsimp only at isLast ⊢
  rw [UInt32.toNat_add] at isLast
  rw [chunkSize]
  omega

section Start

variable {file : List UInt8} {info : FileMeta}

theorem start_filled (known : info.Describes file) (dst : Nat → UInt8) (byteOff byteLen : UInt32) :
    Filled file dst (start info dst byteOff byteLen) := by
  refine ⟨⟨known.size, known.chunks⟩, ?_, ?_⟩
  · rintro k i - ⟨-, has⟩
    cases has
  · intro i uncovered
    rfl

theorem start_windowOf (known : info.Describes file) (dst : Nat → UInt8) {byteOff byteLen : UInt32}
    (fits : byteOff.toNat + byteLen.toNat ≤ file.length)
    (noWrap : byteOff.toNat + byteLen.toNat + 512 ≤ 2 ^ 32) :
    WindowOf file (start info dst byteOff byteLen) := by
  obtain ⟨isFirst, isLast⟩ := start_chunks info dst noWrap
  exact ⟨⟨known.size, known.chunks⟩, fits, isFirst, isLast⟩

end Start

end LlmRuntime.Ftp
