import LlmRuntime.Ftp.Transfer

/-!
# The server's packets at the client

What `data_packet` builds for a chunk of a file is what `process_data_packet`
takes apart.
-/

namespace LlmRuntime.Ftp

open Bytes

def chunkOf (file : List UInt8) (k : Nat) : List UInt8 :=
  (file.take (min (k * chunkSize + chunkSize) file.length)).drop (k * chunkSize)

def servedPacket (fileId : UInt8) (file : List UInt8) (k : Nat) : List UInt8 :=
  [msgDataPacket, fileId, 0, 0] ++ beWord (UInt32.ofNat k) ++
    beHalf (UInt16.ofNat (chunkOf file k).length) ++ [0, 0] ++ chunkOf file k

theorem chunkOf_length (file : List UInt8) (k : Nat) :
    (chunkOf file k).length = min (k * chunkSize + chunkSize) file.length - k * chunkSize := by
  rw [chunkOf, List.length_drop, List.length_take]
  omega

theorem chunkOf_length_le (file : List UInt8) (k : Nat) : (chunkOf file k).length ≤ 512 := by
  rw [chunkOf_length, chunkSize]
  omega

theorem chunkOf_getD (file : List UInt8) {k j : Nat} (inside : j < (chunkOf file k).length) :
    (chunkOf file k).getD j 0 = file.getD (k * chunkSize + j) 0 := by
  have length := chunkOf_length file k
  rw [chunkOf, List.getD_eq_getElem?_getD, List.getElem?_drop,
    List.getElem?_take, List.getD_eq_getElem?_getD, if_pos (by omega)]

theorem lt_totalChunks_iff (file : List UInt8) (k : Nat) :
    k < totalChunks file ↔ k * chunkSize < file.length := by
  rw [totalChunks, chunkSize]
  omega

theorem getChunk_of_lt {file : List UInt8} {k : Nat} (isChunk : k < totalChunks file) :
    getChunk file k = some (chunkOf file k) := by
  rw [getChunk, if_neg (by omega)]
  rfl

theorem dataPacket_chunk (fileId : UInt8) (file : List UInt8) {k : Nat} (fits : k < 2 ^ 32) :
    dataPacket fileId k (chunkOf file k) = .ok (servedPacket fileId file k) := by
  have short : (chunkOf file k).length < 2 ^ 16 := by
    have bound := chunkOf_length_le file k
    omega
  simp only [dataPacket, packWord, if_pos fits, packHalf, if_pos short]
  rfl

theorem servedPacket_length (fileId : UInt8) (file : List UInt8) (k : Nat) :
    (servedPacket fileId file k).length = 12 + (chunkOf file k).length := by
  simp only [servedPacket, List.length_append, List.length_cons, List.length_nil, beWord, beHalf]

theorem servedPacket_take (fileId : UInt8) (file : List UInt8) (k : Nat) :
    (servedPacket fileId file k).take (12 + chunkSize) = servedPacket fileId file k := by
  apply List.take_of_length_le
  rw [servedPacket_length, chunkSize]
  have bound := chunkOf_length_le file k
  omega

theorem servedPacket_index (fileId : UInt8) (file : List UInt8) (k : Nat) :
    packetIndex (servedPacket fileId file k) = UInt32.ofNat k := by
  simp only [packetIndex, servedPacket, List.append_assoc, List.cons_append,
    List.nil_append, List.drop_succ_cons, List.drop_zero, readBeWord_beWord]

theorem servedPacket_declared (fileId : UInt8) (file : List UInt8) (k : Nat) :
    (packetLength (servedPacket fileId file k)).toNat = (chunkOf file k).length := by
  have bound := chunkOf_length_le file k
  have header :
      (servedPacket fileId file k).drop 8 =
        beHalf (UInt16.ofNat (chunkOf file k).length) ++ ([0, 0] ++ chunkOf file k) := by
    simp only [servedPacket, beWord, List.append_assoc, List.cons_append,
      List.nil_append, List.drop_succ_cons, List.drop_zero]
  rw [packetLength, header, readBeHalf_beHalf, UInt16.toNat_toUInt32, UInt16.toNat_ofNat']
  omega

theorem servedPacket_payload (fileId : UInt8) (file : List UInt8) (k j : Nat) :
    (servedPacket fileId file k).getD (12 + j) 0 = (chunkOf file k).getD j 0 := by
  have split :
      servedPacket fileId file k =
        ([msgDataPacket, fileId, 0, 0] ++ beWord (UInt32.ofNat k) ++
          beHalf (UInt16.ofNat (chunkOf file k).length) ++ [0, 0]) ++
          chunkOf file k := rfl
  have header :
      ([msgDataPacket, fileId, 0, 0] ++ beWord (UInt32.ofNat k) ++
          beHalf (UInt16.ofNat (chunkOf file k).length) ++
          [0, 0]).length = 12 := rfl
  rw [split, List.getD_append_right _ _ _ _ (by rw [header]; omega), header,
    Nat.add_sub_cancel_left]

/-- The copy of a packet for the chunk writes offset `i` of the buffer. -/
def CopiesTo (ctx : TransferCtx) (chunkIdx length : UInt32) (i : Nat) : Prop :=
  let span := copySpan ctx chunkIdx length
  span.1 < span.2 ∧ (span.1 - ctx.winOff).toNat ≤ i ∧
    i < (span.1 - ctx.winOff).toNat + (span.2 - span.1).toNat

section Copy

variable {chunkIdx length : UInt32} {start stop : Nat}

theorem copySpan_toNat (ctx : TransferCtx) (chunkStart : (chunkIdx * chunkBytes).toNat = start)
    (chunkEnd : (chunkIdx * chunkBytes + length).toNat = stop) :
    (copySpan ctx chunkIdx length).1.toNat = max start ctx.winOff.toNat ∧
      (copySpan ctx chunkIdx length).2.toNat = min stop (ctx.winOff + ctx.winLen).toNat := by
  simp only [copySpan, gt_iff_lt, UInt32.lt_iff_toNat_lt, chunkStart, chunkEnd]
  constructor
  · split_ifs with later
    · rw [chunkStart]
      omega
    · omega
  · split_ifs with earlier
    · rw [chunkEnd]
      omega
    · omega

theorem copiesTo_iff (ctx : TransferCtx) (chunkStart : (chunkIdx * chunkBytes).toNat = start)
    (chunkEnd : (chunkIdx * chunkBytes + length).toNat = stop) (i : Nat) :
    CopiesTo ctx chunkIdx length i ↔
      start ≤ ctx.winOff.toNat + i ∧ ctx.winOff.toNat + i < stop ∧
        ctx.winOff.toNat + i < (ctx.winOff + ctx.winLen).toNat := by
  obtain ⟨isStart, isEnd⟩ := copySpan_toNat ctx chunkStart chunkEnd
  have behind : ctx.winOff.toNat ≤ (copySpan ctx chunkIdx length).1.toNat := by omega
  rw [CopiesTo, UInt32.lt_iff_toNat_lt,
    UInt32.toNat_sub_of_le _ _ (UInt32.le_iff_toNat_le.mpr behind)]
  constructor
  · rintro ⟨nonempty, fromStart, toEnd⟩
    rw [UInt32.toNat_sub_of_le _ _ (UInt32.le_iff_toNat_le.mpr nonempty.le)] at toEnd
    omega
  · rintro ⟨fromStart, toEnd, inWindow⟩
    have nonempty :
        (copySpan ctx chunkIdx length).1.toNat < (copySpan ctx chunkIdx length).2.toNat := by
      omega
    rw [UInt32.toNat_sub_of_le _ _ (UInt32.le_iff_toNat_le.mpr nonempty.le)]
    omega

theorem storeChunk_fileBuf_copied {ctx : TransferCtx} (packet : List UInt8)
    (chunkStart : (chunkIdx * chunkBytes).toNat = start)
    (chunkEnd : (chunkIdx * chunkBytes + length).toNat = stop) {i : Nat}
    (copied : CopiesTo ctx chunkIdx length i) :
    (storeChunk ctx packet chunkIdx length).fileBuf i =
      packet.getD (12 + (ctx.winOff.toNat + i - start)) 0 := by
  obtain ⟨isStart, -⟩ := copySpan_toNat ctx chunkStart chunkEnd
  obtain ⟨nonempty, fromStart, toEnd⟩ := copied
  have afterChunk : (chunkIdx * chunkBytes).toNat ≤ (copySpan ctx chunkIdx length).1.toNat := by
    omega
  have afterWindow : ctx.winOff.toNat ≤ (copySpan ctx chunkIdx length).1.toNat := by omega
  simp only [storeChunk, if_pos nonempty, copyBytes]
  rw [if_pos ⟨fromStart, toEnd⟩]
  rw [UInt32.toNat_sub_of_le _ _ (UInt32.le_iff_toNat_le.mpr afterWindow)] at fromStart ⊢
  rw [UInt32.toNat_sub_of_le _ _ (UInt32.le_iff_toNat_le.mpr afterChunk), chunkStart]
  congr 1
  omega

theorem storeChunk_fileBuf_kept {ctx : TransferCtx} (packet : List UInt8)
    {i : Nat} (notCopied : ¬ CopiesTo ctx chunkIdx length i) :
    (storeChunk ctx packet chunkIdx length).fileBuf i = ctx.fileBuf i := by
  simp only [storeChunk]
  split_ifs with nonempty
  · rw [copyBytes, if_neg fun inside => notCopied ⟨nonempty, inside⟩]
  · rfl

end Copy

/-- The context was made from the metadata of the file. -/
structure Describes (file : List UInt8) (ctx : TransferCtx) : Prop where
  size : ctx.fileSize.toNat = file.length
  chunks : ctx.totalChunks.toNat = totalChunks file

/-- Offset `i` of the buffer belongs to chunk `k`. -/
def Covers (file : List UInt8) (ctx : TransferCtx) (k i : Nat) : Prop :=
  k * chunkSize ≤ ctx.winOff.toNat + i ∧
    ctx.winOff.toNat + i < k * chunkSize + (chunkOf file k).length ∧
    ctx.winOff.toNat + i < (ctx.winOff + ctx.winLen).toNat

instance (file : List UInt8) (ctx : TransferCtx) (k i : Nat) : Decidable (Covers file ctx k i) :=
  inferInstanceAs (Decidable (_ ∧ _ ∧ _))

section Served

variable {file : List UInt8} {ctx : TransferCtx} {k : Nat}

theorem Describes.index_lt (describes : Describes file ctx) (isChunk : k < totalChunks file) :
    k < 2 ^ 23 ∧ k * chunkSize + (chunkOf file k).length ≤ file.length := by
  have size := describes.size
  have bound : ctx.fileSize.toNat < 2 ^ 32 := ctx.fileSize.toNat_lt
  have start := (lt_totalChunks_iff file k).1 isChunk
  have length := chunkOf_length file k
  rw [chunkSize] at start length ⊢
  omega

theorem Describes.chunkStart (describes : Describes file ctx) (isChunk : k < totalChunks file) :
    (UInt32.ofNat k * chunkBytes).toNat = k * chunkSize := by
  have bounds := describes.index_lt isChunk
  rw [UInt32.toNat_mul, UInt32.toNat_ofNat', chunkBytes, chunkSize]
  have bytes : (512 : UInt32).toNat = 512 := rfl
  rw [bytes]
  omega

theorem Describes.chunkEnd (describes : Describes file ctx) (isChunk : k < totalChunks file)
    {length : UInt32} (declared : length.toNat = (chunkOf file k).length) :
    (UInt32.ofNat k * chunkBytes + length).toNat = k * chunkSize + (chunkOf file k).length := by
  have bounds := describes.index_lt isChunk
  have size := describes.size
  have bound : ctx.fileSize.toNat < 2 ^ 32 := ctx.fileSize.toNat_lt
  rw [UInt32.toNat_add, describes.chunkStart isChunk, declared]
  omega

/-- A chunk of the file is refused outside the window, and else stored unless
it is there already. -/
theorem processDataPacket_served (describes : Describes file ctx)
    (isChunk : k < totalChunks file) (fileId : UInt8) :
    (processDataPacket ctx
        ((servedPacket fileId file k).take (12 + chunkSize))).2 =
      if ctx.isMissing (UInt32.ofNat k) then
        storeChunk ctx (servedPacket fileId file k) (UInt32.ofNat k)
          (packetLength (servedPacket fileId file k))
      else ctx := by
  have bounds := describes.index_lt isChunk
  have declared := servedPacket_declared fileId file k
  have chunkEnd := describes.chunkEnd isChunk declared
  rw [servedPacket_take, processDataPacket]
  have long : ¬ (servedPacket fileId file k).length < 12 := by
    rw [servedPacket_length]
    omega
  have isData : ¬ (servedPacket fileId file k).getD 0 0 ≠ msgDataPacket := not_not.mpr rfl
  have known : ¬ ctx.totalChunks ≤ UInt32.ofNat k := by
    rw [UInt32.le_iff_toNat_le, describes.chunks, UInt32.toNat_ofNat']
    omega
  have whole :
      ¬ (servedPacket fileId file k).length <
        12 + (packetLength (servedPacket fileId file k)).toNat := by
    rw [servedPacket_length, declared]
    omega
  have withinFile :
      ¬ UInt32.ofNat k * chunkBytes + packetLength (servedPacket fileId file k) > ctx.fileSize := by
    rw [gt_iff_lt, UInt32.lt_iff_toNat_lt, chunkEnd, describes.size]
    omega
  rw [if_neg long, if_neg isData]
  dsimp only
  rw [servedPacket_index, if_neg known, if_neg whole, if_neg withinFile]
  simp only [TransferCtx.isMissing]
  by_cases inWindow : ctx.chunkInWindow (UInt32.ofNat k) = true
  · by_cases isThere : ctx.hasChunk (UInt32.ofNat k) = true
    · simp [inWindow, isThere]
    · simp [inWindow, isThere]
  · simp [inWindow]

theorem storeChunk_fileBuf (describes : Describes file ctx)
    (isChunk : k < totalChunks file) (fileId : UInt8) (i : Nat) :
    (storeChunk ctx (servedPacket fileId file k) (UInt32.ofNat k)
        (packetLength (servedPacket fileId file k))).fileBuf i =
      if Covers file ctx k i then file.getD (ctx.winOff.toNat + i) 0
      else ctx.fileBuf i := by
  have declared := servedPacket_declared fileId file k
  have chunkStart := describes.chunkStart isChunk
  have chunkEnd := describes.chunkEnd isChunk declared
  have copied := copiesTo_iff ctx chunkStart chunkEnd i
  by_cases covered : Covers file ctx k i
  · rw [if_pos covered, storeChunk_fileBuf_copied _ chunkStart chunkEnd (copied.mpr covered)]
    obtain ⟨fromStart, toEnd, -⟩ := covered
    rw [servedPacket_payload, chunkOf_getD file (by omega)]
    congr 1
    omega
  · rw [if_neg covered, storeChunk_fileBuf_kept _ fun isCopied => covered (copied.mp isCopied)]

end Served

end LlmRuntime.Ftp
