import LlmRuntime.Ftp.RangeFetch

/-!
# Whose bytes a fetch returns

All transfers of a process use one port, and `process_data_packet` does not look
at the file a packet belongs to.
-/

namespace LlmRuntime.Ftp

open Bytes TransferCtx

variable {host later : Host} {fileId : UInt8} {dst : Nat → UInt8}
  {fetched : Fetched} {good : List UInt8 → Prop}

theorem llmMetaRequest_some {info : FileMeta}
    (returned : llmMetaRequest fileId host = .returned (some info) later) :
    ∃ datagram rest,
      recvFrom (host.incoming ++ host.network (metaRequest fileId)) = some (datagram, rest) ∧
        48 ≤ (datagram.take 48).length ∧
        (datagram.take 48).getD 0 0 = msgMetaResp ∧
        info = FileMeta.parse (datagram.take 48) ∧
        later.incoming = rest ∧ later.network = host.network ∧
        later.sent = host.sent ++ [metaRequest fileId] := by
  rw [llmMetaRequest] at returned
  obtain ⟨sameIncoming, sameNetwork⟩ := host.attempt_incoming
  have sameSent := host.attempt_sent
  rcases bound : host.attempt with ⟨done, middle⟩
  rw [bound] at returned sameIncoming sameNetwork sameSent
  cases done with
  | false => cases returned
  | true =>
    dsimp only at returned sameIncoming sameNetwork sameSent
    rw [Host.send] at returned
    obtain ⟨stillIncoming, stillNetwork⟩ := middle.attempt_incoming
    have stillSent := middle.attempt_sent
    rcases sending : middle.attempt with ⟨done, last⟩
    rw [sending] at returned stillIncoming stillNetwork stillSent
    cases done with
    | false => cases returned
    | true =>
      dsimp only at returned stillIncoming stillNetwork stillSent
      rw [stillIncoming, sameIncoming, stillNetwork, sameNetwork] at returned
      cases received : recvFrom (host.incoming ++ host.network (metaRequest fileId)) with
      | none =>
        rw [received] at returned
        cases returned
      | some first =>
        obtain ⟨datagram, rest⟩ := first
        rw [received] at returned
        dsimp only at returned
        split_ifs at returned with refused
        · cases returned
        · rw [not_or, not_lt, not_not] at refused
          simp only [Outcome.returned.injEq, Option.some.injEq] at returned
          refine ⟨datagram, rest, rfl, refused.1, refused.2, returned.1.symm, ?_, ?_, ?_⟩
          · rw [← returned.2]
          · rw [← returned.2]
          · rw [← returned.2, ← sameSent, ← stillSent]

/-- A fetch that returns has failed before its transfer, or transferred a window
of the file it was told about. -/
theorem llmFetchWindow_cases {byteOff byteLen : UInt32}
    (returned : llmFetchWindow fileId dst byteOff byteLen host = .returned fetched later) :
    (fetched.result = -1 ∧ fetched.dst = dst) ∨
      ∃ info middle,
        llmMetaRequest fileId host = .returned (some info) middle ∧
          ¬ (info.fileSize ≤ byteOff ∨
            byteOff + windowLength info byteOff byteLen > info.fileSize) ∧
          let ended :=
            transferWindow fileId middle.attempt.2.attempt.2
              (start info dst byteOff (windowLength info byteOff byteLen))
          fetched.result = finishWindow info ended.2 ∧
            fetched.dst = ended.2.fileBuf ∧ later = ended.1 := by
  rw [llmFetchWindow] at returned
  rcases learned : llmMetaRequest fileId host with
    _ | ⟨info | info, middle⟩
  · rw [learned] at returned
    cases returned
  · rw [learned] at returned
    cases returned
    exact .inl ⟨rfl, rfl⟩
  · rw [learned] at returned
    dsimp only at returned
    rw [← windowLength_eq] at returned
    split_ifs at returned with isOutside
    · cases returned
      exact .inl ⟨rfl, rfl⟩
    rcases allocated : middle.attempt with ⟨done, first⟩
    rw [allocated] at returned
    cases done with
    | false =>
      cases returned
      exact .inl ⟨rfl, rfl⟩
    | true =>
      dsimp only at returned
      rcases bound : first.attempt with ⟨done, second⟩
      rw [bound] at returned
      cases done with
      | false =>
        cases returned
        exact .inl ⟨rfl, rfl⟩
      | true =>
        refine .inr ⟨info, middle, rfl, isOutside, ?_⟩
        rw [allocated]
        dsimp only
        rw [bound]
        cases returned
        exact ⟨rfl, rfl, rfl⟩

theorem llmFetchWindow_zero {byteOff byteLen : UInt32}
    (returned : llmFetchWindow fileId dst byteOff byteLen host = .returned fetched later)
    (success : fetched.result = 0) :
    ∃ info middle,
      llmMetaRequest fileId host = .returned (some info) middle ∧
        ¬ (info.fileSize ≤ byteOff ∨ byteOff + windowLength info byteOff byteLen > info.fileSize) ∧
        let ended :=
          transferWindow fileId middle.attempt.2.attempt.2
            (start info dst byteOff (windowLength info byteOff byteLen))
        finishWindow info ended.2 = 0 ∧ fetched.dst = ended.2.fileBuf ∧ later = ended.1 := by
  rcases llmFetchWindow_cases returned with
    ⟨failed, -⟩ | ⟨info, middle, learned, isInside, isResult, ended⟩
  · rw [failed] at success
    cases success
  · exact ⟨info, middle, learned, isInside, isResult.symm.trans success, ended⟩

theorem llmFetchFileInto_cases {dstLen : UInt32}
    (returned : llmFetchFileInto fileId dst dstLen host = .returned fetched later) :
    (fetched.result = -1 ∧ fetched.dst = dst) ∨
      ∃ info middle inner,
        llmMetaRequest fileId host = .returned (some info) middle ∧
          ¬ info.fileSize > dstLen ∧
          llmFetchWindow fileId dst 0 info.fileSize middle = .returned inner later ∧
          fetched = { inner with sizeOut := some info.fileSize } := by
  rw [llmFetchFileInto] at returned
  rcases learned : llmMetaRequest fileId host with
    _ | ⟨info | info, middle⟩
  · rw [learned] at returned
    cases returned
  · rw [learned] at returned
    cases returned
    exact .inl ⟨rfl, rfl⟩
  · rw [learned] at returned
    dsimp only at returned
    split_ifs at returned with tooLarge
    · cases returned
      exact .inl ⟨rfl, rfl⟩
    rcases window : llmFetchWindow fileId dst 0 info.fileSize middle with
      _ | ⟨inner, last⟩
    · rw [window] at returned
      cases returned
    · rw [window] at returned
      cases returned
      exact .inr ⟨info, middle, inner, rfl, tooLarge, window, rfl⟩

theorem recvFrom_some {results rest : List (Option (List UInt8))} {datagram : List UInt8}
    (received : recvFrom results = some (datagram, rest)) :
    ∃ skipped : List (Option (List UInt8)),
      results = skipped ++ some datagram :: rest ∧ ∀ result ∈ skipped, result = none := by
  induction results with
  | nil => cases received
  | cons result results ih =>
    cases result with
    | none =>
      obtain ⟨skipped, isResults, idle⟩ := ih received
      refine ⟨none :: skipped, ?_, ?_⟩
      · rw [isResults, List.cons_append]
      · intro result isSkipped
        rcases List.mem_cons.mp isSkipped with isNone | isLater
        · exact isNone
        · exact idle result isLater
    | some first =>
      simp only [recvFrom, Option.some.injEq, Prod.mk.injEq] at received
      rw [received.1, received.2]
      exact ⟨[], rfl, fun result isSkipped => nomatch isSkipped⟩

theorem Host.Supplies.received (supplies : host.Supplies good)
    {request datagram : List UInt8} {rest : List (Option (List UInt8))}
    (received : recvFrom (host.incoming ++ host.network request) = some (datagram, rest)) :
    good datagram ∧
      ∀ later : Host, later.incoming = rest →
        later.network = host.network → later.Supplies good := by
  obtain ⟨skipped, isResults, -⟩ := recvFrom_some received
  have all : ∀ arrival, some arrival ∈ host.incoming ++ host.network request → good arrival := by
    intro arrival isArrival
    rcases List.mem_append.mp isArrival with old | new
    · exact supplies.arrived arrival old
    · exact supplies.answered request arrival new
  rw [isResults] at all
  constructor
  · apply all
    simp
  · intro later isRest isNetwork
    constructor
    · intro arrival isArrival
      rw [isRest] at isArrival
      apply all
      simp [isArrival]
    · rw [isNetwork]
      exact supplies.answered

theorem Host.Supplies.and {also : List UInt8 → Prop}
    (first : host.Supplies good) (second : host.Supplies also) :
    host.Supplies fun datagram => good datagram ∧ also datagram where
  arrived := fun datagram isArrival =>
    ⟨first.arrived datagram isArrival, second.arrived datagram isArrival⟩
  answered := fun request datagram isArrival =>
    ⟨first.answered request datagram isArrival, second.answered request datagram isArrival⟩

/-- A datagram the server sent in answer to some request. -/
def Produced (server : Server) (datagram : List UInt8) : Prop :=
  ∃ request, datagram ∈ handleMessage server request

def Overlaps (start stop k : Nat) : Prop := start < (k + 1) * chunkSize ∧ k * chunkSize < stop

/-- If the packet is for a chunk of the window, it is a packet of the file. -/
def OwnPacket (fileId : UInt8) (start stop : Nat) (datagram : List UInt8) : Prop :=
  datagram.getD 0 0 = msgDataPacket →
    Overlaps start stop (packetIndex datagram).toNat → datagram.getD 1 0 = fileId

section Packets

variable {server : Server} {fileId : UInt8} {file : List UInt8}

variable {ctx : TransferCtx}

theorem WindowOf.chunkInWindow_iff (window : WindowOf file ctx) (chunkIdx : UInt32) :
    ctx.chunkInWindow chunkIdx = true ↔
      Overlaps ctx.winOff.toNat (ctx.winOff.toNat + ctx.winLen.toNat) chunkIdx.toNat := by
  have last := window.last
  rw [window.within.chunkInWindow_iff, Overlaps, window.first, chunkSize]
  rw [window.first, chunkSize] at last
  omega

theorem processDataPacket_outside {packet : List UInt8}
    (outside : ctx.chunkInWindow (packetIndex packet) = false) :
    (processDataPacket ctx packet).2 = ctx := by
  rcases processDataPacket_cases ctx packet with same | ⟨-, -, missing⟩
  · exact same
  · rw [isMissing, outside] at missing
    cases missing

theorem Filled.processOwn (served : server.files fileId = some file) {dst : Nat → UInt8}
    (window : WindowOf file ctx) (filled : Filled file dst ctx) {datagram : List UInt8}
    (produced : Produced server datagram)
    (own : OwnPacket fileId ctx.winOff.toNat (ctx.winOff.toNat + ctx.winLen.toNat) datagram) :
    Filled file dst (processDataPacket ctx (datagram.take (12 + chunkSize))).2 := by
  obtain ⟨request, isReply⟩ := produced
  cases handleMessage_reply isReply with
  | @packet otherId other k otherServed isChunk fits =>
    rw [OwnPacket, servedPacket_index, ← window.chunkInWindow_iff] at own
    by_cases inWindow : ctx.chunkInWindow (UInt32.ofNat k) = true
    · have sameId : otherId = fileId := own rfl inWindow
      rw [sameId, served, Option.some.injEq] at otherServed
      rw [← otherServed] at isChunk ⊢
      exact filled.process (.inl ⟨otherId, k, isChunk, rfl⟩)
    · rw [servedPacket_take, processDataPacket_outside]
      · exact filled
      · rw [servedPacket_index]
        exact Bool.eq_false_iff.mpr inWindow
  | info otherServed fits =>
    apply filled.process
    have other : msgMetaResp ≠ msgDataPacket := by decide
    exact .inr (.inr other)
  | error otherId errorCode =>
    apply filled.process
    have short : 6 < 12 := by omega
    exact .inr (.inl short)

theorem stable_filledOwn (served : server.files fileId = some file)
    (dst : Nat → UInt8) {start : TransferCtx} (window : WindowOf file start) :
    Stable fun host ctx =>
      host.Supplies
          (fun datagram =>
            Produced server datagram ∧
              OwnPacket fileId start.winOff.toNat
                (start.winOff.toNat + start.winLen.toNat) datagram) ∧
        Filled file dst ctx ∧ SameWindow start ctx := by
  apply stable_of_supplies
  rintro ctx datagram ⟨produced, own⟩ ⟨filled, same⟩
  rw [← same.winOff, ← same.winLen] at own
  exact ⟨filled.processOwn served (window.sameWindow same) produced own,
    same.trans (processDataPacket_sameWindow ctx _)⟩

theorem Produced.metadata (served : server.files fileId = some file) {datagram : List UInt8}
    (produced : Produced server datagram) (long : 48 ≤ (datagram.take 48).length)
    (isMeta : (datagram.take 48).getD 0 0 = msgMetaResp) (own : datagram.getD 1 0 = fileId) :
    datagram = metaResponse server fileId file ∧ file.length < 2 ^ 32 := by
  obtain ⟨request, isReply⟩ := produced
  cases handleMessage_reply isReply with
  | packet otherServed isChunk fits => cases isMeta
  | @info otherId other otherServed fits =>
    have sameId : otherId = fileId := own
    rw [sameId, served, Option.some.injEq] at otherServed
    rw [sameId, otherServed]
    exact ⟨rfl, fits⟩
  | error otherId errorCode =>
    change 48 ≤ 6 at long
    omega

end Packets

/-- A fetch that succeeds returns the bytes of its file, if the metadata it
takes and the packets its window can take are those of the file. -/
theorem fetched_window_of_file {server : Server} {fileId : UInt8} {file : List UInt8}
    (served : server.files fileId = some file) {dst : Nat → UInt8} {byteOff byteLen : UInt32}
    {host later : Host} {fetched : Fetched} (honest : host.Supplies (Produced server))
    (ownMeta : ∀ datagram rest,
        recvFrom (host.incoming ++ host.network (metaRequest fileId)) = some (datagram, rest) →
        datagram.getD 1 0 = fileId)
    (ownPackets : host.Supplies (OwnPacket fileId byteOff.toNat
          (byteOff.toNat + bytesAsked file byteOff byteLen)))
    (noWrap : byteOff.toNat + bytesAsked file byteOff byteLen + 512 ≤ 2 ^ 32)
    (returned : llmFetchWindow fileId dst byteOff byteLen host = .returned fetched later)
    (success : fetched.result = 0) (i : Nat) (inside : i < bytesAsked file byteOff byteLen) :
    fetched.dst i = file.getD (byteOff.toNat + i) 0 := by
  obtain ⟨info, middle, learned, isInside, finished, isDst, -⟩ :=
    llmFetchWindow_zero returned success
  obtain ⟨datagram, rest, received, long, isMeta, isInfo, isIncoming,
    isNetwork, -⟩ := llmMetaRequest_some learned
  obtain ⟨produced, onlyProduced⟩ := honest.received received
  obtain ⟨-, onlyOwn⟩ := ownPackets.received received
  obtain ⟨isResponse, small⟩ :=
    produced.metadata served long isMeta (ownMeta datagram rest received)
  rw [isResponse, metaResponse_take, parse_metaResponse] at isInfo
  have known : info.Describes file := by
    rw [isInfo]
    exact servedMeta_describes small
  rw [not_or, UInt32.not_le, gt_iff_lt, UInt32.not_lt] at isInside
  have size := known.size
  have before : byteOff.toNat < file.length := by
    rw [← size]
    exact UInt32.lt_iff_toNat_lt.mp isInside.1
  have isLength := windowLength_toNat known before byteLen
  generalize windowLength info byteOff byteLen = length at isLength isInside finished isDst
  rw [← isLength] at ownPackets onlyOwn noWrap inside
  have fits : byteOff.toNat + length.toNat ≤ file.length := by
    have atMost := UInt32.le_iff_toNat_le.mp isInside.2
    rw [UInt32.toNat_add, size] at atMost
    omega
  have window := start_windowOf known dst fits noWrap
  have begins := start_filled known dst byteOff length
  have supplies :=
    ((onlyProduced middle isIncoming isNetwork).and
      (onlyOwn middle isIncoming isNetwork)).attempt.attempt
  have afterwards :=
    (stable_filledOwn served dst window).transferWindow fileId ⟨supplies, begins, .refl _⟩
  generalize
    transferWindow fileId middle.attempt.2.attempt.2
      (start info dst byteOff length) = ended at afterwards finished isDst
  obtain ⟨-, filled, same⟩ := afterwards
  rw [finishWindow_eq_zero] at finished
  have stillInside : i < ended.2.winLen.toNat := by
    rw [same.winLen]
    exact inside
  have isByte := (window.sameWindow same).bytes filled finished.1 stillInside
  rw [same.winOff] at isByte
  rw [isDst]
  exact isByte

def twoFiles : Server where
  hashlib := SecureHash.digest
  files := fun fileId =>
    if fileId = 1 then some [10, 11]
    else if fileId = 2 then some [20, 21]
    else none

/-- A system in which the given datagrams arrive and no call fails. -/
def delivering (stream : List (Option (List UInt8))) : Host where
  incoming := stream
  network := fun _ => []
  failures := []
  sent := []
  spent := false

/-- A fetch from file 1 for which the metadata of the file and one packet
arrive. -/
def packetFetch (packet : List UInt8) : Host where
  incoming := [some (metaResponse twoFiles 1 [10, 11]), some packet]
  network := fun _ => []
  failures := []
  sent := []
  spent := false

theorem packetFetch_supplies {packet : List UInt8}
    (goodMeta : good (metaResponse twoFiles 1 [10, 11]))
    (goodPacket : good packet) : (packetFetch packet).Supplies good := by
  constructor
  · intro datagram arrived
    have isOne : datagram = metaResponse twoFiles 1 [10, 11] ∨ datagram = packet := by
      simpa [packetFetch] using arrived
    rcases isOne with isMeta | isPacket
    · rw [isMeta]
      exact goodMeta
    · rw [isPacket]
      exact goodPacket
  · intro request datagram arrived
    cases arrived

theorem twoFiles_produced_meta : Produced twoFiles (metaResponse twoFiles 1 [10, 11]) := by
  refine ⟨metaRequest 1, ?_⟩
  rw [handleMessage_metaRequest rfl (by decide)]
  exact List.mem_singleton_self _

theorem packetFetch_returned (packet : List UInt8) :
    llmFetchWindow 1 (fun _ => 0) 0 1 (packetFetch packet) =
      let ended :=
        transferWindow 1 ((packetFetch packet).afterMeta 1 [some packet])
          (start (servedMeta twoFiles [10, 11]) (fun _ => 0) 0 1)
      .returned
        ⟨finishWindow (servedMeta twoFiles [10, 11]) ended.2,
          ended.2.fileBuf, some (servedMeta twoFiles [10, 11]).fileSize⟩
        ended.1 := by
  have answered :
      recvFrom ((packetFetch packet).incoming ++ (packetFetch packet).network (metaRequest 1)) =
        some (metaResponse twoFiles 1 [10, 11], [some packet]) :=
    rfl
  have small : ([10, 11] : List UInt8).length < 2 ^ 32 := by decide
  have before : (0 : UInt32).toNat < ([10, 11] : List UInt8).length := by decide
  have fits : (0 : UInt32).toNat + bytesAsked [10, 11] 0 1 ≤ ([10, 11] : List UInt8).length := by
    decide
  exact llmFetchWindow_served rfl answered small (fun _ => 0) before fits

theorem packetFetch_zero (packet : List UInt8) (received :
      (transferWindow 1 ((packetFetch packet).afterMeta 1 [some packet])
        (start (servedMeta twoFiles [10, 11]) (fun _ => 0) 0 1)).2.allChunksReceived = true) :
    finishWindow (servedMeta twoFiles [10, 11])
        (transferWindow 1 ((packetFetch packet).afterMeta 1 [some packet])
          (start (servedMeta twoFiles [10, 11]) (fun _ => 0) 0 1)).2 = 0 := by
  have same :
      SameWindow (start (servedMeta twoFiles [10, 11]) (fun _ => 0) 0 1)
        (transferWindow 1 ((packetFetch packet).afterMeta 1 [some packet])
          (start (servedMeta twoFiles [10, 11]) (fun _ => 0) 0 1)).2 :=
    (stable_sameWindow _).transferWindow 1 (.refl _)
  rw [finishWindow_eq_zero]
  refine ⟨received, ?_⟩
  rintro ⟨-, wholeFile⟩
  rw [same.winLen] at wholeFile
  exact absurd wholeFile (by decide)

theorem fetched_window_of_file_ownPacket :
    ∃ fetched later,
      llmFetchWindow 1 (fun _ => 0) 0 1 (packetFetch (servedPacket 1 [10, 11] 0)) =
        .returned fetched later ∧
      ∀ i, i < 1 → fetched.dst i = ([10, 11] : List UInt8).getD (0 + i) 0 := by
  have served : twoFiles.files 1 = some [10, 11] := rfl
  have produced : Produced twoFiles (servedPacket 1 [10, 11] 0) :=
    ⟨dataRangeRequest 1 0 1, by decide⟩
  have returned := packetFetch_returned (servedPacket 1 [10, 11] 0)
  refine ⟨_, _, returned, ?_⟩
  refine fetched_window_of_file served (packetFetch_supplies twoFiles_produced_meta produced) ?_
    (packetFetch_supplies (fun _ _ => rfl) fun _ _ => rfl) (by decide)
    returned
    (packetFetch_zero (servedPacket 1 [10, 11] 0) (by decide +kernel))
  · intro datagram rest received
    have isFirst : datagram = metaResponse twoFiles 1 [10, 11] := by
      simpa [packetFetch, recvFrom, eq_comm] using (congrArg (Option.map Prod.fst) received)
    rw [isFirst]
    rfl

/-- A late packet of file 2 is taken for one of file 1. -/
theorem latePacket_mixes_files :
    (packetFetch (servedPacket 2 [20, 21] 0)).Supplies (Produced twoFiles) ∧
      ∃ fetched later,
        llmFetchWindow 1 (fun _ => 0) 0 1 (packetFetch (servedPacket 2 [20, 21] 0)) =
          .returned fetched later ∧
        fetched.result = 0 ∧ fetched.dst 0 = 20 ∧
        twoFiles.files 1 = some [10, 11] := by
  have produced : Produced twoFiles (servedPacket 2 [20, 21] 0) :=
    ⟨dataRangeRequest 2 0 1, by decide⟩
  refine ⟨packetFetch_supplies twoFiles_produced_meta produced, _, _,
    packetFetch_returned _, ?_, ?_, rfl⟩
  · exact packetFetch_zero (servedPacket 2 [20, 21] 0) (by decide +kernel)
  · decide +kernel

end LlmRuntime.Ftp
