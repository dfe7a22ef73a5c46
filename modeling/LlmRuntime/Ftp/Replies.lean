import LlmRuntime.Ftp.Arrival

/-!
# What the server sends

Whatever it is asked, the server sends packets of its files, the metadata of its
files and errors.
-/

namespace LlmRuntime.Ftp

open Bytes

def metaResponse (server : Server) (fileId : UInt8) (file : List UInt8) : List UInt8 :=
  [msgMetaResp, fileId, 0, 1] ++ beWord (UInt32.ofNat file.length) ++
    beWord chunkBytes ++ beWord (UInt32.ofNat (totalChunks file)) ++
    (server.hashlib file).toList

/-- The datagrams the server can send. -/
inductive Reply (server : Server) : List UInt8 → Prop where
  | packet {fileId : UInt8} {file : List UInt8} {k : Nat}
      (served : server.files fileId = some file)
      (isChunk : k < totalChunks file) (fits : k < 2 ^ 32) :
      Reply server (servedPacket fileId file k)
  | info {fileId : UInt8} {file : List UInt8}
      (served : server.files fileId = some file)
      (fits : file.length < 2 ^ 32) :
      Reply server (metaResponse server fileId file)
  | error (fileId errorCode : UInt8) :
      Reply server (errorResponse fileId errorCode)

section Chunks

variable (file : List UInt8) (fileId : UInt8)

theorem sendChunks_cons {chunkIdx : Nat} (fits : chunkIdx < 2 ^ 32) (rest : List Nat) :
    sendChunks file fileId (chunkIdx :: rest) =
      if chunkIdx < totalChunks file then
        (servedPacket fileId file chunkIdx :: (sendChunks file fileId rest).1,
          (sendChunks file fileId rest).2)
      else sendChunks file fileId rest := by
  rw [sendChunks]
  by_cases isChunk : chunkIdx < totalChunks file
  · rw [if_pos isChunk, getChunk_of_lt isChunk]
    dsimp only
    rw [dataPacket_chunk fileId file fits]
  · rw [if_neg isChunk, getChunk, if_pos (by omega)]

theorem sendChunks_eq (chunks : List Nat) (fit : ∀ k ∈ chunks, k < 2 ^ 32) :
    sendChunks file fileId chunks =
      ((chunks.filter (· < totalChunks file)).map (servedPacket fileId file), .ok ()) := by
  induction chunks with
  | nil => rfl
  | cons chunkIdx rest ih =>
    have isRest :=
      ih fun k isMember =>
        fit k (List.mem_cons_of_mem _ isMember)
    rw [sendChunks_cons file fileId (fit chunkIdx List.mem_cons_self), isRest]
    by_cases isChunk : chunkIdx < totalChunks file
    · rw [if_pos isChunk, List.filter_cons_of_pos (by simpa using isChunk), List.map_cons]
    · rw [if_neg isChunk, List.filter_cons_of_neg (by simpa using isChunk)]

theorem mem_sendChunks (chunks : List Nat) {datagram : List UInt8}
    (isSent : datagram ∈ (sendChunks file fileId chunks).1) :
    ∃ k, k < totalChunks file ∧ k < 2 ^ 32 ∧ datagram = servedPacket fileId file k := by
  induction chunks with
  | nil => cases isSent
  | cons chunkIdx rest ih =>
    by_cases fits : chunkIdx < 2 ^ 32
    · rw [sendChunks_cons file fileId fits] at isSent
      by_cases isChunk : chunkIdx < totalChunks file
      · rw [if_pos isChunk] at isSent
        rcases List.mem_cons.mp isSent with isFirst | isLater
        · exact ⟨chunkIdx, isChunk, fits, isFirst⟩
        · exact ih isLater
      · rw [if_neg isChunk] at isSent
        exact ih isSent
    · rw [sendChunks] at isSent
      by_cases isChunk : chunkIdx < totalChunks file
      · rw [getChunk_of_lt isChunk] at isSent
        simp only [dataPacket, packWord, if_neg fits] at isSent
        cases isSent
      · rw [getChunk, if_pos (by omega)] at isSent
        exact ih isSent

end Chunks

section Handlers

variable {server : Server} {fileId : UInt8} {file : List UInt8}

/-- Everything a handler makes the server send. -/
def Handled.replies (handled : Handled) : List (List UInt8) :=
  handled.sent ++
    match handled.result with
    | .ok response => response.toList
    | .error _ => [errorResponse 0 3]

theorem handleMetaReq_served {data : List UInt8} (long : 4 ≤ data.length)
    (served : server.files (data.getD 1 0) = some file) (fits : file.length < 2 ^ 32) :
    handleMetaReq server data = ⟨[], .ok (some (metaResponse server (data.getD 1 0) file))⟩ := by
  have fewer : totalChunks file < 2 ^ 32 := by
    rw [totalChunks, chunkSize]
    omega
  have small : chunkSize < 2 ^ 32 := by
    rw [chunkSize]
    omega
  rw [handleMetaReq, if_neg (by omega)]
  simp only [served, packWord, if_pos fits, if_pos small, if_pos fewer]
  rfl

/-- Metadata is all that a metadata request can bring, errors apart. -/
theorem handleMetaReq_reply {data datagram : List UInt8}
    (isReply : datagram ∈ (handleMetaReq server data).replies) :
    (∃ fileId file, server.files fileId = some file ∧
        file.length < 2 ^ 32 ∧
        datagram = metaResponse server fileId file) ∨
      ∃ fileId errorCode, datagram = errorResponse fileId errorCode := by
  by_cases short : data.length < 4
  · rw [handleMetaReq, if_pos short] at isReply
    exact .inr ⟨0, 2, List.mem_singleton.mp isReply⟩
  · cases served : server.files (data.getD 1 0) with
    | none =>
      rw [handleMetaReq, if_neg short] at isReply
      simp only [served] at isReply
      exact .inr ⟨_, 1, List.mem_singleton.mp isReply⟩
    | some file =>
      by_cases fits : file.length < 2 ^ 32
      · rw [handleMetaReq_served (by omega) served fits] at isReply
        exact .inl ⟨_, file, served, fits, List.mem_singleton.mp isReply⟩
      · rw [handleMetaReq, if_neg short] at isReply
        simp only [served, packWord, if_neg fits] at isReply
        exact .inr ⟨0, 3, List.mem_singleton.mp isReply⟩

theorem replies_of_sendChunks (served : server.files fileId = some file)
    (chunks : List Nat) {datagram : List UInt8}
    (isReply : datagram ∈ Handled.replies ⟨(sendChunks file fileId chunks).1,
            (sendChunks file fileId chunks).2.map fun _ => none⟩) :
    Reply server datagram := by
  rcases List.mem_append.mp isReply with isSent | isResponse
  · obtain ⟨k, isChunk, fits, isPacket⟩ := mem_sendChunks file fileId chunks isSent
    rw [isPacket]
    exact .packet served isChunk fits
  · cases ended : (sendChunks file fileId chunks).2 with
    | ok done =>
      rw [ended] at isResponse
      cases isResponse
    | error raised =>
      rw [ended] at isResponse
      rw [List.mem_singleton.mp isResponse]
      exact .error 0 3

theorem handleDataRangeReq_reply {data datagram : List UInt8}
    (isReply : datagram ∈ (handleDataRangeReq server data).replies) :
    Reply server datagram := by
  rw [handleDataRangeReq] at isReply
  by_cases short : data.length < 12
  · rw [if_pos short] at isReply
    rw [List.mem_singleton.mp isReply]
    exact .error 0 2
  · rw [if_neg short] at isReply
    cases served : server.files (data.getD 1 0) with
    | none =>
      simp only [served] at isReply
      rw [List.mem_singleton.mp isReply]
      exact .error _ 1
    | some file =>
      simp only [served] at isReply
      by_cases past : totalChunks file ≤ (readBeWord (data.drop 8)).1.toNat
      · rw [if_pos past] at isReply
        rw [List.mem_singleton.mp isReply]
        exact .error _ 2
      · rw [if_neg past] at isReply
        exact replies_of_sendChunks served _ isReply

/-- A request for at least one chunk fails before anything is sent. -/
theorem retransLoop_unbound (file : List UInt8) (fileId : UInt8) (data : List UInt8) (count : Nat) :
    retransLoop file fileId data count none =
      ([], if count = 0 then .ok () else .error .unboundLocalError) := by
  cases count with
  | zero => rfl
  | succ count => rw [retransLoop, if_neg (Nat.succ_ne_zero count)]

theorem handleRetransReq_reply {data datagram : List UInt8}
    (isReply : datagram ∈ (handleRetransReq server data).replies) :
    ∃ fileId errorCode, datagram = errorResponse fileId errorCode := by
  rw [handleRetransReq] at isReply
  by_cases short : data.length < 4
  · rw [if_pos short] at isReply
    exact ⟨0, 2, List.mem_singleton.mp isReply⟩
  · rw [if_neg short] at isReply
    cases served : server.files (data.getD 1 0) with
    | none =>
      simp only [served] at isReply
      exact ⟨_, 1, List.mem_singleton.mp isReply⟩
    | some file =>
      simp only [served, retransLoop_unbound] at isReply
      split_ifs at isReply
      · cases isReply
      · exact ⟨0, 3, List.mem_singleton.mp isReply⟩

theorem handleMessage_eq (server : Server) (msgType : UInt8) (rest : List UInt8) :
    handleMessage server (msgType :: rest) =
      (if msgType = msgMetaReq then handleMetaReq server (msgType :: rest)
        else if msgType = msgDataRangeReq then handleDataRangeReq server (msgType :: rest)
        else if msgType = msgRetransReq then handleRetransReq server (msgType :: rest)
        else ⟨[], .ok (some (errorResponse 0 2))⟩).replies := by
  rw [handleMessage]
  rfl

theorem handleMessage_reply {request datagram : List UInt8}
    (isReply : datagram ∈ handleMessage server request) :
    Reply server datagram := by
  cases request with
  | nil => cases isReply
  | cons msgType rest =>
    rw [handleMessage_eq] at isReply
    split_ifs at isReply
    · rcases handleMetaReq_reply isReply with
        ⟨fileId, file, served, fits, isInfo⟩ | ⟨fileId, errorCode, isError⟩
      · rw [isInfo]
        exact .info served fits
      · rw [isError]
        exact .error fileId errorCode
    · exact handleDataRangeReq_reply isReply
    · obtain ⟨fileId, errorCode, isError⟩ := handleRetransReq_reply isReply
      rw [isError]
      exact .error fileId errorCode
    · rw [List.mem_singleton.mp isReply]
      exact .error 0 2

theorem handleMessage_metaRequest (served : server.files fileId = some file)
    (fits : file.length < 2 ^ 32) :
    handleMessage server (metaRequest fileId) = [metaResponse server fileId file] := by
  have long : 4 ≤ (metaRequest fileId).length := Nat.le_refl 4
  have isFile : server.files ((metaRequest fileId).getD 1 0) = some file := served
  have handled := handleMetaReq_served long isFile fits
  rw [metaRequest] at handled ⊢
  rw [handleMessage_eq, if_pos rfl, handled]
  rfl

theorem handleMessage_dataRangeRequest (served : server.files fileId = some file) {start : UInt32}
    {count : UInt16} (isChunk : start.toNat < totalChunks file)
    (small : count.toNat ≤ Server.maxRange) (exist : start.toNat + count.toNat ≤ totalChunks file)
    (fits : totalChunks file < 2 ^ 32) :
    handleMessage server (dataRangeRequest fileId start count) =
      (List.range' start.toNat count.toNat).map (servedPacket fileId file) := by
  have isRequest :
      dataRangeRequest fileId start count =
        msgDataRangeReq :: ([fileId] ++ beHalf count ++ [0, 0, 0, 0] ++ beWord start) := rfl
  have isCount : (readBeHalf ((dataRangeRequest fileId start count).drop 2)).1 = count := by
    simp only [dataRangeRequest, List.append_assoc, List.cons_append,
      List.nil_append, List.drop_succ_cons, List.drop_zero, readBeHalf_beHalf]
  have isStart : (readBeWord ((dataRangeRequest fileId start count).drop 8)).1 = start := by
    simp only [dataRangeRequest, beHalf, List.cons_append,
      List.nil_append, List.drop_succ_cons, List.drop_zero]
    exact congrArg Prod.fst (readBeWord_beWord start [])
  have allSent :
      sendChunks file fileId (List.range' start.toNat count.toNat) =
        ((List.range' start.toNat count.toNat).map (servedPacket fileId file), .ok ()) := by
    have all : ∀ k ∈ List.range' start.toNat count.toNat, k < totalChunks file := by
      intro k isMember
      rw [List.mem_range'_1] at isMember
      omega
    rw [sendChunks_eq file fileId _ fun k isMember =>
        (all k isMember).trans fits,
      List.filter_eq_self.mpr fun k isMember =>
        decide_eq_true (all k isMember)]
  have long : ¬ (dataRangeRequest fileId start count).length < 12 := Nat.lt_irrefl 12
  rw [isRequest, handleMessage_eq, if_neg (by decide), if_pos rfl,
    ← isRequest, handleDataRangeReq, if_neg long]
  have isId : (dataRangeRequest fileId start count).getD 1 0 = fileId := rfl
  simp only [isId, served, isCount, isStart]
  rw [if_neg (by omega), Nat.min_eq_left small, Nat.min_eq_left exist,
    Nat.add_sub_cancel_left, allSent]
  exact List.append_nil _

end Handlers

/-- What the client learns from the server's response. -/
def servedMeta (server : Server) (file : List UInt8) : FileMeta where
  fileSize := UInt32.ofNat file.length
  totalChunks := UInt32.ofNat (totalChunks file)
  hash := (server.hashlib file).toList

section Metadata

variable (server : Server) (fileId : UInt8) (file : List UInt8)

theorem metaResponse_length : (metaResponse server fileId file).length = 48 := by
  simp only [metaResponse, List.length_append, List.length_cons,
    List.length_nil, beWord, Vector.length_toList]

theorem metaResponse_take :
    (metaResponse server fileId file).take 48 = metaResponse server fileId file := by
  apply List.take_of_length_le
  rw [metaResponse_length]

theorem parse_metaResponse :
    FileMeta.parse (metaResponse server fileId file) = servedMeta server file := by
  have digestLength : ((server.hashlib file).toList).length = 32 := Vector.length_toList
  rw [FileMeta.parse, servedMeta, FileMeta.mk.injEq]
  refine ⟨?_, ?_, ?_⟩
  · simp only [metaResponse, List.append_assoc, List.cons_append,
      List.nil_append, List.drop_succ_cons, List.drop_zero, readBeWord_beWord]
  · have behind :
        (metaResponse server fileId file).drop 12 =
          beWord (UInt32.ofNat (totalChunks file)) ++ (server.hashlib file).toList := by
      simp only [metaResponse, beWord, List.cons_append, List.nil_append,
        List.drop_succ_cons, List.drop_zero]
    rw [behind, readBeWord_beWord]
  · have behind :
        (metaResponse server fileId file).drop 16 = (server.hashlib file).toList := by
      simp only [metaResponse, beWord, List.cons_append, List.nil_append,
        List.drop_succ_cons, List.drop_zero]
    rw [behind, List.take_of_length_le digestLength.le]

/-- A system that has sent a request and received the metadata. -/
def Host.afterMeta (host : Host) (fileId : UInt8) (rest : List (Option (List UInt8))) : Host :=
  { host with
    sent := host.sent ++ [metaRequest fileId]
    incoming := rest }

theorem llmMetaRequest_of_response {asked : UInt8} {host : Host} {response : List UInt8}
    {rest : List (Option (List UInt8))} (works : host.failures = [])
    (answered : recvFrom (host.incoming ++ host.network (metaRequest asked)) =
        some (response, rest))
    (whole : response.length = 48) (isMeta : response.getD 0 0 = msgMetaResp) :
    llmMetaRequest asked host =
      .returned (some (FileMeta.parse response)) (host.afterMeta asked rest) := by
  have accepted : ¬ (response.length < 48 ∨ response.getD 0 0 ≠ msgMetaResp) := by
    rintro (short | other)
    · omega
    · exact other isMeta
  rw [llmMetaRequest, Host.attempt_of_noFailures works]
  dsimp only
  rw [Host.send_of_noFailures works]
  dsimp only
  rw [answered]
  dsimp only
  rw [List.take_of_length_le whole.le, if_neg accepted]
  rfl

variable {server fileId file}

theorem llmMetaRequest_answered {asked : UInt8} {host : Host}
    {rest : List (Option (List UInt8))} (works : host.failures = [])
    (answered : recvFrom (host.incoming ++ host.network (metaRequest asked)) =
        some (metaResponse server fileId file, rest)) :
    llmMetaRequest asked host =
      .returned (some (servedMeta server file)) (host.afterMeta asked rest) := by
  rw [← parse_metaResponse server fileId file]
  exact llmMetaRequest_of_response works answered (metaResponse_length server fileId file) rfl

theorem servedMeta_describes (fits : file.length < 2 ^ 32) :
    (servedMeta server file).Describes file := by
  constructor
  · exact UInt32.toNat_ofNat_of_lt' fits
  · apply UInt32.toNat_ofNat_of_lt'
    change (file.length + 512 - 1) / 512 < 2 ^ 32
    omega

end Metadata

end LlmRuntime.Ftp
