import LlmRuntime.Rpc.Codec

/-!
# What the decoder takes a datagram for

The layouts that `rpc_decode_msg` accepts, as byte strings.  An `opaque_auth`
with a body is laid out with a second length word, which says how much is copied
and which nothing bounds.
-/

namespace LlmRuntime.RpcWire

open Bytes Xdr Decoder

/-- An `opaque_auth` as the decoder reads it, with the bytes it copies. -/
structure AuthLayout where
  flavor : UInt32
  bodyLen : UInt32
  copied : List UInt8
  bounded : bodyLen.toNat ≤ opaqueAuthBodyMax
  counted : copied.length < 2 ^ 32
  empty : bodyLen = 0 → copied = []

namespace AuthLayout

def bytes (auth : AuthLayout) : List UInt8 :=
  beWord auth.flavor ++
    (beWord auth.bodyLen ++
      if auth.bodyLen = 0 then []
      else beWord (UInt32.ofNat auth.copied.length) ++ auth.copied)

/-- The field of the message after it was read. -/
def fill (auth : AuthLayout) (before : OpaqueAuth) : OpaqueAuth :=
  ⟨auth.flavor, auth.bodyLen, overwritten before.body auth.copied⟩

theorem bytes_of_empty {auth : AuthLayout} (isEmpty : auth.bodyLen = 0) :
    auth.bytes = beWord auth.flavor ++ beWord 0 := by
  rw [bytes, if_pos isEmpty, isEmpty, List.append_nil]

theorem bytes_of_body {auth : AuthLayout} (hasBody : auth.bodyLen ≠ 0) :
    auth.bytes =
      beWord auth.flavor ++
        (beWord auth.bodyLen ++ (beWord (UInt32.ofNat auth.copied.length) ++ auth.copied)) := by
  rw [bytes, if_neg hasBody]

end AuthLayout

/-- The layout of an auth field without a body. -/
def emptyLayout (flavor : UInt32) : AuthLayout where
  flavor := flavor
  bodyLen := 0
  copied := []
  bounded := by decide
  counted := by decide
  empty := fun _ => rfl

section Auth

variable {target : CopyTarget} {auth after : OpaqueAuth}
  {bytes rest : List UInt8} {copied : CopyTarget × List UInt8}

theorem ofNat_length_eq {read : List UInt8} {len : UInt32} (isLength : read.length = len.toNat) :
    UInt32.ofNat read.length = len := by
  rw [isLength, UInt32.ofNat_toNat]

theorem word_pos_iff {word : UInt32} : word > 0 ↔ word ≠ 0 := by
  rw [gt_iff_lt, UInt32.lt_iff_toNat_lt, ne_eq, ← UInt32.toNat_inj]
  exact Nat.pos_iff_ne_zero

theorem overwritten_nil (array : List UInt8) : overwritten array [] = array := rfl

@[simp]
theorem xdrDecodeOpaqueAuth_bytes (target : CopyTarget) (auth : OpaqueAuth)
    (layout : AuthLayout) (rest : List UInt8) :
    (xdrDecodeOpaqueAuth target auth).result (layout.bytes ++ rest) =
      some (layout.fill auth, rest) := by
  by_cases isEmpty : layout.bodyLen = 0
  · rw [AuthLayout.bytes_of_empty isEmpty, AuthLayout.fill,
      layout.empty isEmpty, isEmpty, overwritten_nil]
    simp [xdrDecodeOpaqueAuth]
  · have isLength :
        layout.copied.length % 4294967296 = layout.copied.length :=
      Nat.mod_eq_of_lt layout.counted
    simp [xdrDecodeOpaqueAuth, AuthLayout.bytes_of_body isEmpty, not_lt.mpr layout.bounded,
      word_pos_iff.mpr isEmpty, isLength, Decoder.block_result_append target rfl, AuthLayout.fill]

theorem xdrDecodeOpaqueAuth_result :
    (xdrDecodeOpaqueAuth target auth).result bytes = some (after, rest) ↔
      ∃ layout : AuthLayout, bytes = layout.bytes ++ rest ∧ after = layout.fill auth := by
  constructor
  · simp only [xdrDecodeOpaqueAuth, bind_result_iff, word_result_iff]
    rintro ⟨flavor, _, rfl, bodyLen, behind, rfl, read⟩
    split_ifs at read with overlong hasBody
    · exact (fail_result_iff.mp read).elim
    · simp only [bind_result_iff, word_result_iff, block_result_iff, pure_result_iff] at read
      obtain ⟨again, _, rfl, copied, _, ⟨isLength, rfl⟩, rfl, rfl⟩ := read
      have isBody : bodyLen ≠ 0 := word_pos_iff.mp hasBody
      refine ⟨⟨flavor, bodyLen, copied, not_lt.mp overlong,
        isLength ▸ again.toNat_lt, fun isEmpty => (isBody isEmpty).elim⟩,
        ?_, rfl⟩
      rw [AuthLayout.bytes_of_body isBody, ofNat_length_eq isLength]
      simp only [List.append_assoc]
    · obtain ⟨rfl, rfl⟩ := pure_result_iff.mp read
      have isEmpty : bodyLen = 0 := not_not.mp (mt word_pos_iff.mpr hasBody)
      subst isEmpty
      refine ⟨⟨flavor, 0, [], not_lt.mp overlong, by decide, fun _ => rfl⟩, ?_, rfl⟩
      rw [AuthLayout.bytes_of_empty rfl, List.append_assoc]
  · rintro ⟨layout, rfl, rfl⟩
    exact xdrDecodeOpaqueAuth_bytes target auth layout rest

theorem mem_xdrDecodeOpaqueAuth_copies :
    copied ∈ (xdrDecodeOpaqueAuth target auth).copies bytes ↔
      copied.1 = target ∧
        ∃ layout : AuthLayout,
          layout.bodyLen ≠ 0 ∧ copied.2 = layout.copied ∧ ∃ rest, bytes = layout.bytes ++ rest := by
  simp only [xdrDecodeOpaqueAuth, mem_bind_copies, mem_word_copies, false_or, word_result_iff]
  constructor
  · rintro ⟨flavor, _, rfl, bodyLen, behind, rfl, isCopy⟩
    split_ifs at isCopy with overlong hasBody
    · exact (mem_fail_copies.mp isCopy).elim
    · simp only [mem_bind_copies, mem_word_copies, false_or, word_result_iff, mem_block_copies,
        mem_pure_copies, and_false, exists_false, or_false] at isCopy
      obtain ⟨again, _, rfl, isTarget, rest, isLength, rfl⟩ := isCopy
      have isBody : bodyLen ≠ 0 := word_pos_iff.mp hasBody
      refine ⟨isTarget, ⟨flavor, bodyLen, copied.2, not_lt.mp overlong,
        isLength ▸ again.toNat_lt, fun isEmpty => (isBody isEmpty).elim⟩,
        isBody, rfl, rest, ?_⟩
      rw [AuthLayout.bytes_of_body isBody, ofNat_length_eq isLength]
      simp only [List.append_assoc]
    · exact (mem_pure_copies.mp isCopy).elim
  · rintro ⟨isTarget, layout, isBody, isCopied, rest, rfl⟩
    refine ⟨layout.flavor, _, ?_, layout.bodyLen,
      beWord (UInt32.ofNat layout.copied.length) ++ (layout.copied ++ rest), rfl, ?_⟩
    · rw [AuthLayout.bytes_of_body isBody]
      simp only [List.append_assoc]
    · rw [if_neg (not_lt.mpr layout.bounded), if_pos (word_pos_iff.mpr isBody)]
      simp only [mem_bind_copies, mem_word_copies, false_or, word_result_iff,
        mem_block_copies, mem_pure_copies, and_false, exists_false, or_false]
      refine ⟨_, _, rfl, isTarget, rest, ?_, ?_⟩
      · rw [isCopied, UInt32.toNat_ofNat', Nat.mod_eq_of_lt layout.counted]
      · rw [isCopied]

end Auth

/-- A `call_body`. -/
structure CallLayout where
  prog : UInt32
  vers : UInt32
  proc : UInt32
  cred : AuthLayout
  verf : AuthLayout

namespace CallLayout

def header (call : CallLayout) : List UInt8 := beWords [rpcVersion, call.prog, call.vers, call.proc]

def bytes (call : CallLayout) : List UInt8 := call.header ++ (call.cred.bytes ++ call.verf.bytes)

def fill (call : CallLayout) (before : RpcMsgT) : RpcMsgT :=
  { before with
    call :=
      ⟨rpcVersion, call.prog, call.vers, call.proc,
        call.cred.fill before.call.cred, call.verf.fill before.call.verf⟩ }

end CallLayout

/-- A `reply_body`, by the branches of the decoder.  A `reply_stat` other than
`MSG_ACCEPTED` counts as `MSG_DENIED`, and a `reject_stat` other than
`RPC_MISMATCH` as `AUTH_ERROR`. -/
inductive ReplyLayout where
  | accepted
      (verf : AuthLayout) (stat : UInt32)
      (plain : stat ≠ acceptProgMismatch)
  | progMismatch (verf : AuthLayout) (low high : UInt32)
  | rpcMismatch
      (replyStat : UInt32) (denied : replyStat ≠ msgAccepted)
      (low high : UInt32)
  | authError
      (replyStat : UInt32) (denied : replyStat ≠ msgAccepted)
      (rejectStat : UInt32) (other : rejectStat ≠ rejectRpcMismatch)
      (authStat : UInt32)

namespace ReplyLayout

def bytes : ReplyLayout → List UInt8
  | .accepted verf stat _ => beWord msgAccepted ++ (verf.bytes ++ beWord stat)
  | .progMismatch verf low high =>
    beWord msgAccepted ++ (verf.bytes ++ beWords [acceptProgMismatch, low, high])
  | .rpcMismatch replyStat _ low high => beWords [replyStat, rejectRpcMismatch, low, high]
  | .authError replyStat _ rejectStat _ authStat => beWords [replyStat, rejectStat, authStat]

def fill (before : RpcMsgT) : ReplyLayout → RpcMsgT
  | .accepted verf stat _ =>
    { before with
      replyStat := msgAccepted
      accepted := ⟨verf.fill before.accepted.verf, stat, before.accepted.mismatch⟩ }
  | .progMismatch verf low high =>
    { before with
      replyStat := msgAccepted
      accepted := ⟨verf.fill before.accepted.verf, acceptProgMismatch, ⟨low, high⟩⟩ }
  | .rpcMismatch replyStat _ low high =>
    { before with
      replyStat := replyStat
      rejected := ⟨rejectRpcMismatch, ⟨low, high⟩, before.rejected.authStat⟩ }
  | .authError replyStat _ rejectStat _ authStat =>
    { before with
      replyStat := replyStat
      rejected := ⟨rejectStat, before.rejected.mismatch, authStat⟩ }

end ReplyLayout

inductive BodyLayout where
  | call (body : CallLayout)
  | reply (body : ReplyLayout)

namespace BodyLayout

def bytes : BodyLayout → List UInt8
  | .call body => beWord msgCall ++ body.bytes
  | .reply body => beWord msgReply ++ body.bytes

def fill (before : RpcMsgT) : BodyLayout → RpcMsgT
  | .call body => body.fill { before with mtype := msgCall }
  | .reply body => body.fill { before with mtype := msgReply }

end BodyLayout

/-- A datagram that the decoder accepts. -/
structure MsgLayout where
  xid : UInt32
  body : BodyLayout
  payload : List UInt8
  short : payload.length ≤ rpcPayloadMax

namespace MsgLayout

def bytes (msg : MsgLayout) : List UInt8 := beWord msg.xid ++ (msg.body.bytes ++ msg.payload)

/-- The message of the caller after it was decoded. -/
def fill (msg : MsgLayout) (before : RpcMsgT) : RpcMsgT :=
  let headed := msg.body.fill { before with xid := msg.xid }
  { headed with
    payload := overwritten headed.payload msg.payload
    payloadLen := UInt32.ofNat msg.payload.length }

end MsgLayout

section Messages

variable {out after : RpcMsgT} {bytes rest : List UInt8}

theorem decodePayload_result :
    (decodePayload out).result bytes = some (after, rest) ↔
      bytes.length ≤ rpcPayloadMax ∧ rest = [] ∧
        after =
          { out with
            payload := overwritten out.payload bytes
            payloadLen := UInt32.ofNat bytes.length } := by
  simp only [decodePayload, bind_result_iff, remaining_result_iff]
  constructor
  · rintro ⟨_, behind, ⟨rfl, rfl⟩, read⟩
    split_ifs at read with overlong some
    · exact (fail_result_iff.mp read).elim
    · simp only [bind_result_iff, block_result_iff, pure_result_iff] at read
      obtain ⟨copied, last, ⟨isLength, rfl⟩, rfl, rfl⟩ := read
      rw [List.length_append] at isLength
      have isEnd : last = [] := List.eq_nil_of_length_eq_zero (by omega)
      subst isEnd
      rw [List.append_nil] at overlong ⊢
      exact ⟨not_lt.mp overlong, rfl, rfl⟩
    · obtain ⟨rfl, rfl⟩ := pure_result_iff.mp read
      have isEnd : bytes = [] := List.eq_nil_of_length_eq_zero (by omega)
      subst isEnd
      exact ⟨not_lt.mp overlong, rfl, rfl⟩
  · rintro ⟨short, rfl, rfl⟩
    refine ⟨bytes.length, bytes, ⟨rfl, rfl⟩, ?_⟩
    rw [if_neg (not_lt.mpr short)]
    cases bytes with
    | nil => rfl
    | cons first others =>
      have nonempty : (first :: others).length > 0 := Nat.zero_lt_succ others.length
      rw [if_pos nonempty]
      simp only [bind_result_iff, block_result_iff, pure_result_iff]
      exact ⟨first :: others, [], ⟨rfl, (List.append_nil _).symm⟩, rfl, rfl⟩

@[simp]
theorem decodeCallBody_bytes (call : CallLayout) (rest : List UInt8) :
    (decodeCallBody out).result (call.bytes ++ rest) = some (call.fill out, rest) := by
  simp [decodeCallBody, CallLayout.bytes, CallLayout.header, beWords_cons,
    beWords_nil, CallLayout.fill]

@[simp]
theorem decodeReplyBody_bytes (reply : ReplyLayout) (rest : List UInt8) :
    (decodeReplyBody out).result (reply.bytes ++ rest) = some (reply.fill out, rest) := by
  cases reply with
  | accepted verf stat plain => simp [decodeReplyBody, ReplyLayout.bytes, ReplyLayout.fill, plain]
  | progMismatch verf low high =>
    simp [decodeReplyBody, ReplyLayout.bytes, ReplyLayout.fill, beWords_cons, beWords_nil]
  | rpcMismatch replyStat denied low high =>
    simp [decodeReplyBody, ReplyLayout.bytes, ReplyLayout.fill, beWords_cons, beWords_nil, denied]
  | authError replyStat denied rejectStat other authStat =>
    simp [decodeReplyBody, ReplyLayout.bytes, ReplyLayout.fill,
      beWords_cons, beWords_nil, denied, other]

theorem decodeCallBody_result :
    (decodeCallBody out).result bytes = some (after, rest) ↔
      ∃ call : CallLayout, bytes = call.bytes ++ rest ∧ after = call.fill out := by
  constructor
  · simp only [decodeCallBody, bind_result_iff, word_result_iff]
    rintro ⟨rpcvers, _, rfl, prog, _, rfl, vers, _, rfl, proc, _, rfl, read⟩
    split_ifs at read with other
    · exact (fail_result_iff.mp read).elim
    · simp only [bind_result_iff, xdrDecodeOpaqueAuth_result, pure_result_iff] at read
      obtain ⟨_, _, ⟨cred, rfl, rfl⟩, _, _, ⟨verf, rfl, rfl⟩, rfl, rfl⟩ := read
      have isVersion := not_not.mp other
      subst isVersion
      refine ⟨⟨prog, vers, proc, cred, verf⟩, ?_, rfl⟩
      simp only [CallLayout.bytes, CallLayout.header, beWords_cons,
        beWords_nil, List.append_nil, List.append_assoc]
  · rintro ⟨call, rfl, rfl⟩
    exact decodeCallBody_bytes call rest

theorem decodeReplyBody_result :
    (decodeReplyBody out).result bytes = some (after, rest) ↔
      ∃ reply : ReplyLayout, bytes = reply.bytes ++ rest ∧ after = reply.fill out := by
  constructor
  · simp only [decodeReplyBody, bind_result_iff, word_result_iff]
    rintro ⟨replyStat, behind, rfl, read⟩
    split_ifs at read with accepted
    · subst accepted
      simp only [bind_result_iff, xdrDecodeOpaqueAuth_result, word_result_iff] at read
      obtain ⟨_, _, ⟨verf, rfl, rfl⟩, stat, _, rfl, read⟩ := read
      split_ifs at read with mismatch
      · subst mismatch
        simp only [bind_result_iff, word_result_iff, pure_result_iff] at read
        obtain ⟨low, _, rfl, high, _, rfl, rfl, rfl⟩ := read
        refine ⟨.progMismatch verf low high, ?_, rfl⟩
        simp only [ReplyLayout.bytes, beWords_cons, beWords_nil, List.append_nil, List.append_assoc]
      · obtain ⟨rfl, rfl⟩ := pure_result_iff.mp read
        refine ⟨.accepted verf stat mismatch, ?_, rfl⟩
        simp only [ReplyLayout.bytes, List.append_assoc]
    · simp only [bind_result_iff, word_result_iff] at read
      obtain ⟨rejectStat, _, rfl, read⟩ := read
      split_ifs at read with mismatch
      · subst mismatch
        simp only [bind_result_iff, word_result_iff, pure_result_iff] at read
        obtain ⟨low, _, rfl, high, _, rfl, rfl, rfl⟩ := read
        refine ⟨.rpcMismatch replyStat accepted low high, ?_, rfl⟩
        simp only [ReplyLayout.bytes, beWords_cons, beWords_nil, List.append_nil, List.append_assoc]
      · simp only [bind_result_iff, word_result_iff, pure_result_iff] at read
        obtain ⟨authStat, _, rfl, rfl, rfl⟩ := read
        refine ⟨.authError replyStat accepted rejectStat mismatch authStat, ?_, rfl⟩
        simp only [ReplyLayout.bytes, beWords_cons, beWords_nil, List.append_nil, List.append_assoc]
  · rintro ⟨reply, rfl, rfl⟩
    exact decodeReplyBody_bytes reply rest

theorem decodeMsg_result :
    (decodeMsg out).result bytes = some (after, rest) ↔
      ∃ msg : MsgLayout, bytes = msg.bytes ∧ rest = [] ∧ after = msg.fill out := by
  constructor
  · simp only [decodeMsg, bind_result_iff, word_result_iff]
    rintro ⟨xid, _, rfl, mtype, behind, rfl, read⟩
    split_ifs at read with isCall isReply
    · subst isCall
      simp only [bind_result_iff, decodeCallBody_result, decodePayload_result] at read
      obtain ⟨_, payload, ⟨call, rfl, rfl⟩, short, rfl, rfl⟩ := read
      refine ⟨⟨xid, .call call, payload, short⟩, ?_, rfl, rfl⟩
      simp only [MsgLayout.bytes, BodyLayout.bytes, List.append_assoc]
    · subst isReply
      simp only [bind_result_iff, decodeReplyBody_result, decodePayload_result] at read
      obtain ⟨_, payload, ⟨reply, rfl, rfl⟩, short, rfl, rfl⟩ := read
      refine ⟨⟨xid, .reply reply, payload, short⟩, ?_, rfl, rfl⟩
      simp only [MsgLayout.bytes, BodyLayout.bytes, List.append_assoc]
    · exact (fail_result_iff.mp read).elim
  · rintro ⟨⟨xid, body, payload, short⟩, rfl, rfl, rfl⟩
    have isPayload (out : RpcMsgT) := decodePayload_result.mpr
      ⟨short, rfl, (rfl : _ = { out with
        payload := overwritten out.payload payload
        payloadLen := UInt32.ofNat payload.length })⟩
    cases body with
    | call call =>
      simp [decodeMsg, MsgLayout.bytes, BodyLayout.bytes, isPayload]
      rfl
    | reply reply =>
      have notCall : ¬ msgReply = msgCall := by decide
      simp [decodeMsg, MsgLayout.bytes, BodyLayout.bytes, isPayload, notCall]
      rfl

theorem rpcDecodeMsg_ok_iff {buf : List UInt8} :
    rpcDecodeMsg out buf = .ok after ↔
      ∃ msg : MsgLayout, msg.bytes = buf ∧ after = msg.fill out := by
  rw [rpcDecodeMsg]
  constructor
  · intro decoded
    split at decoded
    case h_1 _ result _ isResult =>
      obtain ⟨msg, isBytes, -, isFill⟩ := decodeMsg_result.mp isResult
      cases decoded
      exact ⟨msg, isBytes.symm, isFill⟩
    case h_2 =>
      cases decoded
  · rintro ⟨msg, rfl, rfl⟩
    have isResult : (decodeMsg out).result msg.bytes = some (msg.fill out, []) :=
      decodeMsg_result.mpr ⟨msg, rfl, rfl, rfl⟩
    rw [isResult]

/-- It rejects everything else. -/
theorem rpcDecodeMsg_error_iff {buf : List UInt8} :
    rpcDecodeMsg out buf = .error .decode ↔ ¬ ∃ msg : MsgLayout, msg.bytes = buf := by
  cases decoded : rpcDecodeMsg out buf with
  | ok after =>
    obtain ⟨msg, isBytes, -⟩ := rpcDecodeMsg_ok_iff.mp decoded
    constructor
    · intro failed
      cases failed
    · intro none
      exact (none ⟨msg, isBytes⟩).elim
  | error code =>
    have isDecode : code = .decode := by
      rw [rpcDecodeMsg] at decoded
      split at decoded <;> cases decoded
      rfl
    rw [isDecode]
    constructor
    · rintro - ⟨msg, isBytes⟩
      have accepted : rpcDecodeMsg out buf = .ok (msg.fill out) :=
        rpcDecodeMsg_ok_iff.mpr ⟨msg, isBytes, rfl⟩
      rw [decoded] at accepted
      cases accepted
    · intro
      rfl

/-- The payload of a message that has been decoded. -/
def RpcMsgT.HasPayload (msg : RpcMsgT) (payload : List UInt8) : Prop :=
  msg.payloadLen.toNat = payload.length ∧ msg.payload.take payload.length = payload

theorem hasPayload_overwritten {msg : RpcMsgT} {array payload : List UInt8}
    (short : payload.length ≤ rpcPayloadMax) (isPayload : msg.payload = overwritten array payload)
    (isLength : msg.payloadLen = UInt32.ofNat payload.length) :
    msg.HasPayload payload := by
  have small : payload.length < 2 ^ 32 := Nat.lt_of_le_of_lt short (by decide)
  constructor
  · rw [isLength, UInt32.toNat_ofNat', Nat.mod_eq_of_lt small]
  · rw [isPayload, overwritten, List.take_left]

end Messages

/-! ## Copies -/

def callHeader (xid prog vers proc : UInt32) : List UInt8 :=
  beWords [xid, msgCall, rpcVersion, prog, vers, proc]

def acceptedHeader (xid : UInt32) : List UInt8 := beWords [xid, msgReply, msgAccepted]

theorem callHeader_append (xid prog vers proc : UInt32) (behind : List UInt8) :
    callHeader xid prog vers proc ++ behind =
      beWord xid ++ (beWord msgCall ++ (beWords [rpcVersion, prog, vers, proc] ++ behind)) := by
  simp only [callHeader, beWords_cons, beWords_nil, List.append_assoc, List.append_nil]

theorem acceptedHeader_append (xid : UInt32) (behind : List UInt8) :
    acceptedHeader xid ++ behind =
      beWord xid ++ (beWord msgReply ++ (beWord msgAccepted ++ behind)) := by
  simp only [acceptedHeader, beWords_cons, beWords_nil, List.append_assoc, List.nil_append]

section Copies

variable {out : RpcMsgT} {bytes : List UInt8} {copied : CopyTarget × List UInt8}

theorem mem_decodePayload_copies :
    copied ∈ (decodePayload out).copies bytes ↔
      bytes ≠ [] ∧ bytes.length ≤ rpcPayloadMax ∧ copied = (.payload, bytes) := by
  simp only [decodePayload, mem_bind_copies, mem_remaining_copies, false_or, remaining_result_iff]
  constructor
  · rintro ⟨_, behind, ⟨rfl, rfl⟩, isCopy⟩
    split_ifs at isCopy with overlong some
    · exact (mem_fail_copies.mp isCopy).elim
    · simp only [mem_bind_copies, mem_block_copies, mem_pure_copies, and_false,
        exists_false, or_false] at isCopy
      obtain ⟨isTarget, last, isLength, rfl⟩ := isCopy
      rw [List.length_append] at isLength
      have isEnd : last = [] := List.eq_nil_of_length_eq_zero (by omega)
      subst isEnd
      rw [List.append_nil] at overlong some ⊢
      exact ⟨List.ne_nil_of_length_pos some, not_lt.mp overlong, Prod.ext isTarget rfl⟩
    · exact (mem_pure_copies.mp isCopy).elim
  · rintro ⟨nonempty, short, rfl⟩
    refine ⟨bytes.length, bytes, ⟨rfl, rfl⟩, ?_⟩
    rw [if_neg (not_lt.mpr short), if_pos (List.length_pos_iff.mpr nonempty)]
    simp only [mem_bind_copies, mem_block_copies,
      mem_pure_copies, and_false, exists_false, or_false]
    exact ⟨trivial, [], trivial, (List.append_nil _).symm⟩

theorem mem_decodeCallBody_copies :
    copied ∈ (decodeCallBody out).copies bytes ↔
      ∃ prog vers proc behind,
        bytes = beWords [rpcVersion, prog, vers, proc] ++ behind ∧
          (copied ∈ (xdrDecodeOpaqueAuth .cred out.call.cred).copies behind ∨
            ∃ (cred : AuthLayout) (rest : List UInt8),
              behind = cred.bytes ++ rest ∧
                copied ∈ (xdrDecodeOpaqueAuth .verf out.call.verf).copies rest) := by
  simp only [decodeCallBody, mem_bind_copies, mem_word_copies, false_or, word_result_iff,
    beWords_cons, beWords_nil, List.append_nil, List.append_assoc]
  constructor
  · rintro ⟨rpcvers, _, rfl, prog, _, rfl, vers, _, rfl, proc, behind, rfl, isCopy⟩
    split_ifs at isCopy with other
    · exact (mem_fail_copies.mp isCopy).elim
    · simp only [mem_bind_copies, xdrDecodeOpaqueAuth_result, mem_pure_copies,
        and_false, exists_false, or_false] at isCopy
      have isVersion := not_not.mp other
      subst isVersion
      refine ⟨prog, vers, proc, behind, rfl, ?_⟩
      rcases isCopy with inCred | ⟨_, rest, ⟨cred, rfl, rfl⟩, inVerf⟩
      · exact .inl inCred
      · exact .inr ⟨cred, rest, rfl, inVerf⟩
  · rintro ⟨prog, vers, proc, behind, rfl, isCopy⟩
    refine ⟨rpcVersion, _, rfl, prog, _, rfl, vers, _, rfl, proc, behind, rfl, ?_⟩
    rw [if_neg (not_not_intro rfl)]
    simp only [mem_bind_copies, xdrDecodeOpaqueAuth_result,
      mem_pure_copies, and_false, exists_false, or_false]
    rcases isCopy with inCred | ⟨cred, rest, rfl, inVerf⟩
    · exact .inl inCred
    · exact .inr ⟨_, rest, ⟨cred, rfl, rfl⟩, inVerf⟩

theorem mem_decodeReplyBody_copies :
    copied ∈ (decodeReplyBody out).copies bytes ↔
      ∃ behind,
        bytes = beWord msgAccepted ++ behind ∧
          copied ∈ (xdrDecodeOpaqueAuth .replyVerf out.accepted.verf).copies behind := by
  simp only [decodeReplyBody, mem_bind_copies, mem_word_copies, false_or, word_result_iff]
  constructor
  · rintro ⟨replyStat, behind, rfl, isCopy⟩
    split_ifs at isCopy with accepted
    · subst accepted
      rw [mem_bind_copies] at isCopy
      rcases isCopy with inVerf | ⟨verf, rest, -, isCopy⟩
      · exact ⟨behind, rfl, inVerf⟩
      · simp only [mem_bind_copies, mem_word_copies, false_or] at isCopy
        obtain ⟨stat, last, -, isCopy⟩ := isCopy
        split_ifs at isCopy <;>
          simp only [mem_bind_copies, mem_word_copies, mem_pure_copies,
            and_false, exists_false, or_false] at isCopy
    · simp only [mem_bind_copies, mem_word_copies, false_or] at isCopy
      obtain ⟨rejectStat, last, -, isCopy⟩ := isCopy
      split_ifs at isCopy <;>
        simp only [mem_bind_copies, mem_word_copies, mem_pure_copies, and_false,
          exists_false, or_false] at isCopy
  · rintro ⟨behind, rfl, inVerf⟩
    refine ⟨msgAccepted, behind, rfl, ?_⟩
    rw [if_pos rfl, mem_bind_copies]
    exact .inl inVerf

/-- The copies by where they lie in the datagram. -/
inductive CopyOf (buf : List UInt8) : CopyTarget × List UInt8 → Prop where
  | cred
      {xid prog vers proc : UInt32} {cred : AuthLayout} {rest : List UInt8}
      (isCut : buf = callHeader xid prog vers proc ++ (cred.bytes ++ rest))
      (hasBody : cred.bodyLen ≠ 0) :
      CopyOf buf (.cred, cred.copied)
  | verf
      {xid prog vers proc : UInt32} {cred verf : AuthLayout}
      {rest : List UInt8}
      (isCut : buf = callHeader xid prog vers proc ++ (cred.bytes ++ (verf.bytes ++ rest)))
      (hasBody : verf.bodyLen ≠ 0) :
      CopyOf buf (.verf, verf.copied)
  | replyVerf
      {xid : UInt32} {verf : AuthLayout} {rest : List UInt8}
      (isCut : buf = acceptedHeader xid ++ (verf.bytes ++ rest))
      (hasBody : verf.bodyLen ≠ 0) :
      CopyOf buf (.replyVerf, verf.copied)
  | payload
      {msg : MsgLayout} (isCut : buf = msg.bytes)
      (nonempty : msg.payload ≠ []) :
      CopyOf buf (.payload, msg.payload)

theorem copyOf_call {xid : UInt32} {behind : List UInt8}
    (isCopy : copied ∈ (decodeCallBody out).copies behind) :
    CopyOf (beWord xid ++ (beWord msgCall ++ behind)) copied := by
  obtain ⟨prog, vers, proc, rest, rfl, inAuth⟩ := mem_decodeCallBody_copies.mp isCopy
  obtain ⟨target, chunk⟩ := copied
  rcases inAuth with inCred | ⟨cred, last, rfl, inVerf⟩
  · obtain ⟨rfl, layout, hasBody, rfl, last, rfl⟩ := mem_xdrDecodeOpaqueAuth_copies.mp inCred
    exact .cred (callHeader_append _ _ _ _ _).symm hasBody
  · obtain ⟨rfl, layout, hasBody, rfl, last, rfl⟩ := mem_xdrDecodeOpaqueAuth_copies.mp inVerf
    exact .verf (callHeader_append _ _ _ _ _).symm hasBody

theorem copyOf_reply {xid : UInt32} {behind : List UInt8}
    (isCopy : copied ∈ (decodeReplyBody out).copies behind) :
    CopyOf (beWord xid ++ (beWord msgReply ++ behind)) copied := by
  obtain ⟨rest, rfl, inVerf⟩ := mem_decodeReplyBody_copies.mp isCopy
  obtain ⟨target, chunk⟩ := copied
  obtain ⟨rfl, layout, hasBody, rfl, last, rfl⟩ := mem_xdrDecodeOpaqueAuth_copies.mp inVerf
  exact .replyVerf (acceptedHeader_append _ _).symm hasBody

theorem copyOf_of_mem {buf : List UInt8} (isCopy : copied ∈ rpcDecodeCopies out buf) :
    CopyOf buf copied := by
  simp only [rpcDecodeCopies, decodeMsg, mem_bind_copies,
    mem_word_copies, false_or, word_result_iff] at isCopy
  obtain ⟨xid, _, rfl, mtype, behind, rfl, isCopy⟩ := isCopy
  split_ifs at isCopy with isCall isReply
  · subst isCall
    rw [mem_bind_copies] at isCopy
    rcases isCopy with inBody | ⟨_, rest, isRead, inPayload⟩
    · exact copyOf_call inBody
    · obtain ⟨call, rfl, rfl⟩ := decodeCallBody_result.mp isRead
      obtain ⟨nonempty, short, rfl⟩ := mem_decodePayload_copies.mp inPayload
      have isMessage :
          beWord xid ++ (beWord msgCall ++ (call.bytes ++ rest)) =
            (MsgLayout.mk xid (.call call) rest short).bytes := by
        simp only [MsgLayout.bytes, BodyLayout.bytes, List.append_assoc]
      exact .payload isMessage nonempty
  · subst isReply
    rw [mem_bind_copies] at isCopy
    rcases isCopy with inBody | ⟨_, rest, isRead, inPayload⟩
    · exact copyOf_reply inBody
    · obtain ⟨reply, rfl, rfl⟩ := decodeReplyBody_result.mp isRead
      obtain ⟨nonempty, short, rfl⟩ := mem_decodePayload_copies.mp inPayload
      have isMessage :
          beWord xid ++ (beWord msgReply ++ (reply.bytes ++ rest)) =
            (MsgLayout.mk xid (.reply reply) rest short).bytes := by
        simp only [MsgLayout.bytes, BodyLayout.bytes, List.append_assoc]
      exact .payload isMessage nonempty
  · exact (mem_fail_copies.mp isCopy).elim

/-- What the body of a call copies is copied, whether or not the rest of the
datagram can be decoded. -/
theorem mem_copies_of_call {xid : UInt32} {behind : List UInt8}
    (isCopy : ∀ before : RpcMsgT, copied ∈ (decodeCallBody before).copies behind) :
    copied ∈ rpcDecodeCopies out (beWord xid ++ (beWord msgCall ++ behind)) := by
  simp only [rpcDecodeCopies, decodeMsg, mem_bind_copies,
    mem_word_copies, false_or, word_result_iff]
  refine ⟨xid, _, rfl, msgCall, behind, rfl, ?_⟩
  rw [if_pos rfl, mem_bind_copies]
  exact .inl (isCopy _)

theorem mem_copies_of_reply {xid : UInt32} {behind : List UInt8}
    (isCopy : ∀ before : RpcMsgT, copied ∈ (decodeReplyBody before).copies behind) :
    copied ∈ rpcDecodeCopies out (beWord xid ++ (beWord msgReply ++ behind)) := by
  simp only [rpcDecodeCopies, decodeMsg, mem_bind_copies,
    mem_word_copies, false_or, word_result_iff]
  refine ⟨xid, _, rfl, msgReply, behind, rfl, ?_⟩
  rw [if_neg (by decide), if_pos rfl, mem_bind_copies]
  exact .inl (isCopy _)

/-- Wherever a datagram can be cut into a header and auth fields, the word
behind the length of the field is at most the size of a body. -/
structure AuthsFit (buf : List UInt8) : Prop where
  cred :
    ∀ xid prog vers proc (cred : AuthLayout) (rest : List UInt8),
      buf = callHeader xid prog vers proc ++ (cred.bytes ++ rest) →
        cred.copied.length ≤ opaqueAuthBodyMax
  verf :
    ∀ xid prog vers proc (cred verf : AuthLayout) (rest : List UInt8),
      buf = callHeader xid prog vers proc ++ (cred.bytes ++ (verf.bytes ++ rest)) →
        verf.copied.length ≤ opaqueAuthBodyMax
  replyVerf :
    ∀ xid (verf : AuthLayout) (rest : List UInt8),
      buf = acceptedHeader xid ++ (verf.bytes ++ rest) → verf.copied.length ≤ opaqueAuthBodyMax

theorem AuthLayout.hasBody_of_overlong {layout : AuthLayout}
    (overlong : ¬ layout.copied.length ≤ opaqueAuthBodyMax) :
    layout.bodyLen ≠ 0 := by
  intro isEmpty
  rw [layout.empty isEmpty] at overlong
  exact overlong (Nat.zero_le _)

/-- All copies stay in their arrays for the datagrams whose auth fields fit, and
for no other. -/
theorem decode_copies_bounded_iff (out : RpcMsgT) (buf : List UInt8) :
    (∀ copied ∈ rpcDecodeCopies out buf, copied.2.length ≤ copied.1.capacity) ↔ AuthsFit buf := by
  constructor
  · intro bounded
    constructor
    · rintro xid prog vers proc cred rest rfl
      by_contra overlong
      have hasBody := AuthLayout.hasBody_of_overlong overlong
      rw [callHeader_append] at bounded
      apply overlong
      apply bounded (.cred, cred.copied)
      apply mem_copies_of_call
      intro before
      rw [mem_decodeCallBody_copies]
      refine ⟨prog, vers, proc, _, rfl, .inl ?_⟩
      rw [mem_xdrDecodeOpaqueAuth_copies]
      exact ⟨rfl, cred, hasBody, rfl, rest, rfl⟩
    · rintro xid prog vers proc cred verf rest rfl
      by_contra overlong
      have hasBody := AuthLayout.hasBody_of_overlong overlong
      rw [callHeader_append] at bounded
      apply overlong
      apply bounded (.verf, verf.copied)
      apply mem_copies_of_call
      intro before
      rw [mem_decodeCallBody_copies]
      refine ⟨prog, vers, proc, _, rfl, .inr ⟨cred, _, rfl, ?_⟩⟩
      rw [mem_xdrDecodeOpaqueAuth_copies]
      exact ⟨rfl, verf, hasBody, rfl, rest, rfl⟩
    · rintro xid verf rest rfl
      by_contra overlong
      have hasBody := AuthLayout.hasBody_of_overlong overlong
      rw [acceptedHeader_append] at bounded
      apply overlong
      apply bounded (.replyVerf, verf.copied)
      apply mem_copies_of_reply
      intro before
      rw [mem_decodeReplyBody_copies]
      refine ⟨_, rfl, ?_⟩
      rw [mem_xdrDecodeOpaqueAuth_copies]
      exact ⟨rfl, verf, hasBody, rfl, rest, rfl⟩
  · intro fit copied isCopy
    cases copyOf_of_mem isCopy with
    | cred isCut hasBody => exact fit.cred _ _ _ _ _ _ isCut
    | verf isCut hasBody => exact fit.verf _ _ _ _ _ _ _ isCut
    | replyVerf isCut hasBody => exact fit.replyVerf _ _ _ isCut
    | @payload msg isCut nonempty => exact msg.short

/-- A message of a caller that holds zeros. -/
def blankMsg : RpcMsgT where
  xid := 0
  mtype := 0
  call := ⟨0, 0, 0, 0, ⟨0, 0, []⟩, ⟨0, 0, []⟩⟩
  replyStat := 0
  accepted := ⟨⟨0, 0, []⟩, 0, ⟨0, 0⟩⟩
  rejected := ⟨0, ⟨0, 0⟩, 0⟩
  payload := []
  payloadLen := 0

/-- A call whose credential has a body of one byte by the first length, and of
500 by the second. -/
def longCredDatagram : List UInt8 :=
  callHeader 1 inferenceProg inferenceVers 0 ++ (beWords [authNone, 1, 500] ++ List.replicate 500 0)

theorem longCredDatagram_overruns :
    longCredDatagram.length ≤ rpcPayloadMax + 256 ∧
      (.cred, List.replicate 500 0) ∈ rpcDecodeCopies blankMsg longCredDatagram ∧
      CopyTarget.capacity .cred < 500 := by
  decide +kernel

end Copies

end LlmRuntime.RpcWire
