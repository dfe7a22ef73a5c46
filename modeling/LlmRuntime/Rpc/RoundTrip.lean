import LlmRuntime.Rpc.Layout

/-!
# Encoding and decoding again

What is written is decoded to the message it was, except that the reply with
`PROG_MISMATCH` lacks the two words of its `mismatch_info`.
-/

namespace LlmRuntime.RpcWire

open Bytes Xdr

/-- `AUTH_NONE` as both encoders write it. -/
def noneLayout : AuthLayout := emptyLayout authNone

def encodedCall (msg : RpcMsgT) : List UInt8 :=
  callHeader msg.xid msg.call.prog msg.call.vers msg.call.proc ++
    (noneLayout.bytes ++ (noneLayout.bytes ++ msg.payload.take msg.payloadLen.toNat))

def encodedReply (xid stat : UInt32) (payload : List UInt8) : List UInt8 :=
  acceptedHeader xid ++
    (noneLayout.bytes ++ (beWord stat ++ if stat = acceptSuccess then payload else []))

section Encoders

variable {buflen : Nat}

theorem noneLayout_bytes : noneLayout.bytes = beWord authNone ++ beWord 0 := rfl

theorem xdrEncodeAuthNone_eq (written : List UInt8) :
    xdrEncodeAuthNone buflen written = put buflen noneLayout.bytes written :=
  put_bind_put buflen (beWord authNone) (beWord 0) written

theorem rpcEncodeCall_eq {msg : RpcMsgT} (isVersion : msg.call.rpcvers = rpcVersion)
    (short : msg.payloadLen.toNat ≤ rpcPayloadMax) :
    rpcEncodeCall buflen msg =
      if (encodedCall msg).length ≤ buflen then some (encodedCall msg)
      else none := by
  rw [rpcEncodeCall, if_neg (not_not_intro isVersion), if_neg (not_lt.mpr short), ← put_nil]
  by_cases hasPayload : msg.payloadLen > 0
  · simp only [bind, xdrEncodeAuthNone_eq, isVersion, if_pos hasPayload, put_bind_put]
    simp only [encodedCall, callHeader, beWords_cons, beWords_nil,
      List.append_nil, List.append_assoc]
  · have isEmpty : msg.payloadLen = 0 := not_not.mp (mt word_pos_iff.mpr hasPayload)
    simp only [bind, xdrEncodeAuthNone_eq, isVersion, if_neg hasPayload,
      Option.bind_fun_some, put_bind_put]
    simp only [encodedCall, callHeader, beWords_cons, beWords_nil, List.append_nil,
      List.append_assoc, isEmpty, UInt32.toNat_zero, List.take_zero]

theorem rpcEncodeReply_eq (xid stat : UInt32) {payload : List UInt8}
    (short : payload.length ≤ rpcPayloadMax) :
    rpcEncodeReply buflen xid stat payload =
      if (encodedReply xid stat payload).length ≤ buflen then some (encodedReply xid stat payload)
      else none := by
  rw [rpcEncodeReply, if_neg (not_lt.mpr short), ← put_nil]
  by_cases hasPayload : stat = acceptSuccess ∧ payload.length > 0
  · simp only [bind, xdrEncodeAuthNone_eq, if_pos hasPayload, put_bind_put]
    simp only [encodedReply, acceptedHeader, beWords_cons, beWords_nil,
      List.append_nil, List.append_assoc, if_pos hasPayload.1]
  · have isEmpty : (if stat = acceptSuccess then payload else []) = [] := by
      split_ifs with isSuccess
      · exact List.eq_nil_of_length_eq_zero
          (Nat.eq_zero_of_not_pos fun some => hasPayload ⟨isSuccess, some⟩)
      · rfl
    simp only [bind, xdrEncodeAuthNone_eq, if_neg hasPayload, Option.bind_fun_some, put_bind_put]
    simp only [encodedReply, acceptedHeader, beWords_cons, beWords_nil,
      List.append_nil, List.append_assoc, isEmpty]

end Encoders

def OpaqueAuth.IsNone (auth : OpaqueAuth) : Prop := auth.flavor = authNone ∧ auth.bodyLen = 0

/-- `decoded` is the call `msg`. -/
structure SameCall (msg decoded : RpcMsgT) : Prop where
  xid : decoded.xid = msg.xid
  mtype : decoded.mtype = msgCall
  rpcvers : decoded.call.rpcvers = rpcVersion
  prog : decoded.call.prog = msg.call.prog
  vers : decoded.call.vers = msg.call.vers
  proc : decoded.call.proc = msg.call.proc
  cred : decoded.call.cred.IsNone
  verf : decoded.call.verf.IsNone
  payload : decoded.HasPayload (msg.payload.take msg.payloadLen.toNat)

/-- `decoded` is the accepted reply to `xid` with `stat`. -/
structure SameReply (xid stat : UInt32) (payload : List UInt8) (decoded : RpcMsgT) : Prop where
  xid : decoded.xid = xid
  mtype : decoded.mtype = msgReply
  replyStat : decoded.replyStat = msgAccepted
  acceptStat : decoded.accepted.stat = stat
  verf : decoded.accepted.verf.IsNone
  payload : decoded.HasPayload (if stat = acceptSuccess then payload else [])

/-- The result of an encoder for a buffer of `buflen` bytes: no room for `size`
bytes, or bytes that are decoded to what `Same` describes. -/
def ComesBack (buflen size : Nat) (before : RpcMsgT) (Same : RpcMsgT → Prop)
    (encoded : Option (List UInt8)) : Prop :=
  encoded = none ∧ buflen < size ∨
    ∃ bytes decoded, encoded = some bytes ∧ rpcDecodeMsg before bytes = .ok decoded ∧ Same decoded

def callLayout (msg : RpcMsgT) (short : msg.payloadLen.toNat ≤ rpcPayloadMax) : MsgLayout where
  xid := msg.xid
  body := .call ⟨msg.call.prog, msg.call.vers, msg.call.proc, noneLayout, noneLayout⟩
  payload := msg.payload.take msg.payloadLen.toNat
  short := (List.length_take_le _ _).trans short

theorem callLayout_bytes (msg : RpcMsgT) (short : msg.payloadLen.toNat ≤ rpcPayloadMax) :
    (callLayout msg short).bytes = encodedCall msg := by
  simp only [callLayout, MsgLayout.bytes, BodyLayout.bytes, CallLayout.bytes, CallLayout.header,
    encodedCall, callHeader, beWords_cons, beWords_nil, List.append_nil, List.append_assoc]

theorem encodedCall_decodes (before : RpcMsgT) {msg : RpcMsgT}
    (short : msg.payloadLen.toNat ≤ rpcPayloadMax) :
    ∃ decoded, rpcDecodeMsg before (encodedCall msg) = .ok decoded ∧ SameCall msg decoded := by
  refine ⟨(callLayout msg short).fill before,
    rpcDecodeMsg_ok_iff.mpr ⟨_, callLayout_bytes msg short, rfl⟩, ?_⟩
  constructor
  · rfl
  · rfl
  · rfl
  · rfl
  · rfl
  · rfl
  · exact ⟨rfl, rfl⟩
  · exact ⟨rfl, rfl⟩
  · exact hasPayload_overwritten (callLayout msg short).short rfl rfl

def replyLayout (xid stat : UInt32) (plain : stat ≠ acceptProgMismatch)
    (payload : List UInt8) (short : payload.length ≤ rpcPayloadMax) :
    MsgLayout where
  xid := xid
  body := .reply (.accepted noneLayout stat plain)
  payload := if stat = acceptSuccess then payload else []
  short := by
    split_ifs
    · exact short
    · exact Nat.zero_le _

theorem replyLayout_bytes (xid : UInt32) {stat : UInt32} (plain : stat ≠ acceptProgMismatch)
    {payload : List UInt8} (short : payload.length ≤ rpcPayloadMax) :
    (replyLayout xid stat plain payload short).bytes = encodedReply xid stat payload := by
  simp only [replyLayout, MsgLayout.bytes, BodyLayout.bytes, ReplyLayout.bytes, encodedReply,
    acceptedHeader, beWords_cons, beWords_nil, List.append_nil, List.append_assoc]

theorem encodedReply_decodes (before : RpcMsgT) (xid : UInt32) {stat : UInt32}
    (plain : stat ≠ acceptProgMismatch) {payload : List UInt8}
    (short : payload.length ≤ rpcPayloadMax) :
    ∃ decoded,
      rpcDecodeMsg before (encodedReply xid stat payload) = .ok decoded ∧
        SameReply xid stat payload decoded := by
  refine ⟨(replyLayout xid stat plain payload short).fill before,
    rpcDecodeMsg_ok_iff.mpr ⟨_, replyLayout_bytes xid plain short, rfl⟩, ?_⟩
  constructor
  · rfl
  · rfl
  · rfl
  · rfl
  · exact ⟨rfl, rfl⟩
  · exact hasPayload_overwritten (replyLayout xid stat plain payload short).short rfl rfl

/-- The two words of `mismatch_info` are missing. -/
theorem encodedReply_progMismatch (before : RpcMsgT) (xid : UInt32) (payload : List UInt8) :
    rpcDecodeMsg before (encodedReply xid acceptProgMismatch payload) = .error .decode := rfl

theorem encodedCall_length {msg : RpcMsgT} (held : msg.payloadLen.toNat ≤ msg.payload.length) :
    (encodedCall msg).length = 40 + msg.payloadLen.toNat := by
  simp only [encodedCall, callHeader, noneLayout_bytes, List.length_append, beWords_length,
    beWord_length, List.length_take_of_le held, List.length_cons, List.length_nil]
  omega

theorem encodedReply_length (xid stat : UInt32) (payload : List UInt8) :
    (encodedReply xid stat payload).length =
      24 + if stat = acceptSuccess then payload.length else 0 := by
  simp only [encodedReply, acceptedHeader, noneLayout_bytes, List.length_append,
    beWords_length, beWord_length, List.length_cons, List.length_nil]
  split_ifs
  · omega
  · rfl

/-- Calls always come back; replies do unless they say `PROG_MISMATCH`. -/
theorem encoded_messages_come_back (before : RpcMsgT) (buflen : Nat) :
    (∀ msg : RpcMsgT, msg.call.rpcvers = rpcVersion → msg.payloadLen.toNat ≤ rpcPayloadMax →
      msg.payloadLen.toNat ≤ msg.payload.length →
        ComesBack buflen (40 + msg.payloadLen.toNat) before (SameCall msg)
          (rpcEncodeCall buflen msg)) ∧
      ∀ (xid stat : UInt32) (payload : List UInt8),
        payload.length ≤ rpcPayloadMax →
          (ComesBack buflen
              (24 + if stat = acceptSuccess then payload.length else 0)
              before (SameReply xid stat payload)
              (rpcEncodeReply buflen xid stat payload) ↔
            stat ≠ acceptProgMismatch ∨ buflen < 24) := by
  constructor
  · intro msg isVersion short held
    rw [rpcEncodeCall_eq isVersion short]
    by_cases fits : (encodedCall msg).length ≤ buflen
    · obtain ⟨decoded, isDecoded, same⟩ := encodedCall_decodes before short
      rw [if_pos fits]
      exact .inr ⟨_, decoded, rfl, isDecoded, same⟩
    · rw [if_neg fits]
      rw [encodedCall_length held] at fits
      exact .inl ⟨rfl, not_le.mp fits⟩
  · intro xid stat payload short
    rw [rpcEncodeReply_eq xid stat short]
    by_cases fits : (encodedReply xid stat payload).length ≤ buflen
    · rw [if_pos fits]
      rw [encodedReply_length] at fits
      constructor
      · rintro (⟨impossible, -⟩ | ⟨bytes, decoded, isBytes, isDecoded, -⟩)
        · cases impossible
        · left
          rintro rfl
          rw [← Option.some.inj isBytes, encodedReply_progMismatch] at isDecoded
          cases isDecoded
      · rintro (plain | tooShort)
        · obtain ⟨decoded, isDecoded, same⟩ := encodedReply_decodes before xid plain short
          exact .inr ⟨_, decoded, rfl, isDecoded, same⟩
        · omega
    · rw [if_neg fits]
      rw [encodedReply_length] at fits
      constructor
      · rintro -
        by_cases isMismatch : stat = acceptProgMismatch
        · rw [isMismatch, if_neg (by decide)] at fits
          exact .inr (by omega)
        · exact .inl isMismatch
      · rintro -
        exact .inl ⟨rfl, not_le.mp fits⟩

/-- A call with a payload of three bytes. -/
def pingCall : RpcMsgT :=
  { blankMsg with
    xid := 7
    call := ⟨rpcVersion, inferenceProg, inferenceVers, 0, ⟨0, 0, []⟩, ⟨0, 0, []⟩⟩
    payload := [1, 2, 3, 0]
    payloadLen := 3 }

theorem encoded_messages_come_back_ping :
    ComesBack 64 43 blankMsg (SameCall pingCall)
        (rpcEncodeCall 64 pingCall) ∧
      ComesBack 64 27 blankMsg (SameReply 7 acceptSuccess [4, 5, 6])
        (rpcEncodeReply 64 7 acceptSuccess [4, 5, 6]) :=
  ⟨(encoded_messages_come_back blankMsg 64).1 pingCall (by decide)
      (by decide) (by decide),
    ((encoded_messages_come_back blankMsg 64).2 7 acceptSuccess [4, 5, 6]
      (by decide)).mpr (by decide)⟩

theorem progMismatch_reply_lost :
    rpcEncodeReply (rpcPayloadMax + 256) 7 acceptProgMismatch [] =
        some (encodedReply 7 acceptProgMismatch []) ∧
      rpcDecodeMsg blankMsg (encodedReply 7 acceptProgMismatch []) = .error .decode :=
  ⟨by decide, rfl⟩

end LlmRuntime.RpcWire
