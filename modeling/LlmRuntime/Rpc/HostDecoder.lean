import LlmRuntime.Rpc.Layout

/-!
# The host's decoder

`rpc_proto.py` decodes the datagrams of the nodes by offsets, and is meant to
mirror `rpc_decode_msg`.
-/

namespace LlmRuntime.RpcProto

open Bytes Xdr Xdr.Decoder LlmRuntime.RpcWire

/-- The fields of the dictionary that depend on the kind of message. -/
inductive Fields where
  | call (rpcvers prog vers proc : UInt32)
  | accepted (acceptStat : UInt32)
  | denied (replyStat rejectStat : UInt32)
  deriving DecidableEq, Repr

/-- The dictionary that `decode` returns. -/
structure Decoded where
  xid : UInt32
  mtype : UInt32
  fields : Fields
  payload : List UInt8
  deriving DecidableEq, Repr

/-- `_skip_opaque_auth`; `none` is the exception of `struct.unpack_from`. -/
def skipOpaqueAuth (buf : List UInt8) (off : Nat) : Option Nat :=
  if buf.length < off + 8 then none
  else
    let bodyLen := (wordAt buf (off + 4)).toNat
    if bodyLen ≠ 0 then some (off + 8 + (bodyLen + 3) / 4 * 4)
    else some (off + 8)

/-- `decode`; `none` is an exception, of its own or of
`struct.unpack_from`. -/
def decode (buf : List UInt8) : Option Decoded :=
  if buf.length < 8 then none
  else
    let xid := wordAt buf 0
    let mtype := wordAt buf 4
    if mtype = msgCall then
      if buf.length < 24 then none
      else do
        let off ← skipOpaqueAuth buf 24
        let off ← skipOpaqueAuth buf off
        some ⟨xid, mtype, .call (wordAt buf 8) (wordAt buf 12) (wordAt buf 16)
            (wordAt buf 20), buf.drop off⟩
    else if mtype = msgReply then
      if buf.length < 12 then none
      else
        let replyStat := wordAt buf 8
        if replyStat = msgAccepted then do
          let off ← skipOpaqueAuth buf 12
          if buf.length < off + 4 then none
          else
            let acceptStat := wordAt buf off
            let off := off + 4
            let off := if acceptStat = acceptProgMismatch then off + 8 else off
            some ⟨xid, mtype, .accepted acceptStat, buf.drop off⟩
        else if buf.length < 16 then none
        else some ⟨xid, mtype, .denied replyStat (wordAt buf 12), buf.drop (16 + 8)⟩
    else none

/-- The dictionary says what the message says. -/
def Reports (msg : RpcMsgT) (host : Decoded) : Prop :=
  host.xid = msg.xid ∧ host.mtype = msg.mtype ∧
    host.payload = msg.payload.take msg.payloadLen.toNat ∧
    match host.fields with
    | .call _ prog vers proc => prog = msg.call.prog ∧ vers = msg.call.vers ∧ proc = msg.call.proc
    | .accepted acceptStat => msg.replyStat = msgAccepted ∧ acceptStat = msg.accepted.stat
    | .denied replyStat rejectStat => replyStat = msg.replyStat ∧ rejectStat = msg.rejected.stat

/-- The host decodes the datagram if and only if the guest does, and then both
report the same. -/
def Agree (out : RpcMsgT) (buf : List UInt8) : Prop :=
  ((decode buf).isSome ↔ (rpcDecodeMsg out buf).isOk) ∧
    ∀ msg host, rpcDecodeMsg out buf = .ok msg → decode buf = some host → Reports msg host

section Auth

variable (buf : List UInt8) (off : Nat)

/-- The guest reads an `opaque_auth` at the offset. -/
def AuthHolds : Prop :=
  off + 8 ≤ buf.length ∧
    (wordAt buf (off + 4) = 0 ∨
      (wordAt buf (off + 4)).toNat ≤ opaqueAuthBodyMax ∧
        off + 12 + (wordAt buf (off + 8)).toNat ≤ buf.length)

instance : Decidable (AuthHolds buf off) := inferInstanceAs (Decidable (_ ∧ _))

def guestEnd : Nat :=
  if wordAt buf (off + 4) = 0 then off + 8
  else off + 12 + (wordAt buf (off + 8)).toNat

def hostEnd : Nat := off + 8 + ((wordAt buf (off + 4)).toNat + 3) / 4 * 4

theorem skipOpaqueAuth_eq :
    skipOpaqueAuth buf off =
      if off + 8 ≤ buf.length then some (hostEnd buf off) else none := by
  rw [skipOpaqueAuth, hostEnd]
  by_cases fits : off + 8 ≤ buf.length
  · rw [if_pos fits, if_neg (by omega)]
    dsimp only
    split_ifs with body
    · rfl
    · rw [not_not] at body
      rw [body]
  · rw [if_neg fits, if_pos (by omega)]

variable {buf off}

theorem AuthHolds.end_le (holds : AuthHolds buf off) :
    off + 8 ≤ guestEnd buf off ∧ guestEnd buf off ≤ buf.length := by
  obtain ⟨fits, body⟩ := holds
  rw [guestEnd]
  split_ifs with empty
  · omega
  · rcases body with isEmpty | ⟨-, inside⟩
    · exact absurd isEmpty empty
    · omega

theorem xdrDecodeOpaqueAuth_drop (target : CopyTarget) (auth : OpaqueAuth)
    (buf : List UInt8) (off : Nat) :
    (AuthHolds buf off ∧
        ∃ after,
          (xdrDecodeOpaqueAuth target auth).result (buf.drop off) =
            some (after, buf.drop (guestEnd buf off))) ∨
      (¬ AuthHolds buf off ∧ (xdrDecodeOpaqueAuth target auth).result (buf.drop off) = none) := by
  rw [xdrDecodeOpaqueAuth, bind_result, word_result_drop]
  by_cases fits : off + 8 ≤ buf.length
  rotate_left
  · right
    refine ⟨fun holds => fits holds.1, ?_⟩
    split_ifs
    · rw [Option.bind_some, bind_result, word_result_drop, if_neg fits]
      rfl
    · rfl
  rw [if_pos (by omega), Option.bind_some, bind_result, word_result_drop,
    if_pos fits, Option.bind_some]
  dsimp only
  by_cases overlong : (wordAt buf (off + 4)).toNat > opaqueAuthBodyMax
  · right
    rw [if_pos overlong]
    refine ⟨?_, rfl⟩
    rintro ⟨-, empty | ⟨short, -⟩⟩
    · rw [empty] at overlong
      exact absurd overlong (by decide)
    · omega
  rw [if_neg overlong, guestEnd]
  by_cases empty : wordAt buf (off + 4) = 0
  · left
    rw [if_neg (mt word_pos_iff.mp (not_not.mpr empty)), if_pos empty]
    exact ⟨⟨fits, .inl empty⟩, _, rfl⟩
  rw [if_pos (word_pos_iff.mpr empty), if_neg empty, bind_result, word_result_drop]
  by_cases inside : off + 12 + (wordAt buf (off + 8)).toNat ≤ buf.length
  · left
    have second : off + 12 ≤ buf.length := by omega
    rw [if_pos second, Option.bind_some, bind_result, block_result_drop _ _ second]
    dsimp only
    rw [if_pos inside]
    exact ⟨⟨fits, .inr ⟨not_lt.mp overlong, inside⟩⟩, _, rfl⟩
  · right
    constructor
    · rintro ⟨-, isEmpty | ⟨-, isInside⟩⟩
      · exact empty isEmpty
      · exact inside isInside
    · split_ifs with second
      · rw [Option.bind_some, bind_result, block_result_drop _ _ second]
        dsimp only
        rw [if_neg inside]
        rfl
      · rfl

end Auth

section Guest

variable {out : RpcMsgT} {buf : List UInt8}

theorem decodePayload_of_short (out : RpcMsgT) {bytes : List UInt8}
    (short : bytes.length ≤ rpcPayloadMax) :
    (decodePayload out).result bytes =
      some
        ({ out with
            payload := overwritten out.payload bytes
            payloadLen := UInt32.ofNat bytes.length }, []) :=
  decodePayload_result.mpr ⟨short, rfl, rfl⟩

theorem decodePayload_of_long (out : RpcMsgT) {bytes : List UInt8}
    (long : ¬ bytes.length ≤ rpcPayloadMax) :
    (decodePayload out).result bytes = none := by
  cases outcome : (decodePayload out).result bytes with
  | none => rfl
  | some read => exact absurd (decodePayload_result.mp outcome).1 long

theorem overwritten_take (array : List UInt8) {bytes : List UInt8}
    (short : bytes.length ≤ rpcPayloadMax) :
    (overwritten array bytes).take (UInt32.ofNat bytes.length).toNat = bytes := by
  have isLength : (UInt32.ofNat bytes.length).toNat = bytes.length := by
    rw [rpcPayloadMax] at short
    rw [UInt32.toNat_ofNat']
    omega
  rw [isLength, overwritten, List.take_left]

theorem rpcDecodeMsg_short (short : buf.length < 8) : rpcDecodeMsg out buf = .error .decode := by
  have none : (decodeMsg out).result (buf.drop 0) = none := by
    rw [decodeMsg, bind_result, word_result_drop]
    split_ifs with first
    · rw [Option.bind_some, bind_result, word_result_drop, if_neg (by omega)]
      rfl
    · rfl
  rw [List.drop_zero] at none
  rw [rpcDecodeMsg, none]

/-- The message once its header is read. -/
def headed (out : RpcMsgT) (buf : List UInt8) : RpcMsgT :=
  { out with xid := wordAt buf 0, mtype := wordAt buf 4 }

/-- A datagram with a header goes by its type. -/
theorem decodeMsg_header (out : RpcMsgT) (long : ¬ buf.length < 8) :
    (decodeMsg out).result buf =
      if wordAt buf 4 = msgCall then
        ((decodeCallBody (headed out buf)).result (buf.drop 8)).bind
          fun read => (decodePayload read.1).result read.2
      else if wordAt buf 4 = msgReply then
        ((decodeReplyBody (headed out buf)).result (buf.drop 8)).bind
          fun read => (decodePayload read.1).result read.2
      else none := by
  have first := word_result_drop (D := CopyTarget) buf 0
  rw [if_pos (by omega), List.drop_zero] at first
  have second := word_result_drop (D := CopyTarget) buf 4
  rw [if_pos (by omega)] at second
  rw [decodeMsg, bind_result, first, Option.bind_some, bind_result, second,
    Option.bind_some, headed]
  dsimp only
  split_ifs
  · rfl
  · rfl
  · rfl

section Words

variable {α : Type} {next : UInt32 → Decoder CopyTarget α} {off : Nat}

theorem word_bind_some (fits : off + 4 ≤ buf.length) :
    (word >>= next).result (buf.drop off) =
      (next (wordAt buf off)).result (buf.drop (off + 4)) := by
  rw [bind_result, word_result_drop, if_pos fits, Option.bind_some]

theorem word_bind_none (short : ¬ off + 4 ≤ buf.length) :
    (word >>= next).result (buf.drop off) = none := by
  rw [bind_result, word_result_drop, if_neg short, Option.bind_none]

theorem words_bind_none {next : UInt32 → UInt32 → Decoder CopyTarget α}
    (short : ¬ off + 8 ≤ buf.length) :
    (word >>= fun low => word >>= next low).result (buf.drop off) = none := by
  by_cases low : off + 4 ≤ buf.length
  · rw [word_bind_some low, word_bind_none (by omega)]
  · exact word_bind_none low

end Words

theorem decodeCallBody_short (short : buf.length < 24) :
    (decodeCallBody out).result (buf.drop 8) = none := by
  cases outcome : (decodeCallBody out).result (buf.drop 8) with
  | none => rfl
  | some read =>
    obtain ⟨call, isBody, -⟩ := decodeCallBody_result.mp outcome
    have length := congrArg List.length isBody
    simp only [CallLayout.bytes, CallLayout.header, beWords, List.flatMap_cons, List.flatMap_nil,
      List.length_append, List.length_drop, beWord_length, List.length_nil] at length
    omega

theorem decodeCallBody_drop (out : RpcMsgT)
    (version : 12 ≤ buf.length → wordAt buf 8 = rpcVersion) :
    ((AuthHolds buf 24 ∧ AuthHolds buf (guestEnd buf 24)) ∧
        ∃ cred verf,
          (decodeCallBody out).result (buf.drop 8) =
            some
              ({ out with
                  call := ⟨wordAt buf 8, wordAt buf 12, wordAt buf 16, wordAt buf 20, cred, verf⟩ },
                buf.drop (guestEnd buf (guestEnd buf 24)))) ∨
      (¬ (AuthHolds buf 24 ∧ AuthHolds buf (guestEnd buf 24)) ∧
        (decodeCallBody out).result (buf.drop 8) = none) := by
  by_cases long : 24 ≤ buf.length
  rotate_left
  · refine .inr ⟨?_, decodeCallBody_short (not_le.mp long)⟩
    rintro ⟨⟨fits, -⟩, -⟩
    omega
  rw [decodeCallBody, word_bind_some (by omega), word_bind_some (by omega),
    word_bind_some (by omega), word_bind_some (by omega),
    if_neg (not_not.mpr (version (by omega))), bind_result]
  rcases xdrDecodeOpaqueAuth_drop .cred out.call.cred buf 24 with
    ⟨credHolds, cred, isCred⟩ | ⟨noCred, isNone⟩
  · rw [isCred, Option.bind_some, bind_result]
    dsimp only
    rcases xdrDecodeOpaqueAuth_drop .verf out.call.verf buf
        (guestEnd buf 24) with
      ⟨verfHolds, verf, isVerf⟩ | ⟨noVerf, isNone⟩
    · rw [isVerf]
      exact .inl ⟨⟨credHolds, verfHolds⟩, cred, verf, rfl⟩
    · rw [isNone]
      exact .inr ⟨fun both => noVerf both.2, rfl⟩
  · rw [isNone]
    exact .inr ⟨fun both => noCred both.1, rfl⟩

theorem decodeReplyBody_short (short : buf.length < 12) :
    (decodeReplyBody out).result (buf.drop 8) = none := by
  rw [decodeReplyBody, word_bind_none (by omega)]

/-- The guest reads an accepted reply. -/
def AcceptedHolds (buf : List UInt8) : Prop :=
  AuthHolds buf 12 ∧ guestEnd buf 12 + 4 ≤ buf.length ∧
    (wordAt buf (guestEnd buf 12) = acceptProgMismatch → guestEnd buf 12 + 12 ≤ buf.length)

def mismatchBytes (acceptStat : UInt32) : Nat :=
  if acceptStat = acceptProgMismatch then 8 else 0

theorem decodeReplyBody_accepted (out : RpcMsgT) (accepted : wordAt buf 8 = msgAccepted) :
    (AcceptedHolds buf ∧
        ∃ verf mismatch,
          (decodeReplyBody out).result (buf.drop 8) =
            some
              ({ out with
                  replyStat := msgAccepted
                  accepted := ⟨verf, wordAt buf (guestEnd buf 12), mismatch⟩ },
                buf.drop (guestEnd buf 12 + 4 + mismatchBytes (wordAt buf (guestEnd buf 12))))) ∨
      (¬ AcceptedHolds buf ∧ (decodeReplyBody out).result (buf.drop 8) = none) := by
  by_cases long : 12 ≤ buf.length
  rotate_left
  · refine .inr ⟨?_, decodeReplyBody_short (not_le.mp long)⟩
    rintro ⟨⟨fits, -⟩, -⟩
    omega
  rw [decodeReplyBody, word_bind_some (by omega), if_pos accepted, bind_result]
  rcases xdrDecodeOpaqueAuth_drop .replyVerf out.accepted.verf buf 12 with
    ⟨verfHolds, verf, isVerf⟩ | ⟨noVerf, isNone⟩
  rotate_left
  · rw [isNone]
    exact .inr ⟨fun holds => noVerf holds.1, rfl⟩
  rw [isVerf, Option.bind_some]
  dsimp only
  by_cases stat : guestEnd buf 12 + 4 ≤ buf.length
  rotate_left
  · exact .inr ⟨fun holds => stat holds.2.1, word_bind_none stat⟩
  rw [word_bind_some stat, mismatchBytes]
  by_cases mismatch : wordAt buf (guestEnd buf 12) = acceptProgMismatch
  rotate_left
  · rw [if_neg mismatch, if_neg mismatch, accepted]
    left
    exact ⟨⟨verfHolds, stat, fun isMismatch =>
      absurd isMismatch mismatch⟩, verf, _, rfl⟩
  rw [if_pos mismatch, if_pos mismatch]
  by_cases both : guestEnd buf 12 + 12 ≤ buf.length
  · left
    rw [word_bind_some (by omega), word_bind_some (by omega), accepted]
    exact ⟨⟨verfHolds, stat, fun _ => both⟩, verf, _, rfl⟩
  · exact .inr ⟨fun holds => both (holds.2.2 mismatch), words_bind_none (by omega)⟩

def deniedEnd (buf : List UInt8) : Nat :=
  if wordAt buf 12 = rejectRpcMismatch then 24 else 20

theorem decodeReplyBody_denied (out : RpcMsgT) (denied : wordAt buf 8 ≠ msgAccepted) :
    (deniedEnd buf ≤ buf.length ∧
        ∃ mismatch authStat,
          (decodeReplyBody out).result (buf.drop 8) =
            some
              ({ out with
                  replyStat := wordAt buf 8
                  rejected := ⟨wordAt buf 12, mismatch, authStat⟩ },
                buf.drop (deniedEnd buf))) ∨
      ((buf.length < 16 ∨ buf.length < deniedEnd buf) ∧
        (decodeReplyBody out).result (buf.drop 8) = none) := by
  by_cases long : 12 ≤ buf.length
  rotate_left
  · exact .inr ⟨.inl (by omega), decodeReplyBody_short (not_le.mp long)⟩
  rw [decodeReplyBody, word_bind_some (by omega), if_neg denied]
  by_cases stat : 16 ≤ buf.length
  rotate_left
  · exact .inr ⟨.inl (by omega), word_bind_none (by omega)⟩
  rw [word_bind_some (by omega), deniedEnd]
  by_cases mismatch : wordAt buf 12 = rejectRpcMismatch
  · rw [if_pos mismatch, if_pos mismatch]
    by_cases both : 24 ≤ buf.length
    · rw [word_bind_some (by omega), word_bind_some (by omega)]
      exact .inl ⟨both, _, _, rfl⟩
    · exact .inr ⟨.inr (by omega), words_bind_none (by omega)⟩
  · rw [if_neg mismatch, if_neg mismatch]
    by_cases authStat : 20 ≤ buf.length
    · rw [word_bind_some (by omega)]
      exact .inl ⟨authStat, _, _, rfl⟩
    · exact .inr ⟨.inr (by omega), word_bind_none (by omega)⟩

/-- A datagram whose header ends at `stop`, and its message. -/
theorem rpcDecodeMsg_of_result {body : RpcMsgT} {stop : Nat}
    (isBody : (decodeMsg out).result buf = (decodePayload body).result (buf.drop stop))
    (short : buf.length - stop ≤ rpcPayloadMax) :
    rpcDecodeMsg out buf =
      .ok
        { body with
          payload := overwritten body.payload (buf.drop stop)
          payloadLen := UInt32.ofNat (buf.drop stop).length } := by
  rw [← List.length_drop] at short
  rw [rpcDecodeMsg, isBody, decodePayload_of_short body short]

theorem rpcDecodeMsg_of_none (isNone : (decodeMsg out).result buf = none) :
    rpcDecodeMsg out buf = .error .decode := by
  rw [rpcDecodeMsg, isNone]

end Guest

/-! ## The host's reading by offsets -/

section Host

variable {buf : List UInt8}

theorem decode_call (isCall : wordAt buf 4 = msgCall) :
    decode buf =
      if 32 ≤ buf.length ∧ hostEnd buf 24 + 8 ≤ buf.length then
        some ⟨wordAt buf 0, wordAt buf 4,
          .call (wordAt buf 8) (wordAt buf 12) (wordAt buf 16)
            (wordAt buf 20), buf.drop (hostEnd buf (hostEnd buf 24))⟩
      else none := by
  by_cases cred : 24 + 8 ≤ buf.length
  · rw [decode, if_neg (by omega)]
    dsimp only
    rw [if_pos isCall, if_neg (by omega), skipOpaqueAuth_eq, if_pos cred]
    change (skipOpaqueAuth buf (hostEnd buf 24)).bind _ = _
    rw [skipOpaqueAuth_eq]
    by_cases verf : hostEnd buf 24 + 8 ≤ buf.length
    · rw [if_pos verf, if_pos ⟨cred, verf⟩]
      rfl
    · rw [if_neg verf, if_neg fun both => verf both.2]
      rfl
  · rw [if_neg fun both => cred both.1, decode]
    dsimp only
    rw [if_pos isCall, skipOpaqueAuth_eq, if_neg cred]
    split_ifs <;> rfl

theorem decode_reply (isReply : wordAt buf 4 = msgReply) :
    decode buf =
      if buf.length < 12 then none
      else if wordAt buf 8 = msgAccepted then do
        let off ← skipOpaqueAuth buf 12
        if buf.length < off + 4 then none
        else
          some ⟨wordAt buf 0, wordAt buf 4, .accepted (wordAt buf off),
            buf.drop (off + 4 + mismatchBytes (wordAt buf off))⟩
      else if buf.length < 16 then none
      else
        some ⟨wordAt buf 0, wordAt buf 4, .denied (wordAt buf 8) (wordAt buf 12), buf.drop 24⟩ := by
  have notCall : ¬ wordAt buf 4 = msgCall := by
    rw [isReply]
    decide
  rw [decode]
  dsimp only
  rw [if_neg notCall, if_pos isReply]
  by_cases header : buf.length < 8
  · rw [if_pos header, if_pos (by omega)]
  · rw [if_neg header]
    congr 4
    funext off
    congr 4
    rw [mismatchBytes]
    split_ifs
    · rfl
    · rfl

theorem decode_accepted (isReply : wordAt buf 4 = msgReply)
    (accepted : wordAt buf 8 = msgAccepted) :
    decode buf =
      if 20 ≤ buf.length ∧ hostEnd buf 12 + 4 ≤ buf.length then
        some ⟨wordAt buf 0, wordAt buf 4,
          .accepted (wordAt buf (hostEnd buf 12)),
          buf.drop (hostEnd buf 12 + 4 + mismatchBytes (wordAt buf (hostEnd buf 12)))⟩
      else none := by
  by_cases verf : 12 + 8 ≤ buf.length
  · rw [decode_reply isReply, if_pos accepted, skipOpaqueAuth_eq, if_neg (by omega), if_pos verf]
    change (if buf.length < hostEnd buf 12 + 4 then none else _) = _
    by_cases stat : hostEnd buf 12 + 4 ≤ buf.length
    · rw [if_neg (not_lt.mpr stat), if_pos ⟨verf, stat⟩]
    · rw [if_pos (not_le.mp stat), if_neg fun both => stat both.2]
  · rw [if_neg fun both => verf both.1, decode_reply isReply,
      if_pos accepted, skipOpaqueAuth_eq, if_neg verf]
    exact ite_self _

theorem decode_denied (isReply : wordAt buf 4 = msgReply) (denied : wordAt buf 8 ≠ msgAccepted) :
    decode buf =
      if 16 ≤ buf.length then
        some ⟨wordAt buf 0, wordAt buf 4, .denied (wordAt buf 8) (wordAt buf 12), buf.drop 24⟩
      else none := by
  rw [decode_reply isReply, if_neg denied]
  by_cases long : 16 ≤ buf.length
  · rw [if_neg (by omega), if_neg (by omega), if_pos long]
  · rw [if_pos (not_le.mp long), if_neg long]
    exact ite_self _

end Host

section Agreement

variable {out msg : RpcMsgT} {buf : List UInt8} {host : Decoded}

section Outcomes

variable {finds : Prop} [Decidable finds]

theorem agree_iff_of_ok (isHost : decode buf = if finds then some host else none)
    (guest : rpcDecodeMsg out buf = .ok msg) :
    Agree out buf ↔ finds ∧ Reports msg host := by
  rw [Agree, isHost, guest]
  by_cases found : finds <;> simp [found, Except.isOk, Except.toBool]

theorem agree_iff_of_error (isHost : decode buf = if finds then some host else none)
    (guest : rpcDecodeMsg out buf = .error .decode) :
    Agree out buf ↔ ¬ finds := by
  rw [Agree, isHost, guest]
  by_cases found : finds <;> simp [found, Except.isOk, Except.toBool]

end Outcomes

theorem agree_of_neither (hostFails : decode buf = none)
    (guestFails : rpcDecodeMsg out buf = .error .decode) :
    Agree out buf := by
  rw [Agree, hostFails, guestFails]
  simp [Except.isOk, Except.toBool]

theorem drop_eq_drop_iff {stop other : Nat} (inside : stop ≤ buf.length) :
    buf.drop other = buf.drop stop ↔ stop = min other buf.length := by
  constructor
  · intro same
    have lengths := congrArg List.length same
    rw [List.length_drop, List.length_drop] at lengths
    omega
  · intro isEnd
    by_cases fits : other ≤ buf.length
    · rw [isEnd, Nat.min_eq_left fits]
    · rw [isEnd, Nat.min_eq_right (by omega), List.drop_length]
      exact List.drop_of_length_le (by omega)

end Agreement

/-- The readings of a call: both decoders find its two auth fields, or neither
does, and the payload begins at the same place. -/
def CallMirrored (buf : List UInt8) : Prop :=
  (AuthHolds buf 24 ∧ AuthHolds buf (guestEnd buf 24) ↔
      32 ≤ buf.length ∧ hostEnd buf 24 + 8 ≤ buf.length) ∧
    (AuthHolds buf 24 ∧ AuthHolds buf (guestEnd buf 24) →
      guestEnd buf (guestEnd buf 24) = min (hostEnd buf (hostEnd buf 24)) buf.length)

/-- The readings of an accepted reply.  Unless the verifier ends at the same
place for both, they agree only on a mismatch without a payload in which both
take another word for the status. -/
def AcceptedMirrored (buf : List UInt8) : Prop :=
  (AcceptedHolds buf ↔ 20 ≤ buf.length ∧ hostEnd buf 12 + 4 ≤ buf.length) ∧
    (AcceptedHolds buf →
      guestEnd buf 12 = hostEnd buf 12 ∨
        guestEnd buf 12 < hostEnd buf 12 ∧
          buf.length = guestEnd buf 12 + 12 ∧
          wordAt buf (guestEnd buf 12) = acceptProgMismatch ∧
          wordAt buf (hostEnd buf 12) = acceptProgMismatch)

/-- The readings of a denied reply: a version mismatch with both its words, or
an authentication error with nothing behind its word. -/
def DeniedMirrored (buf : List UInt8) : Prop :=
  if wordAt buf 12 = rejectRpcMismatch then 24 ≤ buf.length
  else buf.length = 20

instance (buf : List UInt8) : Decidable (CallMirrored buf) := inferInstanceAs (Decidable (_ ∧ _))

instance (buf : List UInt8) : Decidable (AcceptedHolds buf) := inferInstanceAs (Decidable (_ ∧ _))

instance (buf : List UInt8) : Decidable (AcceptedMirrored buf) :=
  inferInstanceAs (Decidable (_ ∧ _))

instance (buf : List UInt8) : Decidable (DeniedMirrored buf) :=
  inferInstanceAs (Decidable (ite _ _ _))

/-- The datagrams that both decoders read alike. -/
def Mirrored (buf : List UInt8) : Prop :=
  if wordAt buf 4 = msgCall then 24 ≤ buf.length → CallMirrored buf
  else if wordAt buf 4 = msgReply then
    if wordAt buf 8 = msgAccepted then 12 ≤ buf.length → AcceptedMirrored buf
    else 16 ≤ buf.length → DeniedMirrored buf
  else True

instance (buf : List UInt8) : Decidable (Mirrored buf) := inferInstanceAs (Decidable (ite _ _ _))

/-- The auth fields are empty, a mismatch has both its words, and nothing is
behind another denial. -/
def Plain (buf : List UInt8) : Prop :=
  if wordAt buf 4 = msgCall then wordAt buf 28 = 0 ∧ wordAt buf 36 = 0
  else if wordAt buf 4 = msgReply then
    if wordAt buf 8 = msgAccepted then
      wordAt buf 16 = 0 ∧
        (24 ≤ buf.length → wordAt buf 20 = acceptProgMismatch → 32 ≤ buf.length)
    else 16 ≤ buf.length → DeniedMirrored buf
  else True

section Mirrored

variable {out : RpcMsgT} {buf : List UInt8}

theorem authHolds_of_empty {off : Nat} (empty : wordAt buf (off + 4) = 0) :
    (AuthHolds buf off ↔ off + 8 ≤ buf.length) ∧ guestEnd buf off = off + 8 ∧
      hostEnd buf off = off + 8 := by
  rw [AuthHolds, guestEnd, hostEnd, if_pos empty, empty]
  exact ⟨and_iff_left (.inl rfl), rfl, rfl⟩

theorem Plain.mirrored (plain : Plain buf) : Mirrored buf := by
  rw [Plain] at plain
  rw [Mirrored]
  split_ifs at plain ⊢ with isCall isReply accepted
  · obtain ⟨credHolds, credEnd, hostCred⟩ := @authHolds_of_empty buf 24 plain.1
    obtain ⟨verfHolds, verfEnd, hostVerf⟩ := @authHolds_of_empty buf 32 plain.2
    intro _
    rw [CallMirrored, credEnd, hostCred, credHolds, verfHolds, verfEnd, hostVerf]
    omega
  · obtain ⟨verfHolds, verfEnd, hostVerf⟩ := @authHolds_of_empty buf 12 plain.1
    intro _
    rw [AcceptedMirrored, AcceptedHolds, verfEnd, hostVerf, verfHolds]
    refine ⟨and_congr_right fun _ => and_iff_left_of_imp plain.2, fun _ => .inl rfl⟩
  · exact plain

theorem agree_call_iff (header : ¬ buf.length < 8) (short : buf.length ≤ rpcPayloadMax + 24)
    (isCall : wordAt buf 4 = msgCall) (version : 12 ≤ buf.length → wordAt buf 8 = rpcVersion) :
    Agree out buf ↔ CallMirrored buf := by
  have guest := decodeMsg_header out header
  rw [if_pos isCall] at guest
  rw [CallMirrored]
  rcases decodeCallBody_drop (headed out buf) version with
    ⟨holds, cred, verf, isBody⟩ | ⟨fails, isNone⟩
  · rw [isBody, Option.bind_some] at guest
    have firstEnds := holds.1.end_le
    have ends := holds.2.end_le
    have fits : buf.length - guestEnd buf (guestEnd buf 24) ≤ rpcPayloadMax := by omega
    rw [agree_iff_of_ok (decode_call isCall) (rpcDecodeMsg_of_result guest fits),
      iff_true_left holds, imp_iff_right holds, ← drop_eq_drop_iff ends.2, Reports]
    dsimp only
    rw [overwritten_take _ (by rwa [List.length_drop])]
    exact and_congr_right fun _ =>
      ⟨fun reports => reports.2.2.1, fun same => ⟨rfl, rfl, same, rfl, rfl, rfl⟩⟩
  · rw [isNone, Option.bind_none] at guest
    rw [agree_iff_of_error (decode_call isCall) (rpcDecodeMsg_of_none guest), iff_false_left fails]
    exact ⟨fun misses => ⟨misses, fun holds => absurd holds fails⟩, And.left⟩

theorem accepted_same_iff {guest host : Nat} (inside : guest + 4 ≤ buf.length)
    (mismatch : wordAt buf guest = acceptProgMismatch → guest + 12 ≤ buf.length)
    (hostInside : host + 4 ≤ buf.length) :
    (buf.drop (host + 4 + mismatchBytes (wordAt buf host)) =
          buf.drop (guest + 4 + mismatchBytes (wordAt buf guest)) ∧
        wordAt buf host = wordAt buf guest) ↔
      guest = host ∨
        guest < host ∧ buf.length = guest + 12 ∧
          wordAt buf guest = acceptProgMismatch ∧
          wordAt buf host = acceptProgMismatch := by
  have ends : guest + 4 + mismatchBytes (wordAt buf guest) ≤ buf.length := by
    rw [mismatchBytes]
    split_ifs with isMismatch
    · have := mismatch isMismatch
      omega
    · omega
  rw [drop_eq_drop_iff ends]
  constructor
  · rintro ⟨same, sameStat⟩
    rw [sameStat] at same ⊢
    by_cases isMismatch : wordAt buf guest = acceptProgMismatch
    · rw [mismatchBytes, if_pos isMismatch] at same
      by_cases sameEnd : guest = host
      · exact .inl sameEnd
      · exact .inr ⟨by omega, by omega, isMismatch, isMismatch⟩
    · rw [mismatchBytes, if_neg isMismatch] at same
      exact .inl (by omega)
  · rintro (sameEnd | ⟨later, isEnd, guestStat, hostStat⟩)
    · rw [← sameEnd]
      exact ⟨by omega, rfl⟩
    · rw [guestStat, hostStat, mismatchBytes, if_pos rfl]
      exact ⟨by omega, rfl⟩

theorem agree_accepted_iff (header : ¬ buf.length < 8) (short : buf.length ≤ rpcPayloadMax + 24)
    (isReply : wordAt buf 4 = msgReply) (accepted : wordAt buf 8 = msgAccepted) :
    Agree out buf ↔ AcceptedMirrored buf := by
  have guest := decodeMsg_header out header
  rw [if_neg (by rw [isReply]; decide), if_pos isReply] at guest
  rw [AcceptedMirrored]
  rcases decodeReplyBody_accepted (headed out buf) accepted with
    ⟨holds, verf, mismatch, isBody⟩ | ⟨fails, isNone⟩
  · rw [isBody, Option.bind_some] at guest
    have verfEnds := holds.1.end_le
    have fits :
        buf.length -
            (guestEnd buf 12 + 4 + mismatchBytes (wordAt buf (guestEnd buf 12))) ≤
          rpcPayloadMax := by
      omega
    rw [agree_iff_of_ok (decode_accepted isReply accepted) (rpcDecodeMsg_of_result guest fits),
      iff_true_left holds, imp_iff_right holds]
    refine and_congr_right fun finds => ?_
    rw [← accepted_same_iff holds.2.1 holds.2.2 finds.2, Reports]
    dsimp only
    rw [overwritten_take _ (by rwa [List.length_drop])]
    exact ⟨fun reports => ⟨reports.2.2.1, reports.2.2.2.2⟩,
      fun same => ⟨rfl, rfl, same.1, rfl, same.2⟩⟩
  · rw [isNone, Option.bind_none] at guest
    rw [agree_iff_of_error (decode_accepted isReply accepted)
        (rpcDecodeMsg_of_none guest), iff_false_left fails]
    exact ⟨fun misses => ⟨misses, fun holds => absurd holds fails⟩, And.left⟩

theorem agree_denied_iff (header : ¬ buf.length < 8) (short : buf.length ≤ rpcPayloadMax + 24)
    (isReply : wordAt buf 4 = msgReply) (denied : wordAt buf 8 ≠ msgAccepted) :
    Agree out buf ↔ (16 ≤ buf.length → DeniedMirrored buf) := by
  have guest := decodeMsg_header out header
  rw [if_neg (by rw [isReply]; decide), if_pos isReply] at guest
  have isHost := decode_denied isReply denied
  rw [DeniedMirrored]
  rcases decodeReplyBody_denied (headed out buf) denied with
    ⟨ends, mismatch, authStat, isBody⟩ | ⟨cut, isNone⟩
  · rw [isBody, Option.bind_some] at guest
    by_cases fits : buf.length - deniedEnd buf ≤ rpcPayloadMax
    · rw [agree_iff_of_ok isHost (rpcDecodeMsg_of_result guest fits), Reports]
      dsimp only
      rw [overwritten_take _ (by rwa [List.length_drop]), drop_eq_drop_iff ends]
      rw [deniedEnd] at ends ⊢
      split_ifs at ends ⊢ with isMismatch
      · exact iff_of_true ⟨by omega, rfl, rfl, by omega, rfl, rfl⟩ fun _ => ends
      · constructor
        · rintro ⟨-, -, -, isEnd, -⟩ -
          omega
        · intro isEnd
          exact ⟨by omega, rfl, rfl, by omega, rfl, rfl⟩
    · rw [← List.length_drop] at fits
      rw [decodePayload_of_long _ fits] at guest
      rw [agree_iff_of_error isHost (rpcDecodeMsg_of_none guest)]
      rw [List.length_drop, deniedEnd] at fits
      rw [rpcPayloadMax] at fits short
      split_ifs at fits ⊢ with isMismatch
      · omega
      · omega
  · rw [isNone, Option.bind_none] at guest
    rw [agree_iff_of_error isHost (rpcDecodeMsg_of_none guest)]
    rw [deniedEnd] at cut
    split_ifs at cut ⊢ with isMismatch
    · omega
    · omega

/-- Neither decoder knows a third type of message. -/
theorem agree_unknown (header : ¬ buf.length < 8) (notCall : ¬ wordAt buf 4 = msgCall)
    (notReply : ¬ wordAt buf 4 = msgReply) :
    Agree out buf := by
  have guest := decodeMsg_header out header
  rw [if_neg notCall, if_neg notReply] at guest
  refine agree_of_neither ?_ (rpcDecodeMsg_of_none guest)
  rw [decode, if_neg header]
  dsimp only
  rw [if_neg notCall, if_neg notReply]

theorem callMirrored_of_short (short : ¬ 24 ≤ buf.length) : CallMirrored buf := by
  have fails : ¬ AuthHolds buf 24 := by
    rintro ⟨fits, -⟩
    omega
  exact ⟨iff_of_false (fun both => fails both.1) (by omega), fun both => absurd both.1 fails⟩

theorem acceptedMirrored_of_short (short : ¬ 12 ≤ buf.length) : AcceptedMirrored buf := by
  have fails : ¬ AcceptedHolds buf := by
    rintro ⟨⟨fits, -⟩, -⟩
    omega
  exact ⟨iff_of_false fails (by omega), fun holds => absurd holds fails⟩

end Mirrored

/-- The guest's decoder and the host's agree on exactly the datagrams that
`Mirrored` describes, and so on all the plain ones. -/
theorem decode_mirrors_iff (out : RpcMsgT) (buf : List UInt8)
    (short : buf.length ≤ rpcPayloadMax + 24) (version : 12 ≤ buf.length → wordAt buf 4 = msgCall →
        wordAt buf 8 = rpcVersion) :
    (Agree out buf ↔ Mirrored buf) ∧ (Plain buf → Agree out buf) := by
  suffices exact : Agree out buf ↔ Mirrored buf from
    ⟨exact, fun plain => exact.mpr plain.mirrored⟩
  rw [Mirrored]
  by_cases header : buf.length < 8
  · have host : decode buf = none := by rw [decode, if_pos header]
    refine iff_of_true (agree_of_neither host (rpcDecodeMsg_short header)) ?_
    split_ifs <;> exact fun long => absurd long (by omega)
  by_cases isCall : wordAt buf 4 = msgCall
  · rw [if_pos isCall, Classical.imp_iff_right_iff.mpr
        (or_iff_not_imp_left.mpr callMirrored_of_short)]
    exact agree_call_iff header short isCall fun long => version long isCall
  rw [if_neg isCall]
  by_cases isReply : wordAt buf 4 = msgReply
  rotate_left
  · rw [if_neg isReply, iff_true]
    exact agree_unknown header isCall isReply
  rw [if_pos isReply]
  by_cases accepted : wordAt buf 8 = msgAccepted
  · rw [if_pos accepted, Classical.imp_iff_right_iff.mpr
        (or_iff_not_imp_left.mpr acceptedMirrored_of_short)]
    exact agree_accepted_iff header short isReply accepted
  · rw [if_neg accepted]
    exact agree_denied_iff header short isReply accepted

/-- A call with empty auth fields and no payload. -/
def plainCall : List UInt8 :=
  [0, 0, 0, 7, 0, 0, 0, 0, 0, 0, 0, 2, 0, 0, 0, 9, 0, 0, 0, 1, 0, 0, 0, 1,
    0, 0, 0, 0, 0, 0, 0, 0, 0, 0, 0, 0, 0, 0, 0, 0]

theorem plainCall_mirrors : Agree blankMsg plainCall :=
  (decode_mirrors_iff blankMsg plainCall (by decide) (fun _ _ => by decide)).1.mpr (by decide)

/-- A denied reply that ends behind `reject_stat`. -/
def cutDenial : List UInt8 := [0, 0, 0, 7, 0, 0, 0, 1, 0, 0, 0, 1, 0, 0, 0, 1]

/-- The host takes the denial that the guest refuses. -/
theorem cutDenial_disagrees :
    decode cutDenial = some ⟨7, 1, .denied 1 1, []⟩ ∧
      rpcDecodeMsg blankMsg cutDenial = .error .decode ∧
      ¬ Agree blankMsg cutDenial := by
  have host : decode cutDenial = some ⟨7, 1, .denied 1 1, []⟩ := by decide
  have guest : rpcDecodeMsg blankMsg cutDenial = .error .decode := by decide
  refine ⟨host, guest, ?_⟩
  rw [Agree, host, guest]
  simp [Except.isOk, Except.toBool]

end LlmRuntime.RpcProto
