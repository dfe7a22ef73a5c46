import LlmRuntime.Rpc.Layout

/-!
# The message grammar of RFC 5531

The messages of section 9 of the standard with their encoding, and the datagrams
on which `rpc_decode_msg` does what the standard says.
-/

namespace LlmRuntime.RpcWire

open Bytes Xdr

/-- `opaque_auth`. -/
structure RfcAuth where
  flavor : UInt32
  body : List UInt8
  short : body.length ≤ opaqueAuthBodyMax

def RfcAuth.encode (auth : RfcAuth) : List UInt8 := beWord auth.flavor ++ opaqueField auth.body

/-- The `reply_data` of an accepted reply. -/
inductive RfcReplyData where
  | success
  | progUnavail
  | progMismatch (low high : UInt32)
  | procUnavail
  | garbageArgs
  | systemErr

namespace RfcReplyData

def stat : RfcReplyData → UInt32
  | .success => 0
  | .progUnavail => 1
  | .progMismatch _ _ => 2
  | .procUnavail => 3
  | .garbageArgs => 4
  | .systemErr => 5

def encode (data : RfcReplyData) : List UInt8 :=
  beWord data.stat ++
    match data with
    | .progMismatch low high => beWords [low, high]
    | _ => []

end RfcReplyData

/-- A `rejected_reply`. -/
inductive RfcRejected where
  | rpcMismatch (low high : UInt32)
  | authError (authStat : UInt32)

def RfcRejected.encode : RfcRejected → List UInt8
  | .rpcMismatch low high => beWords [0, low, high]
  | .authError authStat => beWords [1, authStat]

inductive RfcBody where
  | call (prog vers proc : UInt32) (cred verf : RfcAuth)
  | accepted (verf : RfcAuth) (data : RfcReplyData)
  | denied (rejected : RfcRejected)

namespace RfcBody

def encode : RfcBody → List UInt8
  | .call prog vers proc cred verf =>
    beWords [0, 2, prog, vers, proc] ++ (cred.encode ++ verf.encode)
  | .accepted verf data => beWords [1, 0] ++ (verf.encode ++ data.encode)
  | .denied rejected => beWords [1, 1] ++ rejected.encode

def auths : RfcBody → List RfcAuth
  | .call _ _ _ cred verf => [cred, verf]
  | .accepted verf _ => [verf]
  | .denied _ => []

end RfcBody

/-- A message with the parameters or results that follow it. -/
structure RfcMessage where
  xid : UInt32
  body : RfcBody
  payload : List UInt8
  short : payload.length ≤ rpcPayloadMax

namespace RfcMessage

def encode (msg : RfcMessage) : List UInt8 := beWord msg.xid ++ (msg.body.encode ++ msg.payload)

/-- No auth field has a body. -/
def Authless (msg : RfcMessage) : Prop := ∀ auth ∈ msg.body.auths, auth.body = []

end RfcMessage

/-- The field of `rpc_msg_t` holds the auth field. -/
structure RfcAuth.ReadAs (auth : RfcAuth) (field : OpaqueAuth) : Prop where
  flavor : field.flavor = auth.flavor
  bodyLen : field.bodyLen.toNat = auth.body.length
  body : field.body.take auth.body.length = auth.body

def RfcReplyData.ReadAs (data : RfcReplyData) (field : AcceptedReply) : Prop :=
  field.stat = data.stat ∧
    match data with
    | .progMismatch low high => field.mismatch = ⟨low, high⟩
    | _ => True

def RfcRejected.ReadAs (field : RejectedReply) : RfcRejected → Prop
  | .rpcMismatch low high => field.stat = rejectRpcMismatch ∧ field.mismatch = ⟨low, high⟩
  | .authError authStat => field.stat = rejectAuthError ∧ field.authStat = authStat

def RfcBody.ReadAs (decoded : RpcMsgT) : RfcBody → Prop
  | .call prog vers proc cred verf =>
    decoded.mtype = msgCall ∧ decoded.call.rpcvers = rpcVersion ∧
      decoded.call.prog = prog ∧ decoded.call.vers = vers ∧
      decoded.call.proc = proc ∧ cred.ReadAs decoded.call.cred ∧
      verf.ReadAs decoded.call.verf
  | .accepted verf data =>
    decoded.mtype = msgReply ∧ decoded.replyStat = msgAccepted ∧
      verf.ReadAs decoded.accepted.verf ∧ data.ReadAs decoded.accepted
  | .denied rejected =>
    decoded.mtype = msgReply ∧ decoded.replyStat = msgDenied ∧ rejected.ReadAs decoded.rejected

/-- `rpc_msg_t` holds the message. -/
structure RfcMessage.ReadAs (msg : RfcMessage) (decoded : RpcMsgT) : Prop where
  xid : decoded.xid = msg.xid
  body : msg.body.ReadAs decoded
  payload : decoded.HasPayload msg.payload

def ReplyLayout.Strict : ReplyLayout → Prop
  | .accepted verf stat _ => verf.bodyLen = 0 ∧ stat ≤ 5
  | .progMismatch verf _ _ => verf.bodyLen = 0
  | .rpcMismatch replyStat _ _ _ => replyStat = msgDenied
  | .authError replyStat _ rejectStat _ _ => replyStat = msgDenied ∧ rejectStat = rejectAuthError

/-- A layout that the grammar has as well: no auth field has a body, and the
enumerated words of a reply are values of their enumerations. -/
def MsgLayout.Strict (msg : MsgLayout) : Prop :=
  match msg.body with
  | .call body => body.cred.bodyLen = 0 ∧ body.verf.bodyLen = 0
  | .reply body => body.Strict

/-- The same, of the decoded message. -/
structure RpcMsgT.Strict (decoded : RpcMsgT) : Prop where
  call : decoded.mtype = msgCall → decoded.call.cred.bodyLen = 0 ∧ decoded.call.verf.bodyLen = 0
  accepted :
    decoded.mtype = msgReply → decoded.replyStat = msgAccepted →
      decoded.accepted.verf.bodyLen = 0 ∧ decoded.accepted.stat ≤ 5
  denied :
    decoded.mtype = msgReply → decoded.replyStat ≠ msgAccepted →
      decoded.replyStat = msgDenied ∧
        (decoded.rejected.stat = rejectRpcMismatch ∨ decoded.rejected.stat = rejectAuthError)

theorem fill_strict_iff (msg : MsgLayout) (before : RpcMsgT) :
    (msg.fill before).Strict ↔ msg.Strict := by
  have different : msgReply ≠ msgCall := by decide
  obtain ⟨xid, body, payload, short⟩ := msg
  cases body with
  | call body =>
    constructor
    · intro strict
      exact strict.call rfl
    · intro strict
      exact ⟨fun _ => strict, fun isReply => (different isReply.symm).elim,
        fun isReply => (different isReply.symm).elim⟩
  | reply body =>
    cases body with
    | accepted verf stat plain =>
      constructor
      · intro strict
        exact strict.accepted rfl rfl
      · intro strict
        exact ⟨fun isCall => (different isCall).elim,
          fun _ _ => strict, fun _ denied => (denied rfl).elim⟩
    | progMismatch verf low high =>
      constructor
      · intro strict
        exact (strict.accepted rfl rfl).1
      · intro strict
        exact ⟨fun isCall => (different isCall).elim,
          fun _ _ => ⟨strict, (by decide : acceptProgMismatch ≤ 5)⟩,
          fun _ denied => (denied rfl).elim⟩
    | rpcMismatch replyStat denied low high =>
      constructor
      · intro strict
        exact (strict.denied rfl denied).1
      · intro strict
        exact ⟨fun isCall => (different isCall).elim,
          fun _ accepted => (denied accepted).elim,
          fun _ _ => ⟨strict, .inl rfl⟩⟩
    | authError replyStat denied rejectStat other authStat =>
      constructor
      · intro strict
        obtain ⟨isDenied, isError⟩ := strict.denied rfl denied
        exact ⟨isDenied, isError.resolve_left other⟩
      · intro strict
        exact ⟨fun isCall => (different isCall).elim,
          fun _ accepted => (denied accepted).elim,
          fun _ _ => ⟨strict.1, .inr strict.2⟩⟩

theorem MsgLayout.Strict.of_bytes {msg other : MsgLayout} (strict : msg.Strict)
    (same : msg.bytes = other.bytes) : other.Strict := by
  have decoded : rpcDecodeMsg blankMsg other.bytes = .ok (msg.fill blankMsg) :=
    rpcDecodeMsg_ok_iff.mpr ⟨msg, same, rfl⟩
  have otherDecoded : rpcDecodeMsg blankMsg other.bytes = .ok (other.fill blankMsg) :=
    rpcDecodeMsg_ok_iff.mpr ⟨other, rfl, rfl⟩
  rw [decoded] at otherDecoded
  rw [← fill_strict_iff other blankMsg, ← Except.ok.inj otherDecoded, fill_strict_iff]
  exact strict

theorem RfcAuth.encode_of_empty {auth : RfcAuth} (isEmpty : auth.body = []) :
    (emptyLayout auth.flavor).bytes = auth.encode := by
  rw [RfcAuth.encode, isEmpty, opaqueField_nil, AuthLayout.bytes_of_empty rfl]
  rfl

theorem RfcAuth.readAs_of_empty {auth : RfcAuth} (isEmpty : auth.body = []) (before : OpaqueAuth) :
    auth.ReadAs ((emptyLayout auth.flavor).fill before) := by
  constructor
  · rfl
  · rw [isEmpty]
    rfl
  · rw [isEmpty]
    rfl

theorem emptyLayout_bytes {auth : AuthLayout} (isEmpty : auth.bodyLen = 0) :
    (RfcAuth.mk auth.flavor [] (Nat.zero_le _)).encode = auth.bytes := by
  rw [AuthLayout.bytes_of_empty isEmpty, RfcAuth.encode, opaqueField_nil]

def acceptedLayout (flavor : UInt32) : RfcReplyData → ReplyLayout
  | .success => .accepted (emptyLayout flavor) 0 (by decide)
  | .progUnavail => .accepted (emptyLayout flavor) 1 (by decide)
  | .progMismatch low high => .progMismatch (emptyLayout flavor) low high
  | .procUnavail => .accepted (emptyLayout flavor) 3 (by decide)
  | .garbageArgs => .accepted (emptyLayout flavor) 4 (by decide)
  | .systemErr => .accepted (emptyLayout flavor) 5 (by decide)

theorem RfcMessage.Authless.layout {msg : RfcMessage} (authless : msg.Authless) :
    ∃ layout : MsgLayout,
      layout.bytes = msg.encode ∧ layout.Strict ∧ ∀ before, msg.ReadAs (layout.fill before) := by
  obtain ⟨xid, body, payload, short⟩ := msg
  cases body with
  | call prog vers proc cred verf =>
    have credEmpty : cred.body = [] := authless cred (List.mem_cons_self ..)
    have verfEmpty : verf.body = [] :=
      authless verf (List.mem_cons_of_mem _ (List.mem_cons_self ..))
    refine ⟨⟨xid, .call ⟨prog, vers, proc, emptyLayout cred.flavor,
          emptyLayout verf.flavor⟩,
      payload, short⟩, ?_, ⟨rfl, rfl⟩, ?_⟩
    · simp only [MsgLayout.bytes, BodyLayout.bytes, CallLayout.bytes,
        CallLayout.header, RfcMessage.encode, RfcBody.encode,
        RfcAuth.encode_of_empty credEmpty, RfcAuth.encode_of_empty verfEmpty,
        beWords_cons, beWords_nil, List.append_nil, List.append_assoc]
      rfl
    · intro before
      refine ⟨rfl, ⟨rfl, rfl, rfl, rfl, rfl,
        RfcAuth.readAs_of_empty credEmpty _,
        RfcAuth.readAs_of_empty verfEmpty _⟩,
        hasPayload_overwritten short rfl rfl⟩
  | accepted verf data =>
    have verfEmpty : verf.body = [] := authless verf (List.mem_cons_self ..)
    refine ⟨⟨xid, .reply (acceptedLayout verf.flavor data), payload, short⟩, ?_, ?_, ?_⟩
    · cases data <;>
        simp only [MsgLayout.bytes, BodyLayout.bytes, acceptedLayout, ReplyLayout.bytes,
          RfcMessage.encode, RfcBody.encode, RfcReplyData.encode, RfcReplyData.stat,
          RfcAuth.encode_of_empty verfEmpty, beWords_cons, beWords_nil, List.append_nil,
          List.append_assoc] <;>
        rfl
    · cases data <;> first | exact ⟨rfl, by decide⟩ | exact rfl
    · intro before
      have isVerf : verf.ReadAs _ := RfcAuth.readAs_of_empty verfEmpty before.accepted.verf
      have isPayload :
          (MsgLayout.fill
            ⟨xid, .reply (acceptedLayout verf.flavor data), payload,
              short⟩ before).HasPayload payload :=
        hasPayload_overwritten short rfl rfl
      cases data <;>
        exact ⟨by rfl, ⟨rfl, rfl, isVerf, rfl, by trivial⟩, isPayload⟩
  | denied rejected =>
    cases rejected with
    | rpcMismatch low high =>
      refine ⟨⟨xid, .reply (.rpcMismatch msgDenied (by decide) low high),
        payload, short⟩, ?_, rfl, ?_⟩
      · simp only [MsgLayout.bytes, BodyLayout.bytes, ReplyLayout.bytes,
          RfcMessage.encode, RfcBody.encode, RfcRejected.encode,
          beWords_cons, beWords_nil, List.append_nil, List.append_assoc]
        rfl
      · intro before
        exact ⟨rfl, ⟨rfl, rfl, rfl, rfl⟩, hasPayload_overwritten short rfl rfl⟩
    | authError authStat =>
      refine ⟨⟨xid, .reply
          (.authError msgDenied (by decide) rejectAuthError (by decide) authStat),
        payload, short⟩, ?_, ⟨rfl, rfl⟩, ?_⟩
      · simp only [MsgLayout.bytes, BodyLayout.bytes, ReplyLayout.bytes,
          RfcMessage.encode, RfcBody.encode, RfcRejected.encode,
          beWords_cons, beWords_nil, List.append_nil, List.append_assoc]
        rfl
      · intro before
        exact ⟨rfl, ⟨rfl, rfl, rfl, rfl⟩, hasPayload_overwritten short rfl rfl⟩

theorem listed_stat {stat : UInt32} (listed : stat ≤ 5) (plain : stat ≠ acceptProgMismatch) :
    ∃ data : RfcReplyData, data.encode = beWord stat := by
  have cases : stat = 0 ∨ stat = 1 ∨ stat = 3 ∨ stat = 4 ∨ stat = 5 := by
    simp only [ne_eq, UInt32.le_iff_toNat_le, ← UInt32.toNat_inj] at *
    change stat.toNat ≤ 5 at listed
    change ¬ stat.toNat = 2 at plain
    change stat.toNat = 0 ∨ stat.toNat = 1 ∨ stat.toNat = 3 ∨ stat.toNat = 4 ∨ stat.toNat = 5
    omega
  rcases cases with rfl | rfl | rfl | rfl | rfl
  · exact ⟨.success, List.append_nil _⟩
  · exact ⟨.progUnavail, List.append_nil _⟩
  · exact ⟨.procUnavail, List.append_nil _⟩
  · exact ⟨.garbageArgs, List.append_nil _⟩
  · exact ⟨.systemErr, List.append_nil _⟩

theorem MsgLayout.Strict.message {layout : MsgLayout} (strict : layout.Strict) :
    ∃ msg : RfcMessage, msg.encode = layout.bytes := by
  obtain ⟨xid, body, payload, short⟩ := layout
  cases body with
  | call body =>
    obtain ⟨prog, vers, proc, cred, verf⟩ := body
    refine ⟨⟨xid, .call prog vers proc ⟨cred.flavor, [], Nat.zero_le _⟩
        ⟨verf.flavor, [], Nat.zero_le _⟩,
      payload, short⟩, ?_⟩
    simp only [RfcMessage.encode, RfcBody.encode, emptyLayout_bytes strict.1,
      emptyLayout_bytes strict.2, MsgLayout.bytes, BodyLayout.bytes, CallLayout.bytes,
      CallLayout.header, beWords_cons, beWords_nil, List.append_nil, List.append_assoc]
    rfl
  | reply body =>
    cases body with
    | accepted verf stat plain =>
      obtain ⟨data, isData⟩ := listed_stat strict.2 plain
      refine ⟨⟨xid, .accepted ⟨verf.flavor, [], Nat.zero_le _⟩ data, payload, short⟩, ?_⟩
      simp only [RfcMessage.encode, RfcBody.encode, emptyLayout_bytes strict.1,
        isData, MsgLayout.bytes, BodyLayout.bytes, ReplyLayout.bytes,
        beWords_cons, beWords_nil, List.append_nil, List.append_assoc]
      rfl
    | progMismatch verf low high =>
      refine ⟨⟨xid, .accepted ⟨verf.flavor, [], Nat.zero_le _⟩
          (.progMismatch low high),
        payload, short⟩, ?_⟩
      simp only [RfcMessage.encode, RfcBody.encode, RfcReplyData.encode, RfcReplyData.stat,
        emptyLayout_bytes strict, MsgLayout.bytes, BodyLayout.bytes, ReplyLayout.bytes,
        beWords_cons, beWords_nil, List.append_nil, List.append_assoc]
      rfl
    | rpcMismatch replyStat denied low high =>
      refine ⟨⟨xid, .denied (.rpcMismatch low high), payload, short⟩, ?_⟩
      have isDenied : replyStat = msgDenied := strict
      simp only [RfcMessage.encode, RfcBody.encode, RfcRejected.encode,
        MsgLayout.bytes, BodyLayout.bytes, ReplyLayout.bytes, isDenied,
        beWords_cons, beWords_nil, List.append_nil, List.append_assoc]
      rfl
    | authError replyStat denied rejectStat other authStat =>
      refine ⟨⟨xid, .denied (.authError authStat), payload, short⟩, ?_⟩
      obtain ⟨isDenied, isError⟩ := strict
      simp only [RfcMessage.encode, RfcBody.encode, RfcRejected.encode,
        MsgLayout.bytes, BodyLayout.bytes, ReplyLayout.bytes, isDenied, isError,
        beWords_cons, beWords_nil, List.append_nil, List.append_assoc]
      rfl

/-! ## Messages with auth bodies -/

/-- An array that differs everywhere from the body of the auth field. -/
def RfcAuth.spoiled (auth : RfcAuth) : OpaqueAuth :=
  ⟨0, 0, auth.body.map (· + 1)⟩

theorem AuthLayout.bytes_length (auth : AuthLayout) :
    auth.bytes.length = 8 + if auth.bodyLen = 0 then 0 else 4 + auth.copied.length := by
  simp only [AuthLayout.bytes, List.length_append, beWord_length]
  split_ifs
  · rfl
  · simp only [List.length_append, beWord_length]
    omega

theorem RfcAuth.encode_length (auth : RfcAuth) :
    auth.encode.length = 8 + auth.body.length + padding auth.body.length := by
  simp only [RfcAuth.encode, List.length_append, beWord_length, opaqueField_length]
  omega

/-- A body that is there after the field was read must have been copied, so the
decoder has taken more bytes than the field has. -/
theorem RfcAuth.ReadAs.longer {auth : RfcAuth} {layout : AuthLayout}
    (readAs : auth.ReadAs (layout.fill auth.spoiled)) :
    auth.encode.length ≤ layout.bytes.length ∧
      (auth.body ≠ [] → auth.encode.length < layout.bytes.length) := by
  have isLength : layout.bodyLen.toNat = auth.body.length := readAs.bodyLen
  rw [RfcAuth.encode_length, AuthLayout.bytes_length]
  by_cases isEmpty : auth.body = []
  · refine ⟨?_, fun hasBody => (hasBody isEmpty).elim⟩
    rw [isEmpty]
    exact Nat.le_add_right 8 _
  · have positive : 0 < auth.body.length := List.length_pos_iff.mpr isEmpty
    have hasBody : layout.bodyLen ≠ 0 := by
      rintro none
      rw [none] at isLength
      exact positive.ne isLength
    have allCopied : auth.body.length ≤ layout.copied.length := by
      by_contra few
      rw [not_le] at few
      have stale :
          (overwritten (auth.body.map (· + 1)) layout.copied).take
              auth.body.length =
            auth.body :=
        readAs.body
      have here := congrArg (fun bytes => bytes[layout.copied.length]?) stale
      simp only [overwritten, List.getElem?_take_of_lt few,
        List.getElem?_append_right (Nat.le_refl _), Nat.sub_self, List.getElem?_drop, Nat.add_zero,
        List.getElem?_map, List.getElem?_eq_getElem few, Option.map_some, Option.some.injEq] at here
      exact absurd (left_eq_add.mp here.symm) (by decide)
    have small := padding_lt auth.body.length
    rw [if_neg hasBody]
    refine ⟨by omega, fun _ => by omega⟩

/-- A message of a caller with arrays that differ from the bodies of `msg`. -/
def RfcMessage.spoiled (msg : RfcMessage) : RpcMsgT :=
  match msg.body with
  | .call _ _ _ cred verf =>
    { blankMsg with
      call := ⟨0, 0, 0, 0, cred.spoiled, verf.spoiled⟩ }
  | .accepted verf _ => { blankMsg with accepted := ⟨verf.spoiled, 0, ⟨0, 0⟩⟩ }
  | .denied _ => blankMsg

theorem fill_payload_length {layout : MsgLayout} {before : RpcMsgT} {payload : List UInt8}
    (isPayload : (layout.fill before).HasPayload payload) :
    layout.payload.length = payload.length := by
  have small : layout.payload.length < 2 ^ 32 := Nat.lt_of_le_of_lt layout.short (by decide)
  have isLength : (UInt32.ofNat layout.payload.length).toNat = payload.length := isPayload.1
  rw [UInt32.toNat_ofNat', Nat.mod_eq_of_lt small] at isLength
  exact isLength

theorem RfcReplyData.encode_length (data : RfcReplyData) :
    data.encode.length =
      if data.stat = acceptProgMismatch then 12 else 4 := by
  cases data <;> rfl

/-- The bytes that the decoder takes behind the verifier of an accepted reply
are those of the reply data. -/
theorem accepted_tail_length {data : RfcReplyData} {body : ReplyLayout}
    {before : RpcMsgT} (accepted : (body.fill before).replyStat = msgAccepted)
    (isStat : (body.fill before).accepted.stat = data.stat) :
    ∃ verf : AuthLayout,
      (body.fill before).accepted.verf = verf.fill before.accepted.verf ∧
        body.bytes.length = 4 + (verf.bytes.length + data.encode.length) := by
  cases body with
  | accepted verf stat plain =>
    refine ⟨verf, rfl, ?_⟩
    have same : stat = data.stat := isStat
    rw [RfcReplyData.encode_length, if_neg (same ▸ plain)]
    simp only [ReplyLayout.bytes, List.length_append, beWord_length]
  | progMismatch verf low high =>
    refine ⟨verf, rfl, ?_⟩
    have same : acceptProgMismatch = data.stat := isStat
    rw [RfcReplyData.encode_length, if_pos same.symm]
    simp only [ReplyLayout.bytes, List.length_append, beWord_length,
      beWords_length, List.length_cons, List.length_nil]
  | rpcMismatch replyStat denied low high => exact (denied accepted).elim
  | authError replyStat denied rejectStat other authStat => exact (denied accepted).elim

/-- Only messages without auth bodies come out right whatever the arrays held
before. -/
theorem RfcMessage.ReadAs.authless {msg : RfcMessage} {layout : MsgLayout}
    (isBytes : layout.bytes = msg.encode)
    (readAs : msg.ReadAs (layout.fill msg.spoiled)) : msg.Authless := by
  have different : msgReply ≠ msgCall := by decide
  have samePayload := fill_payload_length readAs.payload
  have sameLength := congrArg List.length isBytes
  have isBody := readAs.body
  obtain ⟨xid, body, payload, short⟩ := msg
  obtain ⟨layoutXid, layoutBody, layoutPayload, layoutShort⟩ := layout
  cases body with
  | call prog vers proc cred verf =>
    cases layoutBody with
    | call layoutBody =>
      obtain ⟨-, -, -, -, -, credRead, verfRead⟩ := isBody
      have credLonger := RfcAuth.ReadAs.longer credRead
      have verfLonger := RfcAuth.ReadAs.longer verfRead
      simp only [MsgLayout.bytes, BodyLayout.bytes, CallLayout.bytes, CallLayout.header,
        RfcMessage.encode, RfcBody.encode, List.length_append, beWords_length, beWord_length,
        List.length_cons, List.length_nil] at sameLength samePayload
      intro auth isAuth
      by_contra hasBody
      rcases List.mem_pair.mp isAuth with rfl | rfl
      · have longer := credLonger.2 hasBody
        omega
      · have longer := verfLonger.2 hasBody
        omega
    | reply layoutBody => cases layoutBody <;> exact (different isBody.1).elim
  | accepted verf data =>
    cases layoutBody with
    | call layoutBody => exact (different isBody.1.symm).elim
    | reply layoutBody =>
      obtain ⟨-, isAccepted, verfRead, isStat, -⟩ := isBody
      obtain ⟨verfLayout, isVerf, isLength⟩ := accepted_tail_length isAccepted isStat
      have verfLonger : verf.encode.length ≤ _ ∧ _ := RfcAuth.ReadAs.longer (isVerf ▸ verfRead)
      simp only [MsgLayout.bytes, BodyLayout.bytes, isLength, RfcMessage.encode,
        RfcBody.encode, List.length_append, beWords_length, beWord_length,
        List.length_cons, List.length_nil] at sameLength samePayload
      intro auth isAuth
      by_contra hasBody
      rw [List.mem_singleton.mp isAuth] at hasBody
      have longer := verfLonger.2 hasBody
      omega
  | denied rejected =>
    intro auth isAuth
    cases isAuth

/-- `rpc_decode_msg` does with the datagram what the grammar says: it returns
the message that the datagram encodes, or `RPC_ERR_DECODE` when there is
none. -/
def DecodedByGrammar (buf : List UInt8) : Prop :=
  ∀ before : RpcMsgT,
    (∀ msg : RfcMessage, msg.encode = buf →
      ∃ decoded, rpcDecodeMsg before buf = .ok decoded ∧ msg.ReadAs decoded) ∧
      ((¬ ∃ msg : RfcMessage, msg.encode = buf) → rpcDecodeMsg before buf = .error .decode)

/-- The decoder follows the grammar on the datagrams that encode no message
with an auth body and are laid out in no other way that it would accept. -/
theorem decoded_by_grammar_iff (buf : List UInt8) :
    DecodedByGrammar buf ↔
      (∀ msg : RfcMessage, msg.encode = buf → msg.Authless) ∧
        ∀ layout : MsgLayout, layout.bytes = buf → layout.Strict := by
  constructor
  · intro byGrammar
    have authless (msg : RfcMessage) (isEncoding : msg.encode = buf) : msg.Authless := by
      obtain ⟨decoded, isDecoded, readAs⟩ := (byGrammar msg.spoiled).1 msg isEncoding
      obtain ⟨layout, isBytes, rfl⟩ := rpcDecodeMsg_ok_iff.mp isDecoded
      exact readAs.authless (isBytes.trans isEncoding.symm)
    refine ⟨authless, ?_⟩
    intro layout isBytes
    have accepted : rpcDecodeMsg blankMsg buf = .ok (layout.fill blankMsg) :=
      rpcDecodeMsg_ok_iff.mpr ⟨layout, isBytes, rfl⟩
    by_cases encodes : ∃ msg : RfcMessage, msg.encode = buf
    · obtain ⟨msg, isEncoding⟩ := encodes
      obtain ⟨other, isOther, strict, -⟩ := (authless msg isEncoding).layout
      exact strict.of_bytes (isOther.trans (isEncoding.trans isBytes.symm))
    · have rejected := (byGrammar blankMsg).2 encodes
      rw [accepted] at rejected
      cases rejected
  · rintro ⟨authless, strict⟩ before
    constructor
    · intro msg isEncoding
      obtain ⟨layout, isBytes, -, readAs⟩ := (authless msg isEncoding).layout
      exact ⟨layout.fill before,
        rpcDecodeMsg_ok_iff.mpr ⟨layout, isBytes.trans isEncoding, rfl⟩,
        readAs before⟩
    · intro encodesNone
      apply rpcDecodeMsg_error_iff.mpr
      rintro ⟨layout, isBytes⟩
      obtain ⟨msg, isEncoding⟩ := (strict layout isBytes).message
      exact encodesNone ⟨msg, isEncoding.trans isBytes⟩

def oneByteCred : RfcMessage where
  xid := 1
  body := .call inferenceProg inferenceVers 0 ⟨1, [7], by decide⟩ ⟨authNone, [], by decide⟩
  payload := []
  short := by decide

/-- The seven and its padding are taken for a length, and a `reply_stat` of nine
for `MSG_DENIED`. -/
theorem decoder_leaves_grammar :
    rpcDecodeMsg blankMsg oneByteCred.encode = .error .decode ∧
      rpcDecodeMsg blankMsg (beWords [1, msgReply, 9, rejectAuthError, 0]) =
        .ok
          { blankMsg with
            xid := 1
            mtype := msgReply
            replyStat := 9
            rejected := ⟨rejectAuthError, ⟨0, 0⟩, 0⟩ } :=
  ⟨rfl, rfl⟩

end LlmRuntime.RpcWire
