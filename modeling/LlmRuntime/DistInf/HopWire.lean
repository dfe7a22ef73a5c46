import LlmRuntime.DistInf.Shard
import LlmRuntime.Rpc.StrayTraffic

/-!
# An activation on the wire

Three limits meet here: the header check of the checkpoint puts none on `dim`,
`INFER_MAX_FLOATS` allows 1024 floats, and the payload has room for 1017.
-/

namespace LlmRuntime.DistInf

open Bytes RpcWire

/-- `infer_send_hop` up to `rpc_send_call`, on a message that has been zeroed.
There is no message when the stores leave its payload. -/
def inferSendHop (xid : UInt32) (hop : InferHop) (x : Activation) : Option RpcMsgT :=
  if inferHopHdrSize + hop.nFloats.toNat * 4 > rpcPayloadMax then none
  else
    some
      { filledCall xid procInferReq [] with
        payload :=
          overwritten (List.replicate rpcPayloadMax 0) (inferPayload hop (x.take hop.nFloats.toNat))
        payloadLen := 28 + hop.nFloats * 4 }

def txWireSize : Nat := rpcPayloadMax + 256

/-- The payload that a handler is given with a message. -/
def payloadBytes (msg : RpcMsgT) : List UInt8 := msg.payload.take msg.payloadLen.toNat

/-- The hop is sent, fits the payload, is encoded, decoded and read back as it
was, by a node of that dimension and session. -/
def HopTravels (before : RpcMsgT) (xid : UInt32) (cfg : Config) (hop : InferHop)
    (x : Activation) : Prop :=
  ∃ msg bytes decoded,
    inferSendHop xid hop x = some msg ∧
      msg.payloadLen.toNat ≤ rpcPayloadMax ∧
      rpcEncodeCall txWireSize msg = some bytes ∧
      rpcDecodeMsg before bytes = .ok decoded ∧
      inferDecodeHop (payloadBytes decoded) (UInt32.ofInt cfg.dim) hop.sessionId = some (hop, x)

/-- A payload that is accepted is the one that would be sent for what it is
decoded to. -/
def HopCanonical (xid : UInt32) : Prop :=
  ∀ payload dim session hop x,
    payload.length ≤ rpcPayloadMax →
    inferDecodeHop payload dim session = some (hop, x) →
      ∃ msg, inferSendHop xid hop x = some msg ∧ payloadBytes msg = payload

section Sending

variable {hop : InferHop} {x : Activation}

theorem inferPayload_length (hop : InferHop) (x : Activation) :
    (inferPayload hop x).length = inferHopHdrSize + x.length * 4 := by
  have seven : hop.words.length = 7 := rfl
  simp only [inferPayload, List.length_append, beWords_length, seven, inferHopHdrSize]
  omega

theorem hopPayloadLen_toNat (fits : inferHopHdrSize + hop.nFloats.toNat * 4 ≤ rpcPayloadMax) :
    (28 + hop.nFloats * 4).toNat = inferHopHdrSize + hop.nFloats.toNat * 4 := by
  have header : inferHopHdrSize = 28 := rfl
  have most : rpcPayloadMax = 4096 := rfl
  rw [header, most] at fits
  rw [header, UInt32.toNat_add, UInt32.toNat_mul]
  change (28 + hop.nFloats.toNat * 4 % 2 ^ 32) % 2 ^ 32 = _
  omega

theorem inferSendHop_some (xid : UInt32) (isLength : x.length = hop.nFloats.toNat)
    (fits : inferHopHdrSize + hop.nFloats.toNat * 4 ≤ rpcPayloadMax) :
    ∃ msg,
      inferSendHop xid hop x = some msg ∧
        msg.call.rpcvers = rpcVersion ∧
        msg.payloadLen.toNat = inferHopHdrSize + hop.nFloats.toNat * 4 ∧
        msg.payloadLen.toNat ≤ msg.payload.length ∧
        payloadBytes msg = inferPayload hop x := by
  have size : (inferPayload hop x).length = inferHopHdrSize + hop.nFloats.toNat * 4 := by
    rw [inferPayload_length, isLength]
  have whole : x.take hop.nFloats.toNat = x := by rw [← isLength, List.take_length]
  have isLen := hopPayloadLen_toNat fits
  refine ⟨_, if_neg (Nat.not_lt.mpr fits), rfl, isLen, ?_, ?_⟩
  · dsimp only
    rw [isLen, whole, overwritten, List.length_append, size]
    omega
  · rw [payloadBytes]
    dsimp only
    rw [isLen, whole, ← size, overwritten, List.take_left]

end Sending

theorem hopTravels_of_fits (before : RpcMsgT) (xid : UInt32) {cfg : Config} {hop : InferHop}
    {x : Activation} (positive : hop.nFloats ≠ 0) (isDim : UInt32.ofInt cfg.dim = hop.nFloats)
    (isLength : x.length = hop.nFloats.toNat)
    (fits : inferHopHdrSize + hop.nFloats.toNat * 4 ≤ rpcPayloadMax) :
    HopTravels before xid cfg hop x := by
  obtain ⟨msg, sent, isVersion, isLen, held, isPayload⟩ := inferSendHop_some xid isLength fits
  have short : msg.payloadLen.toNat ≤ rpcPayloadMax := isLen.trans_le fits
  obtain ⟨decoded, isDecoded, same⟩ := encodedCall_decodes before short
  have roomy : (encodedCall msg).length ≤ txWireSize := by
    have size := encodedCall_length held
    have wire : txWireSize = 4352 := rfl
    have most : rpcPayloadMax = 4096 := rfl
    omega
  have received : payloadBytes decoded = inferPayload hop x := by
    obtain ⟨sameLen, samePayload⟩ := same.payload
    have sentPayload : msg.payload.take msg.payloadLen.toNat = inferPayload hop x := isPayload
    rw [sentPayload] at sameLen samePayload
    rw [payloadBytes, sameLen, samePayload]
  have sized : WellSized hop x := by
    refine ⟨positive, ?_, isLength⟩
    have header : inferHopHdrSize = 28 := rfl
    have most : rpcPayloadMax = 4096 := rfl
    rw [header, most] at fits
    rw [UInt32.le_iff_toNat_le]
    change hop.nFloats.toNat ≤ 1024
    omega
  refine ⟨msg, encodedCall msg, decoded, sent, short, ?_, isDecoded, ?_⟩
  · rw [rpcEncodeCall_eq isVersion short, if_pos roomy]
  · have agrees :
        ¬ ((UInt32.ofInt cfg.dim > 0 ∧
            hop.nFloats ≠ UInt32.ofInt cfg.dim) ∨
          (hop.sessionId ≠ 0 ∧ hop.sessionId ≠ hop.sessionId)) := by
      rintro (⟨_, different⟩ | ⟨_, different⟩)
      · exact different isDim.symm
      · exact different rfl
    rw [received, inferDecodeHop_inferPayload sized, if_neg agrees]

theorem hopCanonical (xid : UInt32) : HopCanonical xid := by
  intro payload dim session hop x short decoded
  obtain ⟨sized, isPayload⟩ := inferDecodeHop_canonical decoded
  have fits : inferHopHdrSize + hop.nFloats.toNat * 4 ≤ rpcPayloadMax := by
    rw [← isPayload, inferPayload_length, sized.length] at short
    exact short
  obtain ⟨msg, sent, _, _, _, same⟩ := inferSendHop_some xid sized.length fits
  exact ⟨msg, sent, same.trans isPayload⟩

theorem ofInt_asInt (word : UInt32) : UInt32.ofInt (asInt word) = word := by
  have bound := word.toNat_lt
  have residue : (asInt word % 2 ^ 32).toNat = word.toNat := by
    unfold asInt Int.bmod
    dsimp only
    split_ifs <;> omega
  rw [UInt32.ofInt, residue, UInt32.ofNat_toNat]

/-- For a header that is accepted, a hop of its dimension travels exactly when
this is at most 1017; what is accepted is always what would be sent. -/
theorem hop_codec_exact_iff (before : RpcMsgT) (xid : UInt32) {cfg : Config}
    (accepted : cfg.isPlausible = true) {hop : InferHop} {x : Activation}
    (isDim : asInt hop.nFloats = cfg.dim) (isLength : x.length = hop.nFloats.toNat) :
    (HopTravels before xid cfg hop x ∧ HopCanonical xid) ↔ cfg.dim ≤ 1017 := by
  have positive : cfg.dim > 0 := by
    rw [Config.isPlausible, decide_eq_true_eq] at accepted
    exact accepted.1
  have isNat : cfg.dim = hop.nFloats.toNat := by
    rw [← isDim]
    exact asInt_of_nonneg (by omega)
  have header : inferHopHdrSize = 28 := rfl
  have most : rpcPayloadMax = 4096 := rfl
  constructor
  · rintro ⟨⟨msg, _, _, sent, _⟩, _⟩
    unfold inferSendHop at sent
    split_ifs at sent with overrun
    rw [header, most] at overrun
    omega
  · intro small
    refine ⟨hopTravels_of_fits before xid ?_ ?_ isLength ?_, hopCanonical xid⟩
    · intro isZero
      rw [isZero] at isNat
      rw [isNat] at positive
      exact absurd positive (by decide)
    · rw [← isDim, ofInt_asInt]
    · rw [header, most]
      omega

/-- A header of a one-layer model with eight heads. -/
def headerOfDim (dim : Int) : Config where
  dim := dim
  hiddenDim := 2048
  nLayers := 1
  nHeads := 8
  nKvHeads := 8
  vocabSize := 32000
  seqLen := 256

/-- The hop that opens a traversal of such a model. -/
def hopOfDim (dim : UInt32) : InferHop where
  sessionId := 1
  seq := 1
  pos := 0
  hop := 0
  nFloats := dim
  flags := 0
  computeUs := 0

theorem hop_codec_exact_eight :
    HopTravels blankMsg 1 (headerOfDim 8) (hopOfDim 8) [0, 1, 2, 3, 4, 5, 6, 7] ∧ HopCanonical 1 :=
  (hop_codec_exact_iff blankMsg 1 (by decide) (by decide) rfl).mpr (by decide)

/-- With 1024 floats, as many as `INFER_MAX_FLOATS` allows, the stores leave
the payload of the message. -/
theorem hop_of_1024_lost :
    (headerOfDim 1024).isPlausible = true ∧
      (1024 : UInt32) ≤ inferMaxFloats ∧
      inferSendHop 1 (hopOfDim 1024) (List.replicate 1024 0) = none ∧
      ¬ HopTravels blankMsg 1 (headerOfDim 1024) (hopOfDim 1024) (List.replicate 1024 0) := by
  have overrun : inferSendHop 1 (hopOfDim 1024) (List.replicate 1024 0) = none :=
    if_pos (by decide)
  refine ⟨by decide, by decide, overrun, ?_⟩
  rintro ⟨msg, _, _, sent, _⟩
  rw [overrun] at sent
  cases sent

end LlmRuntime.DistInf
