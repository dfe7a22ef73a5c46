import LlmRuntime.Rpc

/-!
# Payloads of the inference procedures

The fixed records of `distinf.h` as they travel.  A float is carried as its 32
bits.
-/

namespace LlmRuntime.DistInf

open Bytes

/-- `assign_layers_t`. -/
structure AssignLayers where
  sessionId : UInt32
  modelId : UInt32
  layerStart : UInt32
  layerEnd : UInt32
  nLayersTotal : UInt32
  dim : UInt32
  hiddenDim : UInt32
  nHeads : UInt32
  nKvHeads : UInt32
  seqLen : UInt32
  vocabSize : UInt32
  maxSeq : UInt32
  weightsIp : UInt32
  weightsPort : UInt32
  deriving DecidableEq, Repr

namespace AssignLayers

def size : Nat := 14 * 4

def words (assignment : AssignLayers) : List UInt32 :=
  [assignment.sessionId, assignment.modelId, assignment.layerStart,
    assignment.layerEnd, assignment.nLayersTotal, assignment.dim,
    assignment.hiddenDim, assignment.nHeads, assignment.nKvHeads,
    assignment.seqLen, assignment.vocabSize, assignment.maxSeq,
    assignment.weightsIp, assignment.weightsPort]

def ofWords (words : List UInt32) : AssignLayers where
  sessionId := words.getD 0 0
  modelId := words.getD 1 0
  layerStart := words.getD 2 0
  layerEnd := words.getD 3 0
  nLayersTotal := words.getD 4 0
  dim := words.getD 5 0
  hiddenDim := words.getD 6 0
  nHeads := words.getD 7 0
  nKvHeads := words.getD 8 0
  seqLen := words.getD 9 0
  vocabSize := words.getD 10 0
  maxSeq := words.getD 11 0
  weightsIp := words.getD 12 0
  weightsPort := words.getD 13 0

def encode (assignment : AssignLayers) : List UInt8 := beWords assignment.words

def decode (payload : List UInt8) : AssignLayers := ofWords (readBeWords 14 payload).1

@[simp]
theorem decode_encode (assignment : AssignLayers) : decode (encode assignment) = assignment := by
  have read := readBeWords_beWords assignment.words []
  rw [List.append_nil] at read
  have length : assignment.words.length = 14 := rfl
  rw [length] at read
  rw [decode, encode, read]
  rfl

@[simp]
theorem encode_length (assignment : AssignLayers) : (encode assignment).length = size := by
  simp [encode, words, size]

end AssignLayers

/-- `shard_ready_t`. -/
structure ShardReady where
  sessionId : UInt32
  workerId : UInt32
  layerStart : UInt32
  layerEnd : UInt32
  status : UInt32
  deriving DecidableEq, Repr

namespace ShardReady

def size : Nat := 5 * 4

def words (report : ShardReady) : List UInt32 :=
  [report.sessionId, report.workerId, report.layerStart, report.layerEnd, report.status]

def ofWords (words : List UInt32) : ShardReady where
  sessionId := words.getD 0 0
  workerId := words.getD 1 0
  layerStart := words.getD 2 0
  layerEnd := words.getD 3 0
  status := words.getD 4 0

def encode (report : ShardReady) : List UInt8 := beWords report.words

def decode (payload : List UInt8) : ShardReady := ofWords (readBeWords 5 payload).1

@[simp]
theorem decode_encode (report : ShardReady) : decode (encode report) = report := by
  have read := readBeWords_beWords report.words []
  rw [List.append_nil] at read
  have length : report.words.length = 5 := rfl
  rw [length] at read
  rw [decode, encode, read]
  rfl

@[simp]
theorem encode_length (report : ShardReady) : (encode report).length = size := by
  simp [encode, words, size]

end ShardReady

/-- `infer_hop_t`. -/
structure InferHop where
  sessionId : UInt32
  seq : UInt32
  pos : UInt32
  hop : UInt32
  nFloats : UInt32
  flags : UInt32
  computeUs : UInt32
  deriving DecidableEq, Repr

def inferMaxFloats : UInt32 := 1024
def inferFlagFinal : UInt32 := 1
def inferHopHdrSize : Nat := 7 * 4

abbrev Activation := List UInt32

namespace InferHop

def words (hop : InferHop) : List UInt32 :=
  [hop.sessionId, hop.seq, hop.pos, hop.hop, hop.nFloats, hop.flags, hop.computeUs]

def ofWords (words : List UInt32) : InferHop where
  sessionId := words.getD 0 0
  seq := words.getD 1 0
  pos := words.getD 2 0
  hop := words.getD 3 0
  nFloats := words.getD 4 0
  flags := words.getD 5 0
  computeUs := words.getD 6 0

def isFinal (hop : InferHop) : Bool := hop.flags &&& inferFlagFinal ≠ 0

end InferHop

def inferPayload (hop : InferHop) (activation : Activation) : List UInt8 :=
  beWords hop.words ++ beWords activation

/-- `infer_decode_hop`; `dim` and `session` are not checked when zero. -/
def inferDecodeHop (payload : List UInt8) (dim session : UInt32) : Option (InferHop × Activation) :=
  if payload.length < inferHopHdrSize then none
  else
    let (words, floats) := readBeWords 7 payload
    let hop := InferHop.ofWords words
    if hop.nFloats = 0 ∨ hop.nFloats > inferMaxFloats then none
    else if payload.length ≠ inferHopHdrSize + hop.nFloats.toNat * 4 then none
    else if dim > 0 ∧ hop.nFloats ≠ dim then none
    else if session ≠ 0 ∧ hop.sessionId ≠ session then none
    else some (hop, (readBeWords hop.nFloats.toNat floats).1)

/-- A hop whose declared length is that of its activation. -/
structure WellSized (hop : InferHop) (activation : Activation) : Prop where
  nonempty : hop.nFloats ≠ 0
  bounded : hop.nFloats ≤ inferMaxFloats
  length : activation.length = hop.nFloats.toNat

variable {hop : InferHop} {activation : Activation} {dim session : UInt32}

/-- What is sent is decoded again, when the receiver's dimension and session
agree with it or are not checked. -/
theorem inferDecodeHop_inferPayload (sized : WellSized hop activation) (dim session : UInt32) :
    inferDecodeHop (inferPayload hop activation) dim session =
      if (dim > 0 ∧ hop.nFloats ≠ dim) ∨
          (session ≠ 0 ∧ hop.sessionId ≠ session) then
        none
      else some (hop, activation) := by
  have headerLength : hop.words.length = 7 := rfl
  have total : (inferPayload hop activation).length = inferHopHdrSize + hop.nFloats.toNat * 4 := by
    simp only [inferPayload, List.length_append, beWords_length,
      headerLength, inferHopHdrSize, sized.length]
    omega
  have notShort : ¬ inferHopHdrSize + hop.nFloats.toNat * 4 < inferHopHdrSize := by omega
  have header : readBeWords 7 (inferPayload hop activation) = (hop.words, beWords activation) := by
    rw [← headerLength]
    exact readBeWords_beWords hop.words (beWords activation)
  have floats : readBeWords hop.nFloats.toNat (beWords activation) = (activation, []) := by
    have read := readBeWords_beWords activation []
    rw [List.append_nil, sized.length] at read
    exact read
  have rightHop : InferHop.ofWords hop.words = hop := rfl
  have inBounds : ¬ (hop.nFloats = 0 ∨ hop.nFloats > inferMaxFloats) := by
    intro outside
    rcases outside with empty | tooLong
    · exact sized.nonempty empty
    · exact UInt32.not_lt.mpr sized.bounded tooLong
  simp only [inferDecodeHop, total, if_neg notShort, header, rightHop,
    if_neg inBounds, ne_eq, not_true_eq_false, if_false, floats]
  by_cases wrongDim : dim > 0 ∧ ¬ hop.nFloats = dim
  · simp only [wrongDim, if_true, true_or, not_false_eq_true, and_self]
  · simp only [wrongDim, if_false, false_or]

/-- The checks an accepted hop has passed. -/
theorem inferDecodeHop_some {payload : List UInt8}
    (decoded : inferDecodeHop payload dim session = some (hop, activation)) :
    (dim > 0 → hop.nFloats = dim) ∧ (session ≠ 0 → hop.sessionId = session) := by
  unfold inferDecodeHop at decoded
  dsimp only at decoded
  split_ifs at decoded with short outside wrongLength wrongDim wrongSession
  have sameHop : InferHop.ofWords (readBeWords 7 payload).1 = hop :=
    congrArg Prod.fst (Option.some.inj decoded)
  rw [sameHop] at wrongDim wrongSession
  refine ⟨?_, ?_⟩
  · intro positive
    by_contra different
    exact wrongDim ⟨positive, different⟩
  · intro checked
    by_contra different
    exact wrongSession ⟨checked, different⟩

theorem InferHop.words_ofWords {words : List UInt32} (seven : words.length = 7) :
    (InferHop.ofWords words).words = words := by
  match words with
  | [_, _, _, _, _, _, _] => rfl

/-- An accepted payload is the one that would be sent for what it is decoded
to. -/
theorem inferDecodeHop_canonical {payload : List UInt8}
    (decoded : inferDecodeHop payload dim session = some (hop, activation)) :
    WellSized hop activation ∧ inferPayload hop activation = payload := by
  unfold inferDecodeHop at decoded
  dsimp only at decoded
  split_ifs at decoded with short outside wrongLength
  have same := Option.some.inj decoded
  have isHop := congrArg Prod.fst same
  have isActivation := congrArg Prod.snd same
  dsimp only at isHop isActivation
  rw [isHop] at outside wrongLength isActivation
  rw [not_or] at outside
  have total := not_not.mp wrongLength
  have header : beWords hop.words ++ (readBeWords 7 payload).2 = payload := by
    have read := beWords_readBeWords 7 (Nat.not_lt.mp short)
    rw [← isHop, InferHop.words_ofWords (readBeWords_length 7 payload)]
    exact read
  have floats : (readBeWords 7 payload).2.length = hop.nFloats.toNat * 4 := by
    have lengths := congrArg List.length header
    have seven : hop.words.length = 7 := rfl
    rw [List.length_append, beWords_length, seven, total, inferHopHdrSize] at lengths
    omega
  have read :=
    beWords_readBeWords hop.nFloats.toNat (Nat.le_of_eq ((Nat.mul_comm _ _).trans floats.symm))
  have through : (readBeWords hop.nFloats.toNat (readBeWords 7 payload).2).2 = [] := by
    have lengths := congrArg List.length read
    rw [List.length_append, beWords_length, readBeWords_length, floats] at lengths
    exact List.eq_nil_of_length_eq_zero (by omega)
  rw [isActivation, through, List.append_nil] at read
  refine ⟨⟨outside.1, UInt32.not_lt.mp outside.2, ?_⟩, ?_⟩
  · rw [← isActivation, readBeWords_length]
  · rw [inferPayload, read, header]

theorem inferDecodeHop_sent {decodedHop : InferHop} {decodedActivation : Activation}
    (decoded : inferDecodeHop (inferPayload hop activation) dim session =
        some (decodedHop, decodedActivation)) :
    decodedHop = hop ∧ decodedActivation = activation := by
  have headerLength : hop.words.length = 7 := rfl
  have header : readBeWords 7 (inferPayload hop activation) = (hop.words, beWords activation) := by
    rw [← headerLength]
    exact readBeWords_beWords hop.words (beWords activation)
  have rightHop : InferHop.ofWords hop.words = hop := rfl
  have sized : WellSized hop activation := by
    unfold inferDecodeHop at decoded
    simp only [header, rightHop] at decoded
    split_ifs at decoded with short outside wrongLength
    rw [not_or] at outside
    refine ⟨outside.1, UInt32.not_lt.mp outside.2, ?_⟩
    have total := not_not.mp wrongLength
    simp only [inferPayload, List.length_append, beWords_length,
      headerLength, inferHopHdrSize] at total
    omega
  rw [inferDecodeHop_inferPayload sized] at decoded
  split_ifs at decoded
  have same := Option.some.inj decoded
  exact ⟨(congrArg Prod.fst same).symm, (congrArg Prod.snd same).symm⟩

end LlmRuntime.DistInf
