import LlmRuntime.Library.Execution
import LlmRuntime.Library.SecureHash
import LlmRuntime.Sha256

/-!
# `sha256.c` computes the standard function

The context after some bytes is the chaining value of the full blocks together
with the bytes behind them.
-/

namespace LlmRuntime.Sha256

open SecureHash
open Execution (counted_loop)

theorem roundConstants_eq {t : Nat} (inside : t < 64) : roundConstants[t] = roundConstant t := by
  have table : roundConstants.toList = (List.range 64).map roundConstant := by decide +kernel
  have entry := congrArg (fun list => list[t]?) table
  simpa [inside] using entry

theorem initialState_eq (i : Fin 8) : sha256Init.state[i] = initial i := by
  have table : ∀ i : Fin 8, sha256Init.state[i] = initial i := by decide +kernel
  exact table i

instance neZeroFour : NeZero (4 : Nat) where
  out := by decide

theorem get_fin {α : Type*} {n : Nat} (words : Vector α n) (i : Fin n) : words.get i = words[i] :=
  rfl

def bufferBlock (buffer : Vector UInt8 64) : Nat → UInt32 := blockWord buffer.toList 0

theorem loadWord_eq (buffer : Vector UInt8 64) (j : Fin 16) :
    loadWord buffer j = bufferBlock buffer j.val := by
  have byte (k : Nat) (inside : k < 64) : buffer.toList.getD k 0 = buffer[k] := by simp [inside]
  rw [loadWord, bufferBlock, blockWord, wordOf, Nat.mul_zero, Nat.zero_add,
    byte _ (by omega), byte _ (by omega), byte _ (by omega), byte _ (by omega)]

/-- `m` holds the words of pass `pass`. -/
def Holds (block : Nat → UInt32) (pass : Nat) (m : Vector UInt32 16) : Prop :=
  ∀ j : Fin 16, m.get j = schedule block (16 * pass + j.val)

theorem updateM_load (m : Vector UInt32 16) (buffer : Vector UInt8 64) :
    Holds (bufferBlock buffer) 0 (updateM m 0 buffer) := by
  have loaded : ∀ j : Fin 16, j.val < 16 → (updateM m 0 buffer)[j] = loadWord buffer j := by
    rw [updateM]
    apply counted_loop _ fun count (m : Vector UInt32 16) =>
      ∀ j : Fin 16, j.val < count → m[j] = loadWord buffer j
    · intro j inside
      omega
    · intro k m before j inside
      rw [if_pos (by omega)]
      by_cases same : k = j
      · simp [same]
      · have earlier : j.val < k.val := by omega
        have kept := before j earlier
        simpa [Vector.getElem_set, Fin.val_ne_of_ne same] using kept
  intro j
  rw [get_fin, loaded j j.isLt, loadWord_eq, schedule_of_lt _ (by omega),
    Nat.mul_zero, Nat.zero_add]

/-- In the middle of a pass the words before `count` are those of the pass
and the others still those of the pass before. -/
def Advanced (block : Nat → UInt32) (pass count : Nat) (m : Vector UInt32 16) : Prop :=
  ∀ j : Fin 16, m.get j = schedule block (16 * pass + j.val + if j.val < count then 16 else 0)

variable {ctx : Ctx} {bytes message : List UInt8} {block : Nat → UInt32} {m : Vector UInt32 16}

/-- Either way the word `offset` places on is the one that the standard names,
because the index wraps exactly where the pass has been. -/
theorem Advanced.ahead {pass : Nat} {k : Fin 16} (advanced : Advanced block pass k.val m)
    (offset : Fin 16) (positive : 0 < offset.val) :
    m[k + offset] = schedule block (16 * pass + k.val + offset.val) := by
  have place : (k + offset).val = (k.val + offset.val) % 16 := Fin.val_add k offset
  rw [← get_fin, advanced (k + offset), place]
  congr 1
  split_ifs with behind
  · omega
  · omega

theorem updateM_advance {pass : Nat}
    (held : Holds block pass m) (buffer : Vector UInt8 64) {i : Nat}
    (later : 16 ≤ i) : Holds block (pass + 1) (updateM m i buffer) := by
  have advanced : Advanced block pass 16 (updateM m i buffer) := by
    rw [updateM]
    apply counted_loop _ (Advanced block pass)
    · intro j
      rw [held j, if_neg (Nat.not_lt_zero j.val), Nat.add_zero]
    · intro k m before j
      rw [if_neg (by omega)]
      by_cases same : k = j
      · -- the word of this place is recomputed from the ones it names
        have old := before k
        rw [if_neg (Nat.lt_irrefl k.val), Nat.add_zero, get_fin] at old
        have seventh := before.ahead 9 (by decide)
        have fifteenth := before.ahead 1 (by decide)
        have second := before.ahead 14 (by decide)
        have isNew :
            (m.set k (m[k] + (m[k + 9] + sig0 m[k + 1] + sig1 m[k + 14])))[j] =
              m[k] + (m[k + 9] + sig0 m[k + 1] + sig1 m[k + 14]) := by
          simp [same]
        rw [get_fin, isNew, old, seventh, fifteenth, second, ← same,
          if_pos (Nat.lt_succ_self k.val), schedule_add_sixteen]
        change _ + (_ + smallSigma0 _ + smallSigma1 _) = _
        ac_rfl
      · have kept := before j
        have different : k.val ≠ j.val := Fin.val_ne_of_ne same
        have sameSide : (j.val < k.val + 1) = (j.val < k.val) := by
          apply propext
          omega
        simp only [sameSide]
        simpa [get_fin, Vector.getElem_set, different] using kept
  intro j
  rw [advanced j, if_pos j.isLt]
  congr 1
  ring

/-- The working variables in the halves, when `a` and `e` are at place
`place`. -/
def Halves.view (halves : Halves) (place : Fin 4) : Working where
  a := halves.lo.get place
  b := halves.lo.get (place + 1)
  c := halves.lo.get (place + 2)
  d := halves.lo.get (place + 3)
  e := halves.hi.get place
  f := halves.hi.get (place + 1)
  g := halves.hi.get (place + 2)
  h := halves.hi.get (place + 3)

theorem getElem_set_fin {α : Type*} {n : Nat} (words : Vector α n) (i j : Fin n) (word : α) :
    (words.set i word)[j] = if i = j then word else words[j] := by
  simp only [Fin.getElem_fin, Vector.getElem_set, Fin.ext_iff]

theorem step1_eq (e f g : UInt32) : step1 e f g = bigSigma1 e + ch e f g := rfl

theorem step2_eq (a b c : UInt32) : step2 a b c = bigSigma0 a + maj a b c := rfl

/-- A round writes the two new variables in the places of the two that it drops
and leaves the others where they are. -/
theorem roundAt_view (halves : Halves) (place : Fin 4) (constant word : UInt32) :
    (roundAt place (place + 1) (place + 2) (place + 3) constant word
        halves).view (place + 3) =
      applyRound constant word (halves.view place) := by
  have places :
      ∀ place : Fin 4,
        (place + 3 + 1 = place ∧ place + 3 + 2 = place + 1 ∧ place + 3 + 3 = place + 2) ∧
        (place + 3 ≠ place ∧ place + 3 ≠ place + 1 ∧ place + 3 ≠ place + 2) := by
    decide
  obtain ⟨⟨isA, isB, isC⟩, notA, notB, notC⟩ := places place
  simp only [Halves.view, get_fin, roundAt, isA, isB, isC,
    getElem_set_fin, if_true, if_neg notA, if_neg notB, if_neg notC]
  simp only [applyRound, step1_eq, step2_eq, Working.mk.injEq, and_true, true_and]
  constructor
  · simp only [add_assoc]
  · rw [add_comm]
    simp only [add_assoc]

/-- The source's four rounds are the next four rounds of the standard. -/
theorem fourRounds_view {i j : Fin 4} (held : Holds block i.val m) {halves : Halves}
    {start : Working} (before : halves.view 0 = rounds block start (16 * i.val + 4 * j.val)) :
    (fourRounds i j m halves).view 0 = rounds block start (16 * i.val + 4 * (j.val + 1)) := by
  have constant (k : Nat) (inside : k < 64) : roundConstants[k] = roundConstant k :=
    roundConstants_eq inside
  have word (k : Nat) (inside : k < 16) : m[k] = schedule block (16 * i.val + k) := held ⟨k, inside⟩
  have isNext : 16 * i.val + 4 * (j.val + 1) = 16 * i.val + 4 * j.val + 4 := by ring
  rw [isNext]
  -- the places of `a` and `e` go round once: 0, 3, 2, 1 and 0 again
  calc
    (fourRounds i j m halves).view 0 =
        applyRound roundConstants[16 * i.val + 4 * j.val + 3]
          m[4 * j.val + 3]
          (applyRound roundConstants[16 * i.val + 4 * j.val + 2]
            m[4 * j.val + 2]
            (applyRound roundConstants[16 * i.val + 4 * j.val + 1]
              m[4 * j.val + 1]
              (applyRound roundConstants[16 * i.val + 4 * j.val]
                m[4 * j.val] (halves.view 0)))) := by
      refine (roundAt_view _ 1 _ _).trans ?_
      refine congrArg _ ((roundAt_view _ 2 _ _).trans ?_)
      refine congrArg _ ((roundAt_view _ 3 _ _).trans ?_)
      exact congrArg _ (roundAt_view halves 0 _ _)
    _ = rounds block start (16 * i.val + 4 * j.val + 4) := by
      rw [before, constant _ (by omega), constant _ (by omega),
        constant _ (by omega), constant _ (by omega), word _ (by omega),
        word _ (by omega), word _ (by omega), word _ (by omega)]
      rfl

/-- One pass of the outer loop: the schedule moves on and is used up. -/
def passStep (data : Vector UInt8 64) (carried : Vector UInt32 16 × Halves)
    (i : Fin 4) : Vector UInt32 16 × Halves :=
  let m := updateM carried.1 (16 * i.val) data
  (m, (List.finRange 4).foldl (fun halves (j : Fin 4) => fourRounds i j m halves) carried.2)

/-- What the outer loop has done before a pass. -/
def PassInvariant (block : Nat → UInt32) (start : Working) (pass : Nat)
    (carried : Vector UInt32 16 × Halves) : Prop :=
  carried.2.view 0 = rounds block start (16 * pass) ∧
    ∀ earlier, pass = earlier + 1 → Holds block earlier carried.1

theorem passStep_invariant {data : Vector UInt8 64} {start : Working}
    (i : Fin 4) (carried : Vector UInt32 16 × Halves)
    (before : PassInvariant (bufferBlock data) start i.val carried) :
    PassInvariant (bufferBlock data) start (i.val + 1) (passStep data carried i) := by
  have held : Holds (bufferBlock data) i.val (updateM carried.1 (16 * i.val) data) := by
    by_cases isFirst : i.val = 0
    · rw [isFirst]
      exact updateM_load carried.1 data
    · obtain ⟨earlier, isPass⟩ := Nat.exists_eq_succ_of_ne_zero isFirst
      rw [isPass]
      exact updateM_advance (before.2 earlier isPass) data (by omega)
  constructor
  · rw [passStep, Nat.mul_add]
    apply counted_loop (n := 4) _ fun count (halves : Halves) =>
      halves.view 0 = rounds (bufferBlock data) start (16 * i.val + 4 * count)
    · exact before.1
    · intro j halves isView
      exact fourRounds_view held isView
  · intro earlier isPass
    have same : earlier = i.val := by omega
    rw [same]
    exact held

theorem sha256Block_state {value : Chaining}
    (isValue : ∀ i : Fin 8, ctx.state[i] = value i) (i : Fin 8) :
    (sha256Block ctx).state[i] = compress value (bufferBlock ctx.data) i := by
  have invariant :
      PassInvariant (bufferBlock ctx.data) (Working.ofChaining value) 4
        ((List.finRange 4).foldl (passStep ctx.data) (Vector.replicate 16 0,
            Halves.mk (Vector.ofFn fun i => ctx.state[i.val])
              (Vector.ofFn fun i => ctx.state[i.val + 4]))) := by
    apply counted_loop (passStep ctx.data)
      (PassInvariant (bufferBlock ctx.data) (Working.ofChaining value))
    · refine ⟨?_, fun earlier isPass => absurd isPass (by omega)⟩
      simp only [rounds, Working.ofChaining, ← isValue]
      simp [Halves.view, get_fin]
    · exact passStep_invariant
  have isFinal := invariant.1
  generalize isEnd : (List.finRange 4).foldl (passStep ctx.data) _ = ended at isFinal
  have isState :
      (sha256Block ctx).state =
        Vector.ofFn fun i : Fin 8 =>
          if low : i.val < 4 then ctx.state[i] + ended.2.lo[i.val]
          else ctx.state[i] + ended.2.hi[i.val - 4] := by
    rw [← isEnd]
    rfl
  rw [isState, compress, ← isValue, ← isFinal]
  fin_cases i
  all_goals simp [Halves.view, get_fin, Working.words]

/-! ## Bytes -/

/-- The context after some bytes: the chaining value behind their full blocks,
and the bytes behind those in the buffer. -/
structure Absorbed (bytes : List UInt8) (ctx : Ctx) : Prop where
  state : ∀ i : Fin 8, ctx.state[i] = chain bytes (bytes.length / 64) i
  data :
    ∀ k : Fin 64, k < ctx.datalen → ctx.data[k] = bytes.getD (64 * (bytes.length / 64) + k.val) 0
  datalen : ctx.datalen.val = bytes.length % 64
  bitlen : ctx.bitlen = UInt64.ofNat (8 * bytes.length)

theorem absorbed_init (data : Vector UInt8 64) : Absorbed [] { sha256Init with data := data } where
  state := initialState_eq
  data := fun k inside => absurd inside (Nat.not_lt_zero k.val)
  datalen := rfl
  bitlen := rfl

theorem chain_append (bytes : List UInt8) (byte : UInt8) :
    chain (bytes ++ [byte]) (bytes.length / 64) = chain bytes (bytes.length / 64) := by
  apply chain_congr
  intro i inside
  rw [List.getD_append _ _ _ _ (by omega)]

theorem Absorbed.append (absorbed : Absorbed bytes ctx) (byte : UInt8) :
    Absorbed (bytes ++ [byte]) (sha256AppendByte ctx byte) := by
  obtain ⟨state, data, datalen, bitlen⟩ := absorbed
  have length : (bytes ++ [byte]).length = bytes.length + 1 := by simp
  have counted : ctx.bitlen + 8 = UInt64.ofNat (8 * (bytes ++ [byte]).length) := by
    rw [bitlen, length, Nat.mul_add, UInt64.ofNat_add]
    rfl
  have stored :
      ∀ k : Fin 64, k.val ≤ ctx.datalen.val →
        (ctx.data.set ctx.datalen byte)[k] =
          (bytes ++ [byte]).getD (64 * (bytes.length / 64) + k.val) 0 := by
    intro k inside
    rw [getElem_set_fin]
    by_cases isLast : ctx.datalen = k
    · have place :
          64 * (bytes.length / 64) + k.val = bytes.length := by
        rw [← isLast, datalen]
        omega
      rw [if_pos isLast, place]
      simp
    · have before : k.val < ctx.datalen.val := by omega
      rw [if_neg isLast, data k before, List.getD_append _ _ _ _ (by omega)]
  by_cases room : ctx.datalen.val + 1 < 64
  · have sameBlocks : (bytes.length + 1) / 64 = bytes.length / 64 := by omega
    rw [sha256AppendByte]
    simp only [dif_pos room]
    refine ⟨?_, ?_, ?_, counted⟩
    · intro i
      rw [length, sameBlocks, chain_append]
      exact state i
    · intro k inside
      rw [length, sameBlocks]
      exact stored k (Nat.le_of_lt_succ inside)
    · rw [length]
      change ctx.datalen.val + 1 = _
      omega
  · have nextBlock : (bytes.length + 1) / 64 = bytes.length / 64 + 1 := by omega
    rw [sha256AppendByte]
    simp only [dif_neg room]
    generalize isFull :
      ({ state := ctx.state
         data := ctx.data.set ctx.datalen byte
         bitlen := ctx.bitlen + 8
         datalen := 0 } : Ctx) = full
    have fullState : ∀ i : Fin 8, full.state[i] = chain bytes (bytes.length / 64) i := by
      rw [← isFull]
      exact state
    have fullData (k : Nat) (isByte : k < 64) :
        full.data.toList.getD k 0 = (bytes ++ [byte]).getD (64 * (bytes.length / 64) + k) 0 := by
      rw [← stored ⟨k, isByte⟩ (by change k ≤ _; omega), ← isFull]
      simp [isByte]
    refine ⟨?_, ?_, ?_, ?_⟩
    · intro i
      rw [length, nextBlock, chain, chain_append, sha256Block_state fullState]
      apply congrFun
      apply compress_congr
      intro j inside
      rw [bufferBlock, blockWord, blockWord]
      simp only [Nat.mul_zero, Nat.zero_add, Nat.add_assoc]
      rw [fullData _ (by omega), fullData _ (by omega),
        fullData _ (by omega), fullData _ (by omega)]
    · intro k inside
      rw [sha256Block, ← isFull] at inside
      exact absurd inside (Nat.not_lt_zero k.val)
    · rw [length, sha256Block, ← isFull]
      change 0 = _
      omega
    · rw [sha256Block, ← isFull]
      exact counted

theorem Absorbed.update (absorbed : Absorbed bytes ctx) (more : List UInt8) :
    Absorbed (bytes ++ more) (sha256Update ctx more) := by
  induction more generalizing bytes ctx with
  | nil =>
    rw [List.append_nil]
    exact absorbed
  | cons byte rest ih =>
    have later := ih (absorbed.append byte)
    rw [List.append_assoc] at later
    exact later

theorem Absorbed.updates (absorbed : Absorbed bytes ctx) (pieces : List (List UInt8)) :
    Absorbed (bytes ++ pieces.flatten) (pieces.foldl sha256Update ctx) := by
  induction pieces generalizing bytes ctx with
  | nil =>
    rw [List.flatten_nil, List.append_nil]
    exact absorbed
  | cons piece rest ih =>
    have later := ih (absorbed.update piece)
    rw [List.append_assoc, ← List.flatten_cons] at later
    exact later

def missingZeros (length : Nat) : Nat := (120 - length % 64) % 64

theorem Absorbed.padToLength (absorbed : Absorbed bytes ctx) (fuel : Nat)
    (enough : missingZeros bytes.length ≤ fuel) :
    Absorbed (bytes ++ List.replicate (missingZeros bytes.length) 0) (padToLength fuel ctx) := by
  have place := absorbed.datalen
  induction fuel generalizing bytes ctx with
  | zero =>
    rw [Nat.le_zero.mp enough, List.replicate_zero, List.append_nil]
    exact absorbed
  | succ fuel ih =>
    rw [Sha256.padToLength]
    by_cases atEnd : ctx.datalen = 56
    · have noMore : missingZeros bytes.length = 0 := by
        rw [atEnd] at place
        change 56 = _ at place
        rw [missingZeros, ← place]
      rw [if_pos atEnd, noMore, List.replicate_zero, List.append_nil]
      exact absorbed
    · have notEnd : bytes.length % 64 ≠ 56 := by
        intro isEnd
        apply atEnd
        apply Fin.ext
        rw [place, isEnd]
        rfl
      have next := absorbed.append 0
      have oneLess : missingZeros bytes.length = missingZeros (bytes ++ [0]).length + 1 := by
        rw [missingZeros, missingZeros, List.length_append, List.length_singleton]
        omega
      rw [if_neg atEnd, oneLess, List.replicate_succ]
      have later := ih next (by omega) next.datalen
      rw [List.append_assoc] at later
      exact later

theorem lengthByte_eq {bits : Nat} (fits : bits < 2 ^ 64) {i : Nat} (inside : i < 8) :
    (UInt64.ofNat bits >>> (8 * UInt64.ofNat i)).toUInt8 = UInt8.ofNat (bits / 256 ^ i) := by
  have shift : (8 * UInt64.ofNat i).toNat = 8 * i := by
    rw [UInt64.toNat_mul, UInt64.toNat_ofNat']
    change 8 * (i % 2 ^ 64) % 2 ^ 64 = 8 * i
    omega
  have power : 2 ^ (8 * i) = 256 ^ i := by
    rw [pow_mul]
    norm_num
  apply UInt8.toNat_inj.mp
  rw [UInt64.toNat_toUInt8, UInt64.toNat_shiftRight, shift,
    UInt64.toNat_ofNat_of_lt' fits,
    Nat.mod_eq_of_lt (show 8 * i < 64 by omega),
    Nat.shiftRight_eq_div_pow, power, UInt8.toNat_ofNat']

theorem sha256Finalize_absorbed (absorbed : Absorbed message ctx) (fits : message.length < 2 ^ 61) :
    Absorbed (pad message) (sha256Finalize ctx) := by
  have marked := absorbed.append 0x80
  have isCount : missingZeros (message ++ [0x80]).length = zeroCount message.length := by
    rw [missingZeros, zeroCount, List.length_append, List.length_singleton]
    omega
  have padded := marked.padToLength 63 (by rw [missingZeros]; omega)
  have isLength :
      ([7, 6, 5, 4, 3, 2, 1, 0] : List UInt64).map
          (fun i => (ctx.bitlen >>> (8 * i)).toUInt8) =
        lengthBytes message.length := by
    have small : 8 * message.length < 2 ^ 64 := by omega
    have each (i : Nat) (inside : i < 8) := lengthByte_eq small inside
    rw [absorbed.bitlen, lengthBytes]
    simp only [List.map_cons, List.map_nil]
    rw [← each 7 (by omega), ← each 6 (by omega), ← each 5 (by omega), ← each 4 (by omega),
      ← each 3 (by omega), ← each 2 (by omega), ← each 1 (by omega), ← each 0 (by omega)]
    rfl
  have ended := padded.update (lengthBytes message.length)
  rw [isCount, ← isLength] at ended
  rw [pad, ← isLength, sha256Finalize]
  rw [sha256Update, List.foldl_map] at ended
  exact ended

theorem sha256Final_absorbed (absorbed : Absorbed message ctx) (fits : message.length < 2 ^ 61) :
    sha256Final ctx = digest message := by
  have finalized := sha256Finalize_absorbed absorbed fits
  rw [sha256Final, digest]
  apply congrArg
  funext index
  have word := finalized.state (Fin.ofNat 8 (index.val / 4))
  rw [← word]
  have inside : index.val / 4 % 8 = index.val / 4 := by omega
  simp [inside]

theorem hashOver_eq_digest (ctx : Ctx) (fits : message.length < 2 ^ 61) :
    sha256Final (sha256Update (sha256InitOver ctx) message) = digest message := by
  have absorbed := (absorbed_init ctx.data).update message
  rw [List.nil_append] at absorbed
  exact sha256Final_absorbed absorbed fits

/-- The client's hash is the standard one. -/
theorem sha256Hash_eq_digest (fits : message.length < 2 ^ 61) :
    sha256Hash message = digest message := hashOver_eq_digest sha256Init fits

/-- The digest of a message does not depend on the pieces it comes in, nor on
what was in the buffer; and each block is compressed as the standard says. -/
theorem sha256_pieces (data : Vector UInt8 64) {pieces : List (List UInt8)}
    (fits : pieces.flatten.length < 2 ^ 61) :
    sha256Final (pieces.foldl sha256Update { sha256Init with data := data }) =
        digest pieces.flatten ∧
      ∀ (ctx : Ctx) (i : Fin 8),
        (sha256Block ctx).state[i] = compress (fun j => ctx.state[j]) (bufferBlock ctx.data) i := by
  have absorbed := (absorbed_init data).updates pieces
  rw [List.nil_append] at absorbed
  exact ⟨sha256Final_absorbed absorbed fits, fun ctx i => sha256Block_state (fun _ => rfl) i⟩

theorem sha256_pieces_abc :
    sha256Final
        ([[97], [], [98, 99]].foldl sha256Update
          { sha256Init with data := Vector.replicate 64 255 }) =
      digest [97, 98, 99] := by
  have fits : ([[97], [], [98, 99]] : List (List UInt8)).flatten.length < 2 ^ 61 := by decide
  exact (sha256_pieces (Vector.replicate 64 255) fits).1

theorem keyedHash_eq_digest (ctx : Ctx) {front message : List UInt8}
    (fits : front.length + message.length < 2 ^ 61) :
    sha256Final (sha256Update (sha256Update (sha256InitOver ctx) front) message) =
      digest (front ++ message) := by
  rw [sha256Update, sha256Update, ← List.foldl_append]
  exact hashOver_eq_digest ctx (by rwa [List.length_append])

/-- The proof that a worker knows the key is the standard keyed hash, whatever
the contexts hold. -/
theorem hmacSha256_eq_hmac (hashing c : Ctx) {key message : List UInt8}
    (keyFits : key.length < 2 ^ 61) (messageFits : message.length + 64 < 2 ^ 61) :
    hmacSha256 hashing c key message = hmac key message := by
  rw [hmacSha256, hmac]
  simp only [hashOver_eq_digest hashing keyFits, gt_iff_lt, ← not_le, ite_not]
  simp only [Vector.toList_map, Vector.toList_ofFn]
  rw [keyedHash_eq_digest, keyedHash_eq_digest]
  all_goals
    simp only [List.length_map, List.length_ofFn, Vector.length_toList]
    omega

theorem hmacSha256_eq_hmac_abc :
    let used : Ctx := { sha256Init with data := Vector.replicate 64 255 }
    hmacSha256 used used [97] [98, 99] = hmac [97] [98, 99] :=
  hmacSha256_eq_hmac _ _ (by decide) (by decide)

end LlmRuntime.Sha256
