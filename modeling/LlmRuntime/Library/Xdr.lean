import LlmRuntime.Library.Bytes

/-!
# XDR streams

A decoder takes words and blocks from the front of a byte string and may give up
at any of them.  What has been copied to the caller stays copied then, so the
copies are part of what a decoder does and not of its result.
-/

namespace LlmRuntime.Xdr

open Bytes

variable {D α β : Type}

/-- `result` is what is decoded and the bytes behind it, `copies` what is
copied on the way, with its destinations. -/
structure Decoder (D α : Type) where
  result : List UInt8 → Option (α × List UInt8)
  copies : List UInt8 → List (D × List UInt8)

namespace Decoder

instance : Monad (Decoder D) where
  pure value := ⟨fun bytes => some (value, bytes), fun _ => []⟩
  bind first next :=
    ⟨fun bytes =>
        (first.result bytes).bind fun read => (next read.1).result read.2,
      fun bytes =>
        first.copies bytes ++ (first.result bytes).elim [] fun read => (next read.1).copies read.2⟩

def fail : Decoder D α :=
  ⟨fun _ => none, fun _ => []⟩

def word : Decoder D UInt32 where
  result
    | b3 :: b2 :: b1 :: b0 :: rest => some (wordOfBytes b0 b1 b2 b3, rest)
    | _ => none
  copies _ := []

/-- Copy the next `len` bytes to `destination`. -/
def block (destination : D) (len : Nat) : Decoder D (List UInt8) where
  result bytes :=
    if len ≤ bytes.length then some (bytes.take len, bytes.drop len)
    else none
  copies bytes :=
    if len ≤ bytes.length then [(destination, bytes.take len)] else []

/-- The number of bytes that are left. -/
def remaining : Decoder D Nat where
  result bytes := some (bytes.length, bytes)
  copies _ := []

variable {bytes rest : List UInt8} {copied : D × List UInt8}

theorem pure_result_iff {value other : α} :
    (pure value : Decoder D α).result bytes = some (other, rest) ↔
      other = value ∧ bytes = rest := by
  change some (value, bytes) = some (other, rest) ↔ _
  rw [Option.some.injEq, Prod.mk.injEq, eq_comm]

theorem bind_result_iff {first : Decoder D α} {next : α → Decoder D β} {value : β} :
    (first >>= next).result bytes = some (value, rest) ↔
      ∃ read behind,
        first.result bytes = some (read, behind) ∧
          (next read).result behind = some (value, rest) := by
  change (first.result bytes).bind _ = _ ↔ _
  rw [Option.bind_eq_some_iff]
  exact Prod.exists

theorem fail_result_iff {value : α} :
    (fail : Decoder D α).result bytes = some (value, rest) ↔ False :=
  ⟨fun failed => (Option.some_ne_none _ failed.symm).elim, False.elim⟩

theorem remaining_result_iff {count : Nat} :
    (remaining : Decoder D Nat).result bytes = some (count, rest) ↔
      count = rest.length ∧ bytes = rest := by
  change some (bytes.length, bytes) = some (count, rest) ↔ _
  rw [Option.some.injEq, Prod.mk.injEq]
  constructor <;>
  · rintro ⟨rfl, rfl⟩
    exact ⟨rfl, rfl⟩

theorem word_result_iff {value : UInt32} :
    (word : Decoder D UInt32).result bytes = some (value, rest) ↔ bytes = beWord value ++ rest := by
  constructor
  · intro read
    rcases bytes with _ | ⟨b3, _ | ⟨b2, _ | ⟨b1, _ | ⟨b0, behind⟩⟩⟩⟩
    · cases read
    · cases read
    · cases read
    · cases read
    · change some (wordOfBytes b0 b1 b2 b3, behind) = _ at read
      cases read
      rw [beWord_wordOfBytes]
      rfl
  · rintro rfl
    change some (wordOfBytes _ _ _ _, rest) = _
    rw [wordOfBytes_wordByte]

theorem block_result_iff {destination : D} {len : Nat} {read : List UInt8} :
    (block destination len).result bytes = some (read, rest) ↔
      read.length = len ∧ bytes = read ++ rest := by
  rw [block]
  constructor
  · intro taken
    dsimp only at taken
    split_ifs at taken with fits
    cases taken
    exact ⟨List.length_take_of_le fits, (List.take_append_drop _ _).symm⟩
  · rintro ⟨rfl, rfl⟩
    dsimp only
    rw [if_pos (by simp), List.take_left, List.drop_left]

theorem mem_pure_copies {value : α} : copied ∈ (pure value : Decoder D α).copies bytes ↔ False :=
  ⟨fun isCopy => absurd isCopy List.not_mem_nil, False.elim⟩

theorem mem_fail_copies : copied ∈ (fail : Decoder D α).copies bytes ↔ False :=
  ⟨fun isCopy => absurd isCopy List.not_mem_nil, False.elim⟩

theorem mem_word_copies : copied ∈ (word : Decoder D UInt32).copies bytes ↔ False :=
  ⟨fun isCopy => absurd isCopy List.not_mem_nil, False.elim⟩

theorem mem_remaining_copies : copied ∈ (remaining : Decoder D Nat).copies bytes ↔ False :=
  ⟨fun isCopy => absurd isCopy List.not_mem_nil, False.elim⟩

theorem mem_block_copies {destination : D} {len : Nat} :
    copied ∈ (block destination len).copies bytes ↔
      copied.1 = destination ∧ ∃ behind, copied.2.length = len ∧ bytes = copied.2 ++ behind := by
  rw [block]
  dsimp only
  constructor
  · intro isCopy
    split_ifs at isCopy with fits
    · rw [List.mem_singleton] at isCopy
      rw [isCopy]
      exact ⟨rfl, bytes.drop len, List.length_take_of_le fits, (List.take_append_drop _ _).symm⟩
    · cases isCopy
  · rintro ⟨isDestination, behind, rfl, rfl⟩
    rw [if_pos (by simp), List.take_left, List.mem_singleton, ← isDestination]

/-- A copy is made by the first reader, or by the next one behind what the first
has read. -/
theorem mem_bind_copies {first : Decoder D α} {next : α → Decoder D β} :
    copied ∈ (first >>= next).copies bytes ↔
      copied ∈ first.copies bytes ∨
        ∃ read behind,
          first.result bytes = some (read, behind) ∧
            copied ∈ (next read).copies behind := by
  change copied ∈ first.copies bytes ++ _ ↔ _
  rw [List.mem_append]
  apply or_congr_right
  cases isRead : first.result bytes with
  | none =>
    constructor
    · intro isCopy
      cases isCopy
    · rintro ⟨read, behind, impossible, -⟩
      cases impossible
  | some read =>
    constructor
    · intro isCopy
      exact ⟨read.1, read.2, rfl, isCopy⟩
    · rintro ⟨value, behind, same, isCopy⟩
      cases same
      exact isCopy

@[simp]
theorem bind_result (first : Decoder D α) (next : α → Decoder D β) (bytes : List UInt8) :
    (first >>= next).result bytes =
      (first.result bytes).bind fun read => (next read.1).result read.2 := rfl

@[simp]
theorem pure_result (value : α) (bytes : List UInt8) :
    (pure value : Decoder D α).result bytes = some (value, bytes) := rfl

@[simp]
theorem word_result_append (value : UInt32) (rest : List UInt8) :
    (word : Decoder D UInt32).result (beWord value ++ rest) = some (value, rest) :=
  word_result_iff.mpr rfl

theorem block_result_append (destination : D) {len : Nat} {read : List UInt8}
    (isLength : read.length = len) (rest : List UInt8) :
    (block destination len).result (read ++ rest) = some (read, rest) :=
  block_result_iff.mpr ⟨isLength, rfl⟩

/-- The word at an offset; zero if there is none. -/
def wordAt (bytes : List UInt8) (off : Nat) : UInt32 := (readBeWord (bytes.drop off)).1

theorem word_result_drop (bytes : List UInt8) (off : Nat) :
    (word : Decoder D UInt32).result (bytes.drop off) =
      if off + 4 ≤ bytes.length then some (wordAt bytes off, bytes.drop (off + 4))
      else none := by
  have length : (bytes.drop off).length = bytes.length - off := List.length_drop
  rw [← List.drop_drop, wordAt]
  generalize bytes.drop off = behind at length ⊢
  rcases behind with _ | ⟨b3, _ | ⟨b2, _ | ⟨b1, _ | ⟨b0, rest⟩⟩⟩⟩
  · rw [List.length_nil] at length
    rw [if_neg (by omega)]
    rfl
  · rw [List.length_singleton] at length
    rw [if_neg (by omega)]
    rfl
  · simp only [List.length_cons, List.length_nil] at length
    rw [if_neg (by omega)]
    rfl
  · simp only [List.length_cons, List.length_nil] at length
    rw [if_neg (by omega)]
    rfl
  · simp only [List.length_cons] at length
    rw [if_pos (by omega)]
    rfl

theorem block_result_drop (destination : D) (len : Nat) {bytes : List UInt8}
    {off : Nat} (inside : off ≤ bytes.length) :
    (block destination len).result (bytes.drop off) =
      if off + len ≤ bytes.length then some ((bytes.drop off).take len, bytes.drop (off + len))
      else none := by
  rw [block]
  dsimp only
  rw [List.length_drop, List.drop_drop]
  by_cases fits : off + len ≤ bytes.length
  · rw [if_pos fits, if_pos (by omega)]
  · rw [if_neg fits, if_neg (by omega)]

end Decoder

/-- Write a chunk behind what is written already, in a buffer of `size`
bytes. -/
def put (size : Nat) (chunk written : List UInt8) : Option (List UInt8) :=
  if written.length + chunk.length ≤ size then some (written ++ chunk)
  else none

theorem put_bind_put (size : Nat) (first second written : List UInt8) :
    (put size first written).bind (put size second) = put size (first ++ second) written := by
  unfold put
  by_cases fits : written.length + first.length ≤ size
  · rw [if_pos fits, Option.bind_some, List.length_append,
      List.append_assoc, List.length_append, Nat.add_assoc]
  · rw [if_neg fits, Option.bind_none, List.length_append, if_neg (by omega)]

theorem put_nil (size : Nat) (chunk : List UInt8) :
    put size chunk [] = if chunk.length ≤ size then some chunk else none := by
  rw [put, List.length_nil, Nat.zero_add, List.nil_append]

/-- The zero bytes behind a block of `len` bytes. -/
def padding (len : Nat) : Nat := (4 - len % 4) % 4

/-- Variable-length opaque data: its length, the bytes, and zeros up to a
multiple of four. -/
def opaqueField (body : List UInt8) : List UInt8 :=
  beWord (UInt32.ofNat body.length) ++ (body ++ List.replicate (padding body.length) 0)

theorem opaqueField_nil : opaqueField [] = beWord 0 := List.append_nil _

theorem padding_lt (len : Nat) : padding len < 4 := Nat.mod_lt _ (by decide)

@[simp]
theorem beWord_length (word : UInt32) : (beWord word).length = 4 := rfl

@[simp]
theorem opaqueField_length (body : List UInt8) :
    (opaqueField body).length = 4 + body.length + padding body.length := by
  simp [opaqueField, Nat.add_assoc]

end LlmRuntime.Xdr
