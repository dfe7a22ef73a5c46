import Mathlib

/-!
# Fixed-width fields in byte strings

Records travel as raw little-endian memory images or as words in XDR's order.  A
reader takes one field from the front of a byte string and returns the bytes
behind it.
-/

namespace LlmRuntime.Bytes

/-- The 32-bit word with the given bytes, least significant first. -/
def wordOfBytes (b0 b1 b2 b3 : UInt8) : UInt32 :=
  UInt32.ofNat (b0.toNat + 256 * (b1.toNat + 256 * (b2.toNat + 256 * b3.toNat)))

/-- Byte `index` of a word, counted from the least significant one. -/
def wordByte (word : UInt32) (index : Nat) : UInt8 := UInt8.ofNat (word.toNat / 256 ^ index)

theorem wordOfBytes_wordByte (word : UInt32) :
    wordOfBytes (wordByte word 0) (wordByte word 1) (wordByte word 2) (wordByte word 3) = word := by
  apply UInt32.toNat_inj.mp
  have bound : word.toNat < 2 ^ 32 := word.toNat_lt
  simp only [wordOfBytes, wordByte, UInt8.toNat_ofNat', UInt32.toNat_ofNat']
  omega

/-- A word as it lies in little-endian memory. -/
def leWord (word : UInt32) : List UInt8 :=
  [wordByte word 0, wordByte word 1, wordByte word 2, wordByte word 3]

/-- A 16-bit field as it lies in little-endian memory. -/
def leHalf (half : UInt16) : List UInt8 := [UInt8.ofNat half.toNat, UInt8.ofNat (half.toNat / 256)]

/-- A word in XDR order, most significant byte first. -/
def beWord (word : UInt32) : List UInt8 :=
  [wordByte word 3, wordByte word 2, wordByte word 1, wordByte word 0]

/-- Read a little-endian word.  A string too short for one reads as zero;
every caller checks the length of the record first. -/
def readLeWord : List UInt8 → UInt32 × List UInt8
  | b0 :: b1 :: b2 :: b3 :: rest => (wordOfBytes b0 b1 b2 b3, rest)
  | _ => (0, [])

/-- Read a little-endian 16-bit field. -/
def readLeHalf : List UInt8 → UInt16 × List UInt8
  | b0 :: b1 :: rest => (UInt16.ofNat (b0.toNat + 256 * b1.toNat), rest)
  | _ => (0, [])

def readBeWord : List UInt8 → UInt32 × List UInt8
  | b3 :: b2 :: b1 :: b0 :: rest => (wordOfBytes b0 b1 b2 b3, rest)
  | _ => (0, [])

/-- A 16-bit field in network order. -/
def beHalf (half : UInt16) : List UInt8 := [UInt8.ofNat (half.toNat / 256), UInt8.ofNat half.toNat]

/-- Read a 16-bit field in network order. -/
def readBeHalf : List UInt8 → UInt16 × List UInt8
  | b1 :: b0 :: rest => (UInt16.ofNat (b0.toNat + 256 * b1.toNat), rest)
  | _ => (0, [])

@[simp]
theorem readBeHalf_beHalf (half : UInt16) (rest : List UInt8) :
    readBeHalf (beHalf half ++ rest) = (half, rest) := by
  have bound : half.toNat < 2 ^ 16 := half.toNat_lt
  simp only [beHalf, List.cons_append, List.nil_append, readBeHalf]
  refine Prod.ext ?_ rfl
  apply UInt16.toNat_inj.mp
  simp only [UInt8.toNat_ofNat', UInt16.toNat_ofNat']
  omega

/-- Read `count` words in XDR order. -/
def readBeWords : Nat → List UInt8 → List UInt32 × List UInt8
  | 0, bytes => ([], bytes)
  | count + 1, bytes =>
    let (word, rest) := readBeWord bytes
    let (words, final) := readBeWords count rest
    (word :: words, final)

def readBlock (size : Nat) (bytes : List UInt8) : Vector UInt8 size × List UInt8 :=
  (Vector.ofFn fun index => bytes.getD index 0, bytes.drop size)

@[simp]
theorem readLeWord_leWord (word : UInt32) (rest : List UInt8) :
    readLeWord (leWord word ++ rest) = (word, rest) := by
  simp only [leWord, List.cons_append, List.nil_append, readLeWord, wordOfBytes_wordByte]

@[simp]
theorem readLeHalf_leHalf (half : UInt16) (rest : List UInt8) :
    readLeHalf (leHalf half ++ rest) = (half, rest) := by
  simp only [leHalf, List.cons_append, List.nil_append, readLeHalf, Prod.mk.injEq, and_true]
  apply UInt16.toNat_inj.mp
  have bound : half.toNat < 2 ^ 16 := half.toNat_lt
  simp only [UInt8.toNat_ofNat', UInt16.toNat_ofNat']
  omega

@[simp]
theorem readBeWord_beWord (word : UInt32) (rest : List UInt8) :
    readBeWord (beWord word ++ rest) = (word, rest) := by
  simp only [beWord, List.cons_append, List.nil_append, readBeWord, wordOfBytes_wordByte]

theorem beWord_wordOfBytes (b0 b1 b2 b3 : UInt8) :
    beWord (wordOfBytes b0 b1 b2 b3) = [b3, b2, b1, b0] := by
  have bound0 := b0.toNat_lt
  have bound1 := b1.toNat_lt
  have bound2 := b2.toNat_lt
  have bound3 := b3.toNat_lt
  simp only [beWord, wordByte, wordOfBytes, List.cons.injEq, and_true,
    ← UInt8.toNat_inj, UInt8.toNat_ofNat', UInt32.toNat_ofNat']
  omega

def beWords (words : List UInt32) : List UInt8 := words.flatMap beWord

@[simp]
theorem beWords_nil : beWords [] = [] := rfl

theorem beWords_cons (word : UInt32) (words : List UInt32) :
    beWords (word :: words) = beWord word ++ beWords words := List.flatMap_cons

@[simp]
theorem beWords_length (words : List UInt32) : (beWords words).length = 4 * words.length := by
  induction words with
  | nil => rfl
  | cons word rest ih =>
    simp only [beWords, List.flatMap_cons, List.length_append] at *
    simp only [ih, beWord, List.length_cons, List.length_nil]
    omega

@[simp]
theorem readBeWords_beWords (words : List UInt32) (rest : List UInt8) :
    readBeWords words.length (beWords words ++ rest) = (words, rest) := by
  induction words with
  | nil => rfl
  | cons word remaining ih =>
    simp only [beWords, List.flatMap_cons, List.append_assoc,
      List.length_cons, readBeWords, readBeWord_beWord] at *
    simp only [ih]

theorem readBeWords_length (count : Nat) (bytes : List UInt8) :
    (readBeWords count bytes).1.length = count := by
  induction count generalizing bytes with
  | zero => rfl
  | succ count ih => simp only [readBeWords, List.length_cons, ih]

theorem beWords_readBeWords (count : Nat) {bytes : List UInt8} (long : 4 * count ≤ bytes.length) :
    beWords (readBeWords count bytes).1 ++ (readBeWords count bytes).2 = bytes := by
  induction count generalizing bytes with
  | zero => rfl
  | succ count ih =>
    match bytes with
    | b3 :: b2 :: b1 :: b0 :: rest =>
      have behind : 4 * count ≤ rest.length := by
        simp only [List.length_cons] at long
        omega
      simp only [readBeWords, readBeWord, beWords_cons, beWord_wordOfBytes,
        List.append_assoc, ih behind]
      rfl
    | [] | [_] | [_, _] | [_, _, _] =>
      simp only [List.length_cons, List.length_nil] at long
      omega

@[simp]
theorem readBlock_toList {size : Nat} (block : Vector UInt8 size) (rest : List UInt8) :
    readBlock size (block.toList ++ rest) = (block, rest) := by
  have blockLength : block.toList.length = size := by simp
  unfold readBlock
  refine Prod.ext ?_ ?_
  · ext index inside
    simp only [Vector.getElem_ofFn]
    rw [List.getD_eq_getElem?_getD, List.getElem?_append_left (by omega),
      List.getElem?_eq_getElem (by omega)]
    simp
  · exact List.drop_left' blockLength

end LlmRuntime.Bytes
