import Mathlib

/-!
# The 256-bit secure hash

The hash function of the Secure Hash Standard with 32-bit words, for messages
that are whole bytes.  The constants are the leading bits of the fractional
parts of roots of primes.
-/

namespace LlmRuntime.SecureHash

def rotr (amount word : UInt32) : UInt32 := (word >>> amount) ||| (word <<< (32 - amount))

def ch (x y z : UInt32) : UInt32 := (x &&& y) ^^^ (~~~x &&& z)

def maj (x y z : UInt32) : UInt32 := (x &&& y) ^^^ (x &&& z) ^^^ (y &&& z)

def bigSigma0 (x : UInt32) : UInt32 := rotr 2 x ^^^ rotr 13 x ^^^ rotr 22 x

def bigSigma1 (x : UInt32) : UInt32 := rotr 6 x ^^^ rotr 11 x ^^^ rotr 25 x

def smallSigma0 (x : UInt32) : UInt32 := rotr 7 x ^^^ rotr 18 x ^^^ (x >>> 3)

def smallSigma1 (x : UInt32) : UInt32 := rotr 17 x ^^^ rotr 19 x ^^^ (x >>> 10)

def firstPrimes : List Nat :=
  [2, 3, 5, 7, 11, 13, 17, 19, 23, 29, 31, 37, 41, 43, 47, 53,
    59, 61, 67, 71, 73, 79, 83, 89, 97, 101, 103, 107, 109, 113, 127, 131,
    137, 139, 149, 151, 157, 163, 167, 173, 179, 181, 191, 193, 197, 199,
    211, 223, 227, 229, 233, 239, 241, 251, 257, 263, 269, 271, 277, 281,
    283, 293, 307, 311]

def cubeRootBits (n : Nat) : UInt32 := UInt32.ofNat (Nat.nthRoot 3 (n * 2 ^ 96))

def squareRootBits (n : Nat) : UInt32 := UInt32.ofNat (Nat.nthRoot 2 (n * 2 ^ 64))

def roundConstant (t : Nat) : UInt32 := cubeRootBits (firstPrimes.getD t 0)

abbrev Chaining := Fin 8 → UInt32

def initial : Chaining :=
  fun i => squareRootBits (firstPrimes.getD i.val 0)

/-- The message schedule of a block of sixteen words. -/
def schedule (block : Nat → UInt32) (t : Nat) : UInt32 :=
  if t < 16 then block t
  else
    smallSigma1 (schedule block (t - 2)) + schedule block (t - 7) +
      smallSigma0 (schedule block (t - 15)) + schedule block (t - 16)

theorem schedule_of_lt (block : Nat → UInt32) {t : Nat} (isLoaded : t < 16) :
    schedule block t = block t := by
  rw [schedule, if_pos isLoaded]

theorem schedule_of_le (block : Nat → UInt32) {t : Nat} (isDerived : 16 ≤ t) :
    schedule block t =
      smallSigma1 (schedule block (t - 2)) + schedule block (t - 7) +
        smallSigma0 (schedule block (t - 15)) + schedule block (t - 16) := by
  rw [schedule, if_neg (by omega)]

theorem schedule_add_sixteen (block : Nat → UInt32) (t : Nat) :
    schedule block (t + 16) =
      smallSigma1 (schedule block (t + 14)) + schedule block (t + 9) +
        smallSigma0 (schedule block (t + 1)) + schedule block t := by
  have back : t + 16 - 2 = t + 14 ∧ t + 16 - 7 = t + 9 ∧ t + 16 - 15 = t + 1 ∧ t + 16 - 16 = t := by
    omega
  rw [schedule_of_le block (by omega), back.1, back.2.1, back.2.2.1, back.2.2.2]

theorem schedule_congr {block other : Nat → UInt32} (same : ∀ j, j < 16 → block j = other j)
    (t : Nat) : schedule block t = schedule other t := by
  induction t using Nat.strong_induction_on with
  | _ t ih =>
    by_cases isLoaded : t < 16
    · rw [schedule_of_lt block isLoaded, schedule_of_lt other isLoaded, same t isLoaded]
    · rw [schedule_of_le block (by omega), schedule_of_le other (by omega), ih (t - 2) (by omega),
        ih (t - 7) (by omega), ih (t - 15) (by omega), ih (t - 16) (by omega)]

/-- The working variables. -/
@[ext]
structure Working where
  a : UInt32
  b : UInt32
  c : UInt32
  d : UInt32
  e : UInt32
  f : UInt32
  g : UInt32
  h : UInt32

def applyRound (constant word : UInt32) (vars : Working) : Working :=
  let t1 := vars.h + bigSigma1 vars.e + ch vars.e vars.f vars.g + constant + word
  let t2 := bigSigma0 vars.a + maj vars.a vars.b vars.c
  { a := t1 + t2
    b := vars.a
    c := vars.b
    d := vars.c
    e := vars.d + t1
    f := vars.e
    g := vars.f
    h := vars.g }

/-- The first `count` rounds. -/
def rounds (block : Nat → UInt32) (start : Working) : Nat → Working
  | 0 => start
  | count + 1 => applyRound (roundConstant count) (schedule block count) (rounds block start count)

theorem rounds_congr {block other : Nat → UInt32}
    (same : ∀ j, j < 16 → block j = other j) (start : Working) (count : Nat) :
    rounds block start count = rounds other start count := by
  induction count with
  | zero => rfl
  | succ count ih => rw [rounds, rounds, ih, schedule_congr same count]

def Working.ofChaining (value : Chaining) : Working where
  a := value 0
  b := value 1
  c := value 2
  d := value 3
  e := value 4
  f := value 5
  g := value 6
  h := value 7

def Working.words (vars : Working) : Chaining
  | 0 => vars.a
  | 1 => vars.b
  | 2 => vars.c
  | 3 => vars.d
  | 4 => vars.e
  | 5 => vars.f
  | 6 => vars.g
  | 7 => vars.h

def compress (value : Chaining) (block : Nat → UInt32) : Chaining :=
  fun i =>
    value i + (rounds block (Working.ofChaining value) 64).words i

theorem compress_congr {block other : Nat → UInt32} (same : ∀ j, j < 16 → block j = other j)
    (value : Chaining) : compress value block = compress value other := by
  funext i
  rw [compress, compress, rounds_congr same]

/-- The big-endian word made of four bytes. -/
def wordOf (b0 b1 b2 b3 : UInt8) : UInt32 :=
  (b0.toUInt32 <<< 24) ||| (b1.toUInt32 <<< 16) ||| (b2.toUInt32 <<< 8) ||| b3.toUInt32

def blockWord (bytes : List UInt8) (n j : Nat) : UInt32 :=
  wordOf (bytes.getD (64 * n + 4 * j) 0)
    (bytes.getD (64 * n + 4 * j + 1) 0) (bytes.getD (64 * n + 4 * j + 2) 0)
    (bytes.getD (64 * n + 4 * j + 3) 0)

/-- The chaining value behind the first `count` blocks. -/
def chain (bytes : List UInt8) : Nat → Chaining
  | 0 => initial
  | count + 1 => compress (chain bytes count) (blockWord bytes count)

theorem chain_congr {bytes others : List UInt8} {count : Nat}
    (same : ∀ i, i < 64 * count → bytes.getD i 0 = others.getD i 0) :
    chain bytes count = chain others count := by
  induction count with
  | zero => rfl
  | succ count ih =>
    rw [chain, chain, ih fun i inside => same i (by omega)]
    apply compress_congr
    intro j inside
    rw [blockWord, blockWord, same _ (by omega), same _ (by omega),
      same _ (by omega), same _ (by omega)]

/-- The zero bytes between the end mark and the length. -/
def zeroCount (length : Nat) : Nat := (119 - length % 64) % 64

def lengthBytes (length : Nat) : List UInt8 :=
  [7, 6, 5, 4, 3, 2, 1, 0].map fun i =>
    UInt8.ofNat (8 * length / 256 ^ i)

def pad (message : List UInt8) : List UInt8 :=
  message ++ [0x80] ++ List.replicate (zeroCount message.length) 0 ++ lengthBytes message.length

/-- The digest of a message, most significant byte of each word first. -/
def digest (message : List UInt8) : Vector UInt8 32 :=
  let final := chain (pad message) ((pad message).length / 64)
  Vector.ofFn fun index =>
    (final (Fin.ofNat 8 (index.val / 4)) >>> UInt32.ofNat (8 * (3 - index.val % 4))).toUInt8

/-- The keyed hash: the key, or its digest when it is longer than a block, is
filled up with zeros and mixed into the front of both hashes. -/
def hmac (key message : List UInt8) : Vector UInt8 32 :=
  let short := if key.length ≤ 64 then key else (digest key).toList
  let filled := List.ofFn fun i : Fin 64 => short.getD i 0
  digest (filled.map (· ^^^ 0x5c) ++ (digest (filled.map (· ^^^ 0x36) ++ message)).toList)

end LlmRuntime.SecureHash
