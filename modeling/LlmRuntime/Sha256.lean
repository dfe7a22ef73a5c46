import Mathlib

/-!
# SHA-256 and HMAC

The hash of `user/sha256.c`, with its sixteen-word rotating schedule, and the
HMAC of `user/discovery.c` over it.
-/

namespace LlmRuntime

abbrev Digest := Vector UInt8 32

namespace Sha256

def rotRight (word amount : UInt32) : UInt32 := (word >>> amount) ||| (word <<< (32 - amount))

def sig0 (word : UInt32) : UInt32 := rotRight word 7 ^^^ rotRight word 18 ^^^ (word >>> 3)

def sig1 (word : UInt32) : UInt32 := rotRight word 17 ^^^ rotRight word 19 ^^^ (word >>> 10)

def step1 (e f g : UInt32) : UInt32 :=
  (rotRight e 6 ^^^ rotRight e 11 ^^^ rotRight e 25) + ((e &&& f) ^^^ (~~~e &&& g))

def step2 (a b c : UInt32) : UInt32 :=
  (rotRight a 2 ^^^ rotRight a 13 ^^^ rotRight a 22) + ((a &&& b) ^^^ (a &&& c) ^^^ (b &&& c))

def roundConstants : Vector UInt32 64 := #v[
  0x428a2f98, 0x71374491, 0xb5c0fbcf, 0xe9b5dba5,
  0x3956c25b, 0x59f111f1, 0x923f82a4, 0xab1c5ed5,
  0xd807aa98, 0x12835b01, 0x243185be, 0x550c7dc3,
  0x72be5d74, 0x80deb1fe, 0x9bdc06a7, 0xc19bf174,
  0xe49b69c1, 0xefbe4786, 0x0fc19dc6, 0x240ca1cc,
  0x2de92c6f, 0x4a7484aa, 0x5cb0a9dc, 0x76f988da,
  0x983e5152, 0xa831c66d, 0xb00327c8, 0xbf597fc7,
  0xc6e00bf3, 0xd5a79147, 0x06ca6351, 0x14292967,
  0x27b70a85, 0x2e1b2138, 0x4d2c6dfc, 0x53380d13,
  0x650a7354, 0x766a0abb, 0x81c2c92e, 0x92722c85,
  0xa2bfe8a1, 0xa81a664b, 0xc24b8b70, 0xc76c51a3,
  0xd192e819, 0xd6990624, 0xf40e3585, 0x106aa070,
  0x19a4c116, 0x1e376c08, 0x2748774c, 0x34b0bcb5,
  0x391c0cb3, 0x4ed8aa4a, 0x5b9cca4f, 0x682e6ff3,
  0x748f82ee, 0x78a5636f, 0x84c87814, 0x8cc70208,
  0x90befffa, 0xa4506ceb, 0xbef9a3f7, 0xc67178f2]

/-- `SHA256_CTX`.  `datalen` stays below 64: the append that would make it 64
processes the block and resets it. -/
structure Ctx where
  state : Vector UInt32 8
  data : Vector UInt8 64
  bitlen : UInt64
  datalen : Fin 64

/-- Word `index` of a block, in big-endian order. -/
def loadWord (buffer : Vector UInt8 64) (index : Fin 16) : UInt32 :=
  (buffer[4 * index.val].toUInt32 <<< 24) |||
    (buffer[4 * index.val + 1].toUInt32 <<< 16) |||
    (buffer[4 * index.val + 2].toUInt32 <<< 8) |||
    buffer[4 * index.val + 3].toUInt32

/-- `update_m`: the schedule is loaded on the first pass and then advanced in
place, each word reading its neighbours modulo 16. -/
def updateM (m : Vector UInt32 16) (i : Nat) (buffer : Vector UInt8 64) : Vector UInt32 16 :=
  (List.finRange 16).foldl
    (fun m (j : Fin 16) =>
      if i < 16 then m.set j (loadWord buffer j)
      else m.set j (m[j] + (m[j + 9] + sig0 m[j + 1] + sig1 m[j + 14])))
    m

/-- The two halves `lo` and `hi` of the working variables. -/
structure Halves where
  lo : Vector UInt32 4
  hi : Vector UInt32 4

/-- One of the four unrolled rounds.  The source writes it four times with the
places `(a, b, c, d)` rotated by one. -/
def roundAt (a b c d : Fin 4) (constant word : UInt32) (halves : Halves) : Halves :=
  let temp := halves.hi[d] + step1 halves.hi[a] halves.hi[b] halves.hi[c] + constant + word
  { hi := halves.hi.set d (temp + halves.lo[d])
    lo := halves.lo.set d (temp + step2 halves.lo[a] halves.lo[b] halves.lo[c]) }

/-- Four rounds, for the words `j` to `j + 3` of the current schedule. -/
def fourRounds (i j : Fin 4) (m : Vector UInt32 16) (halves : Halves) : Halves :=
  let base := 16 * i.val + 4 * j.val
  let afterFirst := roundAt 0 1 2 3 roundConstants[base] m[4 * j.val] halves
  let afterSecond := roundAt 3 0 1 2 roundConstants[base + 1] m[4 * j.val + 1] afterFirst
  let afterThird := roundAt 2 3 0 1 roundConstants[base + 2] m[4 * j.val + 2] afterSecond
  roundAt 1 2 3 0 roundConstants[base + 3] m[4 * j.val + 3] afterThird

def sha256Block (ctx : Ctx) : Ctx :=
  let lo : Vector UInt32 4 := Vector.ofFn fun i => ctx.state[i.val]
  let hi : Vector UInt32 4 := Vector.ofFn fun i => ctx.state[i.val + 4]
  -- `m` is not initialised by the source; the first pass overwrites it
  let (_, final) :=
    (List.finRange 4).foldl
      (fun (carried : Vector UInt32 16 × Halves) (i : Fin 4) =>
        let m := updateM carried.1 (16 * i.val) ctx.data
        (m, (List.finRange 4).foldl (fun halves (j : Fin 4) => fourRounds i j m halves) carried.2))
      (Vector.replicate 16 0, Halves.mk lo hi)
  { ctx with
    state := Vector.ofFn fun i : Fin 8 =>
      if low : i.val < 4 then ctx.state[i] + final.lo[i.val]
      else ctx.state[i] + final.hi[i.val - 4] }

def sha256AppendByte (ctx : Ctx) (byte : UInt8) : Ctx :=
  let stored :=
    { ctx with
      data := ctx.data.set ctx.datalen byte
      bitlen := ctx.bitlen + 8 }
  if room : ctx.datalen.val + 1 < 64 then
    { stored with datalen := ⟨ctx.datalen.val + 1, room⟩ }
  else sha256Block { stored with datalen := 0 }

/-- `while (ctx->datalen != 56) sha256_append_byte(ctx, 0)`.  At most 63 passes
bring `datalen` from any value round to 56. -/
def padToLength : Nat → Ctx → Ctx
  | 0, ctx => ctx
  | fuel + 1, ctx =>
    if ctx.datalen = 56 then ctx
    else padToLength fuel (sha256AppendByte ctx 0)

def sha256Finalize (ctx : Ctx) : Ctx :=
  let nBits := ctx.bitlen
  let padded := padToLength 63 (sha256AppendByte ctx 0x80)
  [7, 6, 5, 4, 3, 2, 1, 0].foldl
    (fun current (i : UInt64) =>
      sha256AppendByte current (nBits >>> (8 * i)).toUInt8)
    padded

def sha256Init : Ctx where
  state := #v[0x6a09e667, 0xbb67ae85, 0x3c6ef372, 0xa54ff53a,
    0x510e527f, 0x9b05688c, 0x1f83d9ab, 0x5be0cd19]
  data := Vector.replicate 64 0
  bitlen := 0
  datalen := 0

def sha256Update (ctx : Ctx) (bytes : List UInt8) : Ctx := bytes.foldl sha256AppendByte ctx

def sha256Final (ctx : Ctx) : Digest :=
  let final := sha256Finalize ctx
  Vector.ofFn fun index : Fin 32 =>
    (final.state[index.val / 4] >>> UInt32.ofNat (8 * (3 - index.val % 4))).toUInt8

def sha256Hash (bytes : List UInt8) : Digest := sha256Final (sha256Update sha256Init bytes)

end Sha256

open Sha256

/-- `sha256_init` of a context that has been used, or never initialised: `data`
stays. -/
def sha256InitOver (ctx : Ctx) : Ctx := { sha256Init with data := ctx.data }

/-- `hmac_sha256`: the key is zero-padded to the 64-byte block, hashed first
when it is longer.  `hashing` is the context of that hash and `c` that of both
passes, as they are found on the stack. -/
def hmacSha256 (hashing c : Ctx) (key message : List UInt8) : Digest :=
  let shortKey :=
    if key.length > 64 then (sha256Final (sha256Update (sha256InitOver hashing) key)).toList
    else key
  let block : Vector UInt8 64 := Vector.ofFn fun i => shortKey.getD i.val 0
  let c := sha256Update (sha256InitOver c) (block.map fun byte => byte ^^^ 0x36).toList
  let c := sha256Update c message
  let inner := sha256Final c
  -- `sha256_final` leaves the finished context
  let c := sha256InitOver (sha256Finalize c)
  let c := sha256Update c (block.map fun byte => byte ^^^ 0x5c).toList
  sha256Final (sha256Update c inner.toList)

end LlmRuntime
