import Mathlib

/-!
# The primitive routines of `xdr.c`

Every routine goes through one put and one get of a C `long`, of which the low
32 bits come back.  The float routines access the memory at their pointer as
`long`s: eight bytes for a `float`, sixteen for a `double`.
-/

namespace LlmRuntime.XdrMem

open Function

/-- `xdrmem_private`: the buffer has `size` bytes. -/
structure Stream where
  buf : Nat → BitVec 8
  size : Nat
  ptr : Nat

def xdrmemCreate (buf : Nat → BitVec 8) (size : Nat) : Stream where
  buf := buf
  size := size
  ptr := 0

/-- The assignments of `xdrmem_putlong`. -/
def store (buf : Nat → BitVec 8) (ptr : Nat) (l : BitVec 64) : Nat → BitVec 8 :=
  let byte (shift : Nat) := (l.sshiftRight shift &&& 0xff#64).setWidth 8
  let buf := update buf ptr (byte 24)
  let buf := update buf (ptr + 1) (byte 16)
  let buf := update buf (ptr + 2) (byte 8)
  update buf (ptr + 3) (byte 0)

/-- The expression of `xdrmem_getlong`. -/
def load (buf : Nat → BitVec 8) (ptr : Nat) : BitVec 64 :=
  ((buf ptr).setWidth 64 <<< 24) ||| ((buf (ptr + 1)).setWidth 64 <<< 16) |||
    ((buf (ptr + 2)).setWidth 64 <<< 8) ||| (buf (ptr + 3)).setWidth 64

def putlong (l : BitVec 64) (xdrs : Stream) : Bool × Stream :=
  if xdrs.size < xdrs.ptr + 4 then (false, xdrs)
  else
    (true, { xdrs with
        buf := store xdrs.buf xdrs.ptr l
        ptr := xdrs.ptr + 4 })

def getlong (xdrs : Stream) : Option (BitVec 64) × Stream :=
  if xdrs.size < xdrs.ptr + 4 then (none, xdrs)
  else (some (load xdrs.buf xdrs.ptr), { xdrs with ptr := xdrs.ptr + 4 })

/-- The two directions of a routine on the memory that it accesses.  `false` and
`none` are its result 0. -/
structure Routine (α : Type) where
  encode : α → Stream → Bool × Stream
  decode : Stream → Option α × Stream

def viaLong {α : Type} (toLong : α → BitVec 64) (ofLong : BitVec 64 → α) : Routine α where
  encode value xdrs := putlong (toLong value) xdrs
  decode xdrs :=
    match getlong xdrs with
    | (none, xdrs) => (none, xdrs)
    | (some l, xdrs) => (some (ofLong l), xdrs)

/-- A routine that converts to two `long`s and back. -/
def viaLongs {α : Type} (toLongs : α → BitVec 64 × BitVec 64)
    (ofLongs : BitVec 64 × BitVec 64 → α) : Routine α where
  encode value xdrs :=
    match putlong (toLongs value).1 xdrs with
    | (false, xdrs) => (false, xdrs)
    | (true, xdrs) => putlong (toLongs value).2 xdrs
  decode xdrs :=
    match getlong xdrs with
    | (none, xdrs) => (none, xdrs)
    | (some high, xdrs) =>
      match getlong xdrs with
      | (none, xdrs) => (none, xdrs)
      | (some low, xdrs) => (some (ofLongs (high, low)), xdrs)

def xdrBool : Routine Bool := viaLong (fun b => if b then 1 else 0) (fun l => l != 0)

def xdrChar : Routine (BitVec 8) := viaLong (BitVec.setWidth 64) (BitVec.setWidth 8)

def xdrUChar : Routine (BitVec 8) := viaLong (BitVec.setWidth 64) (BitVec.setWidth 8)

def xdrShort : Routine (BitVec 16) := viaLong (BitVec.signExtend 64) (BitVec.setWidth 16)

def xdrUShort : Routine (BitVec 16) := viaLong (BitVec.setWidth 64) (BitVec.setWidth 16)

def xdrInt : Routine (BitVec 32) := viaLong (BitVec.signExtend 64) (BitVec.setWidth 32)

def xdrUInt : Routine (BitVec 32) := viaLong (BitVec.setWidth 64) (BitVec.setWidth 32)

def xdrLong : Routine (BitVec 64) := viaLong id id

def xdrULong : Routine (BitVec 64) := viaLong id id

def xdrHyper : Routine (BitVec 64) :=
  viaLongs (fun ll => (ll.sshiftRight 32, ll)) (fun t => (t.1 <<< 32) ||| (t.2 &&& 0xffffffff#64))

def xdrUHyper : Routine (BitVec 64) := xdrHyper

/-- The `long` at the address of the float. -/
def xdrFloat : Routine (BitVec 64) := viaLong id id

/-- The two `long`s at the address of the double. -/
def xdrDouble : Routine (BitVec 64 × BitVec 64) := viaLongs id id

def xdrEnum : Routine (BitVec 32) := viaLong (BitVec.signExtend 64) (BitVec.setWidth 32)

inductive Kind where
  | bool | char | uChar | short | uShort | int | uInt | long | uLong
  | hyper | uHyper | float | double | enum
  deriving DecidableEq, Repr

namespace Kind

abbrev Memory : Kind → Type
  | bool => Bool
  | char | uChar => BitVec 8
  | short | uShort => BitVec 16
  | int | uInt | enum => BitVec 32
  | long | uLong | hyper | uHyper | float => BitVec 64
  | double => BitVec 64 × BitVec 64

abbrev Value : Kind → Type
  | bool => Bool
  | char | uChar => BitVec 8
  | short | uShort => BitVec 16
  | int | uInt | enum | float => BitVec 32
  | long | uLong | hyper | uHyper | double => BitVec 64

/-- A float is the low half of its `long`, a double the first of the two. -/
def value : (kind : Kind) → kind.Memory → kind.Value
  | float, memory => memory.setWidth 32
  | double, memory => memory.1
  | bool, memory => memory
  | char, memory | uChar, memory => memory
  | short, memory | uShort, memory => memory
  | int, memory | uInt, memory | enum, memory => memory
  | long, memory | uLong, memory => memory
  | hyper, memory | uHyper, memory => memory

def routine : (kind : Kind) → Routine kind.Memory
  | bool => xdrBool
  | char => xdrChar
  | uChar => xdrUChar
  | short => xdrShort
  | uShort => xdrUShort
  | int => xdrInt
  | uInt => xdrUInt
  | long => xdrLong
  | uLong => xdrULong
  | hyper => xdrHyper
  | uHyper => xdrUHyper
  | float => xdrFloat
  | double => xdrDouble
  | enum => xdrEnum

def width : Kind → Nat
  | hyper | uHyper | double => 8
  | _ => 4

end Kind

abbrev Object := (kind : Kind) × kind.Memory

abbrev Typed := (kind : Kind) × kind.Value

def Object.value (object : Object) : Typed :=
  ⟨object.1, object.1.value object.2⟩

/-- Encode the objects in order, as long as the results are 1. -/
def encodeAll : List Object → Stream → Bool × Stream
  | [], xdrs => (true, xdrs)
  | object :: rest, xdrs =>
    match object.1.routine.encode object.2 xdrs with
    | (false, xdrs) => (false, xdrs)
    | (true, xdrs) => encodeAll rest xdrs

/-- Decode objects of the types in order, as long as the results are 1. -/
def decodeAll : List Kind → Stream → Option (List Object) × Stream
  | [], xdrs => (some [], xdrs)
  | kind :: rest, xdrs =>
    match kind.routine.decode xdrs with
    | (none, xdrs) => (none, xdrs)
    | (some memory, xdrs) =>
      match decodeAll rest xdrs with
      | (none, xdrs) => (none, xdrs)
      | (some objects, xdrs) => (some (⟨kind, memory⟩ :: objects), xdrs)

/-- What the wire keeps of a `long`. -/
def low (l : BitVec 64) : BitVec 64 := (l.setWidth 32).setWidth 64

theorem getLsbD_low (l : BitVec 64) (i : Nat) :
    (low l).getLsbD i = (decide (i < 32) && l.getLsbD i) := by
  rw [low, BitVec.getLsbD_setWidth, BitVec.getLsbD_setWidth]
  by_cases small : i < 32
  · have inside : i < 64 := by omega
    simp [small, inside]
  · simp [small]

theorem low_eq_self_iff (l : BitVec 64) : low l = l ↔ l.toNat < 2 ^ 32 := by
  rw [low, ← BitVec.toNat_inj, BitVec.toNat_setWidth, BitVec.toNat_setWidth]
  omega

theorem getLsbD_byte (l : BitVec 64) (shift i : Nat) (fits : shift ≤ 24) :
    ((l.sshiftRight shift &&& 0xff#64).setWidth 8).getLsbD i =
      (decide (i < 8) && l.getLsbD (shift + i)) := by
  by_cases inByte : i < 8
  · have inLong : shift + i < 64 := by omega
    have inMask : (0xff#64).getLsbD i = true := by
      interval_cases i <;> rfl
    rw [BitVec.getLsbD_setWidth, BitVec.getLsbD_and, inMask, BitVec.getLsbD_sshiftRight]
    have early : ¬ 64 ≤ i := by omega
    simp [inByte, inLong, early]
  · rw [BitVec.getLsbD_setWidth, decide_eq_false inByte, Bool.false_and, Bool.false_and]

theorem store_eq (buf : Nat → BitVec 8) (ptr : Nat) (l : BitVec 64) :
    (store buf ptr l ptr = (l.sshiftRight 24 &&& 0xff#64).setWidth 8 ∧
        store buf ptr l (ptr + 1) = (l.sshiftRight 16 &&& 0xff#64).setWidth 8) ∧
      store buf ptr l (ptr + 2) = (l.sshiftRight 8 &&& 0xff#64).setWidth 8 ∧
        store buf ptr l (ptr + 3) = (l.sshiftRight 0 &&& 0xff#64).setWidth 8 := by
  simp [store]

theorem store_of_lt (buf : Nat → BitVec 8) (l : BitVec 64) {ptr i : Nat}
    (before : i < ptr) : store buf ptr l i = buf i := by
  rw [store, update_of_ne (by omega), update_of_ne (by omega),
    update_of_ne (by omega), update_of_ne (by omega)]

theorem load_congr {buf other : Nat → BitVec 8} {ptr : Nat}
    (same : ∀ i, ptr ≤ i → i < ptr + 4 → buf i = other i) :
    load buf ptr = load other ptr := by
  rw [load, load, same ptr le_rfl (by omega), same (ptr + 1) (by omega) (by omega),
    same (ptr + 2) (by omega) (by omega), same (ptr + 3) (by omega) (by omega)]

/-- The four bytes keep the low 32 bits. -/
theorem load_store (buf : Nat → BitVec 8) (ptr : Nat) (l : BitVec 64) :
    load (store buf ptr l) ptr = low l := by
  obtain ⟨⟨first, second⟩, third, fourth⟩ := store_eq buf ptr l
  rw [load, first, second, third, fourth]
  apply BitVec.eq_of_getLsbD_eq
  intro i inLong
  simp only [BitVec.getLsbD_or, BitVec.getLsbD_shiftLeft]
  rw [getLsbD_low, BitVec.getLsbD_setWidth 64, BitVec.getLsbD_setWidth 64,
    BitVec.getLsbD_setWidth 64, BitVec.getLsbD_setWidth 64, getLsbD_byte l 24 _ (by omega),
    getLsbD_byte l 16 _ (by omega), getLsbD_byte l 8 _ (by omega), getLsbD_byte l 0 _ (by omega)]
  -- the bit comes from the byte it lies in
  by_cases inFourth : i < 8
  · have inThird : i < 16 := by omega
    have inSecond : i < 24 := by omega
    have inWord : i < 32 := by omega
    simp [inFourth, inThird, inSecond, inWord, inLong]
  by_cases inThird : i < 16
  · have inSecond : i < 24 := by omega
    have inWord : i < 32 := by omega
    have place : 8 + (i - 8) = i := by omega
    have offset : i - 8 < 8 := by omega
    have inRange : i - 8 < 64 := by omega
    simp [inFourth, inThird, inSecond, inWord, inLong, place, offset, inRange]
  by_cases inSecond : i < 24
  · have inWord : i < 32 := by omega
    have place : 16 + (i - 16) = i := by omega
    have offset : i - 16 < 8 := by omega
    have behind : ¬ i - 8 < 8 := by omega
    have inRange : i - 16 < 64 := by omega
    simp [inFourth, inThird, inSecond, inWord, inLong, place, offset, behind, inRange]
  by_cases inWord : i < 32
  · have place : 24 + (i - 24) = i := by omega
    have offset : i - 24 < 8 := by omega
    have behind : ¬ i - 8 < 8 := by omega
    have farBehind : ¬ i - 16 < 8 := by omega
    have inRange : i - 24 < 64 := by omega
    simp [inFourth, inThird, inSecond, inWord, inLong, place, offset, behind, farBehind, inRange]
  · have afterThird : ¬ i - 8 < 8 := by omega
    have afterSecond : ¬ i - 16 < 8 := by omega
    have afterFirst : ¬ i - 24 < 8 := by omega
    simp [inFourth, inWord, afterThird, afterSecond, afterFirst]

/-- `later` has `width` more bytes and the same ones before them. -/
structure Extends (xdrs later : Stream) (width : Nat) : Prop where
  fits : xdrs.ptr + width ≤ xdrs.size
  size : later.size = xdrs.size
  ptr : later.ptr = xdrs.ptr + width
  before : ∀ i, i < xdrs.ptr → later.buf i = xdrs.buf i

variable {xdrs later other middle : Stream} {objects : List Object}

theorem Extends.trans {first second : Nat} (firstPart : Extends xdrs middle first)
    (secondPart : Extends middle later second) :
    Extends xdrs later (first + second) where
  fits := by
    have fits := secondPart.fits
    rw [firstPart.size, firstPart.ptr] at fits
    omega
  size := secondPart.size.trans firstPart.size
  ptr := by
    rw [secondPart.ptr, firstPart.ptr, Nat.add_assoc]
  before := by
    intro i isBefore
    rw [secondPart.before i (by rw [firstPart.ptr]; omega), firstPart.before i isBefore]

/-- `other` is at the place of `xdrs` and holds what came after it in
`later`. -/
structure Replays (xdrs later other : Stream) : Prop where
  size : other.size = xdrs.size
  ptr : other.ptr = xdrs.ptr
  same : ∀ i, xdrs.ptr ≤ i → i < later.ptr → other.buf i = later.buf i

def Stream.goTo (xdrs : Stream) (ptr : Nat) : Stream :=
  { xdrs with ptr := ptr }

theorem Replays.first {second : Nat} (replays : Replays xdrs later other)
    (secondPart : Extends middle later second) :
    Replays xdrs middle other where
  size := replays.size
  ptr := replays.ptr
  same := by
    intro i fromPtr inFirst
    have ptr := secondPart.ptr
    rw [replays.same i fromPtr (by omega), secondPart.before i inFirst]

theorem Replays.second {first : Nat} (replays : Replays xdrs later other)
    (firstPart : Extends xdrs middle first) :
    Replays middle later (other.goTo middle.ptr) where
  size := replays.size.trans firstPart.size.symm
  ptr := rfl
  same := by
    intro i fromPtr inLater
    have ptr := firstPart.ptr
    exact replays.same i (by omega) inLater

/-- The routine puts `width` bytes and gets back what `wire` makes of the value;
without room for them it gives up inside the buffer. -/
structure Routine.Lawful {α : Type} (routine : Routine α) (width : Nat) (wire : α → α) : Prop where
  encodes : ∀ value xdrs later, routine.encode value xdrs = (true, later) → Extends xdrs later width
  decodes :
    ∀ value xdrs later other, routine.encode value xdrs = (true, later) →
      Replays xdrs later other → routine.decode other = (some (wire value), other.goTo later.ptr)
  encodeBound :
    ∀ value xdrs, xdrs.ptr ≤ xdrs.size →
      (xdrs.size < xdrs.ptr + width → (routine.encode value xdrs).1 = false) ∧
        (routine.encode value xdrs).2.size = xdrs.size ∧
        (routine.encode value xdrs).2.ptr ≤ xdrs.size
  decodeBound :
    ∀ xdrs, xdrs.ptr ≤ xdrs.size →
      (xdrs.size < xdrs.ptr + width → (routine.decode xdrs).1 = none) ∧
        (routine.decode xdrs).2.size = xdrs.size ∧
        (routine.decode xdrs).2.ptr ≤ xdrs.size

theorem putlong_cases (l : BitVec 64) (xdrs : Stream) :
    (xdrs.size < xdrs.ptr + 4 ∧ putlong l xdrs = (false, xdrs)) ∨
      (xdrs.ptr + 4 ≤ xdrs.size ∧
        ∃ later,
          putlong l xdrs = (true, later) ∧ Extends xdrs later 4 ∧
            ∀ other, Replays xdrs later other → load other.buf xdrs.ptr = low l) := by
  rw [putlong]
  split_ifs with full
  · exact .inl ⟨full, rfl⟩
  · right
    refine ⟨not_lt.mp full, _, rfl, ⟨not_lt.mp full, rfl, rfl, ?_⟩, ?_⟩
    · intro i isBefore
      exact store_of_lt xdrs.buf l isBefore
    · intro other replays
      rw [load_congr fun i fromPtr inWord =>
        replays.same i fromPtr inWord, load_store]

theorem getlong_cases (xdrs : Stream) :
    (xdrs.size < xdrs.ptr + 4 ∧ getlong xdrs = (none, xdrs)) ∨
      (xdrs.ptr + 4 ≤ xdrs.size ∧
        getlong xdrs = (some (load xdrs.buf xdrs.ptr), xdrs.goTo (xdrs.ptr + 4))) := by
  rw [getlong]
  split_ifs with full
  · exact .inl ⟨full, rfl⟩
  · exact .inr ⟨not_lt.mp full, rfl⟩

theorem getlong_of_putlong {l : BitVec 64} (put : putlong l xdrs = (true, later))
    (replays : Replays xdrs later other) :
    getlong other = (some (low l), other.goTo later.ptr) := by
  rcases putlong_cases l xdrs with ⟨-, refused⟩ | ⟨fits, done, isDone, extended, loads⟩
  · rw [refused] at put
    cases put
  rw [isDone] at put
  cases put
  rcases getlong_cases other with ⟨full, -⟩ | ⟨-, got⟩
  · rw [replays.ptr, replays.size] at full
    omega
  · rw [got, replays.ptr, loads other replays, extended.ptr]

section Lawful

variable {α : Type}

theorem viaLong_lawful (toLong : α → BitVec 64) (ofLong : BitVec 64 → α) :
    (viaLong toLong ofLong).Lawful 4 fun value => ofLong (low (toLong value)) where
  encodes := by
    intro value xdrs later put
    change putlong (toLong value) xdrs = _ at put
    rcases putlong_cases (toLong value) xdrs with ⟨-, refused⟩ | ⟨-, done, isDone, extended, -⟩
    · rw [refused] at put
      cases put
    · rw [isDone] at put
      cases put
      exact extended
  decodes := by
    intro value xdrs later other put replays
    simp only [viaLong, getlong_of_putlong put replays]
  encodeBound := by
    intro value xdrs inside
    change
      (_ → (putlong (toLong value) xdrs).1 = false) ∧
        (putlong (toLong value) xdrs).2.size = xdrs.size ∧
        (putlong (toLong value) xdrs).2.ptr ≤ xdrs.size
    rcases putlong_cases (toLong value) xdrs with ⟨-, refused⟩ | ⟨fits, done, isDone, extended, -⟩
    · rw [refused]
      exact ⟨fun _ => rfl, rfl, inside⟩
    · rw [isDone]
      refine ⟨fun full => ?_, extended.size, ?_⟩
      · omega
      · rw [extended.ptr]
        exact fits
  decodeBound := by
    intro xdrs inside
    rcases getlong_cases xdrs with ⟨-, refused⟩ | ⟨fits, got⟩
    · simp only [viaLong, refused]
      exact ⟨fun _ => trivial, trivial, inside⟩
    · simp only [viaLong, got]
      refine ⟨fun full => ?_, rfl, fits⟩
      omega

theorem viaLongs_lawful (toLongs : α → BitVec 64 × BitVec 64)
    (ofLongs : BitVec 64 × BitVec 64 → α) :
    (viaLongs toLongs ofLongs).Lawful 8
      fun value =>
        ofLongs (low (toLongs value).1, low (toLongs value).2) := by
  -- a success is two puts
  have twoPuts
      {value : α} {xdrs later : Stream}
      (put : (viaLongs toLongs ofLongs).encode value xdrs = (true, later)) :
      ∃ middle,
        putlong (toLongs value).1 xdrs = (true, middle) ∧
          putlong (toLongs value).2 middle = (true, later) ∧
          Extends xdrs middle 4 ∧ Extends middle later 4 := by
    rcases putlong_cases (toLongs value).1 xdrs with
      ⟨-, refused⟩ | ⟨-, middle, isMiddle, firstPart, -⟩
    · simp only [viaLongs, refused] at put
      cases put
    simp only [viaLongs, isMiddle] at put
    rcases putlong_cases (toLongs value).2 middle with
      ⟨-, refused⟩ | ⟨-, done, isDone, secondPart, -⟩
    · rw [refused] at put
      cases put
    · rw [isDone] at put
      cases put
      exact ⟨middle, isMiddle, isDone, firstPart, secondPart⟩
  constructor
  · intro value xdrs later put
    obtain ⟨middle, -, -, firstPart, secondPart⟩ := twoPuts put
    exact firstPart.trans secondPart
  · intro value xdrs later other put replays
    obtain ⟨middle, firstPut, secondPut, firstPart, secondPart⟩ := twoPuts put
    have firstGot := getlong_of_putlong firstPut (replays.first secondPart)
    have secondGot := getlong_of_putlong secondPut (replays.second firstPart)
    simp only [viaLongs, firstGot, secondGot]
    rfl
  · intro value xdrs inside
    rcases putlong_cases (toLongs value).1 xdrs with
      ⟨-, refused⟩ | ⟨fits, middle, isMiddle, firstPart, -⟩
    · simp only [viaLongs, refused]
      exact ⟨fun _ => trivial, trivial, inside⟩
    simp only [viaLongs, isMiddle]
    have size := firstPart.size
    have ptr := firstPart.ptr
    rcases putlong_cases (toLongs value).2 middle with
      ⟨-, refused⟩ | ⟨fitsToo, done, isDone, secondPart, -⟩
    · rw [refused]
      refine ⟨fun _ => rfl, size, ?_⟩
      rw [ptr]
      exact fits
    · rw [isDone]
      refine ⟨fun full => ?_, secondPart.size.trans size, ?_⟩
      · omega
      · rw [secondPart.ptr]
        omega
  · intro xdrs inside
    rcases getlong_cases xdrs with ⟨-, refused⟩ | ⟨fits, got⟩
    · simp only [viaLongs, refused]
      exact ⟨fun _ => trivial, trivial, inside⟩
    simp only [viaLongs, got]
    rcases getlong_cases (xdrs.goTo (xdrs.ptr + 4)) with ⟨-, refused⟩ | ⟨fitsToo, gotToo⟩
    · simp only [refused]
      exact ⟨fun _ => trivial, rfl, fits⟩
    · change xdrs.ptr + 4 + 4 ≤ xdrs.size at fitsToo
      simp only [gotToo]
      refine ⟨fun full => ?_, rfl, fitsToo⟩
      omega

end Lawful

/-! ## The laws of the types -/

/-- A value that the wire can carry. -/
def Kind.Fits : (kind : Kind) → kind.Memory → Prop
  | .long, l | .uLong, l => l.toNat < 2 ^ 32
  | .double, memory => memory.1.toNat < 2 ^ 32
  | _, _ => True

theorem setWidth_low_setWidth {n : Nat} (short : n ≤ 32) (value : BitVec n) :
    (low (value.setWidth 64)).setWidth n = value := by
  apply BitVec.eq_of_getLsbD_eq
  intro i inside
  have inWord : i < 32 := by omega
  have inLong : i < 64 := by omega
  rw [BitVec.getLsbD_setWidth, getLsbD_low, BitVec.getLsbD_setWidth]
  simp [inside, inWord, inLong]

theorem setWidth_low_signExtend {n : Nat} (short : n ≤ 32) (value : BitVec n) :
    (low (value.signExtend 64)).setWidth n = value := by
  apply BitVec.eq_of_getLsbD_eq
  intro i inside
  have inWord : i < 32 := by omega
  have inLong : i < 64 := by omega
  rw [BitVec.getLsbD_setWidth, getLsbD_low, BitVec.getLsbD_signExtend]
  simp [inside, inWord, inLong]

theorem hyper_low (ll : BitVec 64) :
    (low (ll.sshiftRight 32) <<< 32) ||| (low ll &&& 0xffffffff#64) = ll := by
  apply BitVec.eq_of_getLsbD_eq
  intro i inLong
  have mask : (0xffffffff#64).getLsbD i = decide (i < 32) := by
    have isMask : 0xffffffff#64 = (BitVec.allOnes 32).setWidth 64 := rfl
    rw [isMask, BitVec.getLsbD_setWidth, BitVec.getLsbD_allOnes]
    simp [inLong]
  rw [BitVec.getLsbD_or, BitVec.getLsbD_shiftLeft, BitVec.getLsbD_and, mask,
    getLsbD_low, getLsbD_low, BitVec.getLsbD_sshiftRight]
  by_cases inLow : i < 32
  · simp [inLow, inLong]
  · have place : 32 + (i - 32) = i := by omega
    have inHigh : i - 32 < 32 := by omega
    have early : ¬ 64 ≤ i - 32 := by omega
    simp [inLow, inLong, place, inHigh, early]

theorem xdrHyper_lawful :
    xdrHyper.Lawful 8 fun ll =>
      (low (ll.sshiftRight 32) <<< 32) ||| (low ll &&& 0xffffffff#64) :=
  viaLongs_lawful (fun ll => (ll.sshiftRight 32, ll))
    (fun t => (t.1 <<< 32) ||| (t.2 &&& 0xffffffff#64))

theorem Kind.lawful (kind : Kind) :
    ∃ wire : kind.Memory → kind.Memory,
      kind.routine.Lawful kind.width wire ∧
        ∀ memory, kind.value (wire memory) = kind.value memory ↔ kind.Fits memory := by
  cases kind with
  | bool =>
    refine ⟨_, viaLong_lawful _ _, fun memory => ?_⟩
    simp only [Kind.value, Kind.Fits, iff_true]
    cases memory with
    | false => decide
    | true => decide
  | char | uChar | uShort | uInt =>
    refine ⟨_, viaLong_lawful _ _, fun memory => ?_⟩
    exact iff_true_intro (setWidth_low_setWidth (by omega) memory)
  | short | int | enum =>
    refine ⟨_, viaLong_lawful _ _, fun memory => ?_⟩
    exact iff_true_intro (setWidth_low_signExtend (by omega) memory)
  | long | uLong => exact ⟨_, viaLong_lawful _ _, fun memory => low_eq_self_iff memory⟩
  | hyper | uHyper =>
    refine ⟨_, xdrHyper_lawful, fun memory => ?_⟩
    exact iff_true_intro (hyper_low memory)
  | float =>
    refine ⟨_, viaLong_lawful _ _, fun memory => ?_⟩
    apply iff_true_intro
    apply BitVec.eq_of_getLsbD_eq
    intro i inWord
    change ((low memory).setWidth 32).getLsbD i = _
    rw [Kind.value, BitVec.getLsbD_setWidth, getLsbD_low, BitVec.getLsbD_setWidth]
    simp [inWord]
  | double => exact ⟨_, viaLongs_lawful _ _, fun memory => low_eq_self_iff memory.1⟩

theorem encodeAll_cons {object : Object} {rest : List Object}
    (encoded : encodeAll (object :: rest) xdrs = (true, later)) :
    ∃ middle,
      object.1.routine.encode object.2 xdrs = (true, middle) ∧
        encodeAll rest middle = (true, later) := by
  rw [encodeAll] at encoded
  rcases head : object.1.routine.encode object.2 xdrs with ⟨done, middle⟩
  rw [head] at encoded
  cases done with
  | false => cases encoded
  | true => exact ⟨middle, rfl, encoded⟩

theorem encodeAll_extends (inside : xdrs.ptr ≤ xdrs.size)
    (encoded : encodeAll objects xdrs = (true, later)) :
    ∃ width, Extends xdrs later width := by
  induction objects generalizing xdrs with
  | nil =>
    cases encoded
    exact ⟨0, inside, rfl, rfl, fun _ _ => rfl⟩
  | cons object rest ih =>
    obtain ⟨middle, head, tail⟩ := encodeAll_cons encoded
    obtain ⟨wire, lawful, -⟩ := object.1.lawful
    have firstPart := lawful.encodes _ _ _ head
    have middleInside : middle.ptr ≤ middle.size := by
      rw [firstPart.ptr, firstPart.size]
      exact firstPart.fits
    obtain ⟨width, secondPart⟩ := ih middleInside tail
    exact ⟨_, firstPart.trans secondPart⟩

/-- Decoding what was encoded succeeds and ends where the encoding ended; the
values are the same if and only if the wire can carry all of them. -/
theorem decodeAll_encodeAll (inside : xdrs.ptr ≤ xdrs.size)
    (encoded : encodeAll objects xdrs = (true, later)) (replays : Replays xdrs later other) :
    ∃ decoded,
      decodeAll (objects.map Sigma.fst) other = (some decoded, other.goTo later.ptr) ∧
        (decoded.map Object.value = objects.map Object.value ↔
          ∀ object ∈ objects, object.1.Fits object.2) := by
  induction objects generalizing xdrs other with
  | nil =>
    cases encoded
    refine ⟨[], ?_, by simp⟩
    rw [List.map_nil, decodeAll, ← replays.ptr]
    rfl
  | cons object rest ih =>
    obtain ⟨middle, head, tail⟩ := encodeAll_cons encoded
    obtain ⟨wire, lawful, carries⟩ := object.1.lawful
    have firstPart := lawful.encodes _ _ _ head
    have middleInside : middle.ptr ≤ middle.size := by
      rw [firstPart.ptr, firstPart.size]
      exact firstPart.fits
    obtain ⟨width, secondPart⟩ := encodeAll_extends middleInside tail
    have headDecoded := lawful.decodes _ _ _ _ head (replays.first secondPart)
    obtain ⟨decoded, tailDecoded, sameTail⟩ := ih middleInside tail (replays.second firstPart)
    refine ⟨⟨object.1, wire object.2⟩ :: decoded, ?_, ?_⟩
    · rw [List.map_cons, decodeAll, headDecoded]
      dsimp only
      rw [tailDecoded]
      rfl
    · have sameHead :
          Object.value ⟨object.1, wire object.2⟩ = object.value ↔ object.1.Fits object.2 := by
        rw [← carries, Object.value, Object.value, Sigma.mk.injEq]
        simp
      rw [List.map_cons, List.map_cons, List.cons.injEq, sameHead, sameTail, List.forall_mem_cons]

/-- The decoding of a list of types gives back the values, and ends at the
position where the encoding ended. -/
def DecodesBack (objects : List Object) (encoded : Stream) : Prop :=
  ∃ decoded later,
    decodeAll (objects.map Sigma.fst)
        (xdrmemCreate encoded.buf encoded.size) = (some decoded, later) ∧
      decoded.map Object.value = objects.map Object.value ∧
      later.ptr = encoded.ptr

/-- A routine on a stream with too little room returns 0, and none leaves the
buffer. -/
def StaysInBuffer (kind : Kind) (xdrs : Stream) : Prop :=
  (∀ memory, (xdrs.size < xdrs.ptr + kind.width →
        (kind.routine.encode memory xdrs).1 = false) ∧
      (kind.routine.encode memory xdrs).2.ptr ≤ (kind.routine.encode memory xdrs).2.size) ∧
    (xdrs.size < xdrs.ptr + kind.width → (kind.routine.decode xdrs).1 = none) ∧
      (kind.routine.decode xdrs).2.ptr ≤ (kind.routine.decode xdrs).2.size

theorem staysInBuffer (kind : Kind) (inside : xdrs.ptr ≤ xdrs.size) : StaysInBuffer kind xdrs := by
  obtain ⟨wire, lawful, -⟩ := kind.lawful
  refine ⟨fun memory => ?_, ?_⟩
  · obtain ⟨refuses, size, bound⟩ := lawful.encodeBound memory xdrs inside
    rw [size]
    exact ⟨refuses, bound⟩
  · obtain ⟨refuses, size, bound⟩ := lawful.decodeBound xdrs inside
    rw [size]
    exact ⟨refuses, bound⟩

theorem decodesBack_iff {buf : Nat → BitVec 8} {size : Nat} {encoded : Stream}
    (success : encodeAll objects (xdrmemCreate buf size) = (true, encoded)) :
    DecodesBack objects encoded ↔ ∀ object ∈ objects, object.1.Fits object.2 := by
  have inside : (xdrmemCreate buf size).ptr ≤ (xdrmemCreate buf size).size := Nat.zero_le size
  obtain ⟨width, extended⟩ := encodeAll_extends inside success
  have replays : Replays (xdrmemCreate buf size) encoded (xdrmemCreate encoded.buf encoded.size) :=
    ⟨extended.size, rfl, fun _ _ _ => rfl⟩
  obtain ⟨decoded, isDecoded, sameValues⟩ := decodeAll_encodeAll inside success replays
  rw [← sameValues, DecodesBack, isDecoded]
  constructor
  · rintro ⟨others, later, isOther, same, -⟩
    cases isOther
    exact same
  · intro same
    exact ⟨decoded, _, rfl, same, rfl⟩

/-- The primitives round-trip a list that has been encoded if and only if each
`long`, `unsigned long` and `double` in it is below 2^32 as a bit pattern; and
they never leave the buffer. -/
theorem primitives_roundTrip_iff {buf : Nat → BitVec 8} {size : Nat} {objects : List Object}
    {encoded : Stream} (success : encodeAll objects (xdrmemCreate buf size) = (true, encoded)) :
    (DecodesBack objects encoded ↔ ∀ object ∈ objects, object.1.Fits object.2) ∧
      ∀ (kind : Kind) (xdrs : Stream), xdrs.ptr ≤ xdrs.size → StaysInBuffer kind xdrs :=
  ⟨decodesBack_iff success, fun kind _ inside => staysInBuffer kind inside⟩

/-- An int, a negative short, a hyper, and a `long` and a `double` that fit. -/
def smallObjects : List Object :=
  [⟨.int, 42⟩, ⟨.short, 0xffff⟩, ⟨.hyper, 0x100000002⟩, ⟨.long, 12345⟩, ⟨.double, (7, 0)⟩]

/-- Encode the objects in a buffer of 64 zero bytes. -/
def encodeFresh (objects : List Object) : Bool × Stream :=
  encodeAll objects (xdrmemCreate (fun _ => 0) 64)

theorem primitives_roundTrip_smallObjects :
    (encodeFresh smallObjects).1 = true ∧
      DecodesBack smallObjects (encodeFresh smallObjects).2 := by
  have success :
      encodeAll smallObjects (xdrmemCreate (fun _ => 0) 64) =
        (true, (encodeFresh smallObjects).2) :=
    rfl
  refine ⟨rfl, (primitives_roundTrip_iff success).1.2 ?_⟩
  simp [smallObjects, Kind.Fits]

/-- Decode the objects again from the start of that buffer. -/
def decodeFresh (objects : List Object) : Option (List Object) :=
  (decodeAll (objects.map Sigma.fst) (xdrmemCreate (encodeFresh objects).2.buf 64)).1

/-- `-1` as a `long` comes back as 4294967295, and the double `1.0` as `0.0`. -/
theorem negativeLong_lost :
    ((encodeFresh [⟨.long, -1⟩]).1 = true ∧
        decodeFresh [⟨.long, -1⟩] = some [⟨.long, 0xffffffff⟩] ∧
        ¬ DecodesBack [⟨.long, -1⟩] (encodeFresh [⟨.long, -1⟩]).2) ∧
      (encodeFresh [⟨.double, (0x3ff0000000000000, 0)⟩]).1 = true ∧
        decodeFresh [⟨.double, (0x3ff0000000000000, 0)⟩] = some [⟨.double, (0, 0)⟩] ∧
        ¬ DecodesBack [⟨.double, (0x3ff0000000000000, 0)⟩]
          (encodeFresh [⟨.double, (0x3ff0000000000000, 0)⟩]).2 := by
  refine ⟨⟨rfl, rfl, fun back => ?_⟩, rfl, rfl, fun back => ?_⟩
  · have success :
        encodeAll [⟨.long, -1⟩] (xdrmemCreate (fun _ => 0) 64) =
          (true, (encodeFresh [⟨.long, -1⟩]).2) :=
      rfl
    have fits : (-1 : BitVec 64).toNat < 2 ^ 32 :=
      (decodesBack_iff success).1 back _ (List.mem_singleton_self _)
    exact absurd fits (by decide)
  · have success :
        encodeAll [⟨.double, (0x3ff0000000000000, 0)⟩] (xdrmemCreate (fun _ => 0) 64) =
          (true, (encodeFresh [⟨.double, (0x3ff0000000000000, 0)⟩]).2) :=
      rfl
    have fits : (0x3ff0000000000000 : BitVec 64).toNat < 2 ^ 32 :=
      (decodesBack_iff success).1 back _ (List.mem_singleton_self _)
    exact absurd fits (by decide)

end LlmRuntime.XdrMem
