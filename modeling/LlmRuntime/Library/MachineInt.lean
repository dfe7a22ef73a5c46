import Mathlib

/-!
# Integers of a fixed width

A machine integer is an integer together with the reduction that a C expression
of its type applies to every result.  In the second part arithmetic faults
instead, and a run is the list of the cells that it touches.
-/

namespace LlmRuntime.MachineInt

/-- Two's complement in 32 bits, for an `int`. -/
def int32 (value : Int) : Int := Int.bmod value (2 ^ 32)

/-- The residue in 64 bits, for an unsigned integer or an address. -/
def uint64 (value : Int) : Int := value % 2 ^ 64

/-- The integer next to `value` that a `float` holds, ties to even. -/
def roundFloat32 (value : Int) : Int :=
  let size := value.natAbs
  let shift := Nat.log2 size - 23
  let kept := size / 2 ^ shift
  let lost := size % 2 ^ shift
  let rounded :=
    if 2 * lost > 2 ^ shift ∨ 2 * lost = 2 ^ shift ∧ kept % 2 = 1 then (kept + 1) * 2 ^ shift
    else kept * 2 ^ shift
  if value < 0 then -(rounded : Int) else rounded

theorem int32_eq_self_iff (value : Int) :
    int32 value = value ↔ -2 ^ 31 ≤ value ∧ value < 2 ^ 31 := by
  unfold int32 Int.bmod
  dsimp only
  split_ifs <;> omega

theorem int32_natCast {value : Nat} (small : value < 2 ^ 31) : int32 (value : Int) = value :=
  (int32_eq_self_iff _).mpr (by omega)

theorem int32_mul {left right : Nat} (small : left * right < 2 ^ 31) :
    int32 ((left : Int) * (right : Int)) = ((left * right : Nat) : Int) := by
  rw [← Int.natCast_mul]
  exact int32_natCast small

theorem uint64_natCast {value : Nat} (small : value < 2 ^ 64) : uint64 (value : Int) = value := by
  unfold uint64
  omega

theorem uint64_add {left right : Nat} (small : left + right < 2 ^ 64) :
    uint64 ((left : Int) + (right : Int)) = ((left + right : Nat) : Int) := by
  rw [← Int.natCast_add]
  exact uint64_natCast small

theorem uint64_mul {left right : Nat} (small : left * right < 2 ^ 64) :
    uint64 ((left : Int) * (right : Int)) = ((left * right : Nat) : Int) := by
  rw [← Int.natCast_mul]
  exact uint64_natCast small

theorem uint32_natCast {value : Nat} (small : value < 2 ^ 32) :
    (UInt32.ofInt (value : Int)).toNat = value := by
  unfold UInt32.ofInt
  rw [UInt32.toNat_ofNat']
  omega

theorem uint32_toNat_eq_iff {value : Int} (small : value < 2 ^ 32) :
    ((UInt32.ofInt value).toNat : Int) = value ↔ 0 ≤ value := by
  constructor
  · intro same
    rw [← same]
    exact Int.natCast_nonneg _
  · intro positive
    obtain ⟨natural, rfl⟩ := Int.eq_ofNat_of_zero_le positive
    rw [uint32_natCast (by omega)]

inductive IntFault where
  | overflow
  | divisionByZero
  deriving DecidableEq, Repr

def mulInt (left right : Int) : Except IntFault Int :=
  if int32 (left * right) = left * right then .ok (left * right)
  else .error .overflow

def divInt (left right : Int) : Except IntFault Int :=
  if right = 0 then .error .divisionByZero
  else if int32 (Int.tdiv left right) = Int.tdiv left right then .ok (Int.tdiv left right)
  else .error .overflow

def modInt (left right : Int) : Except IntFault Int :=
  if right = 0 then .error .divisionByZero else .ok (Int.tmod left right)

theorem mulInt_natCast {left right : Nat} (small : left * right < 2 ^ 31) :
    mulInt (left : Int) (right : Int) = .ok ((left * right : Nat) : Int) := by
  rw [mulInt, int32_mul small, Int.natCast_mul, if_pos rfl]

theorem lt_of_mulInt_ok {left right : Nat} {result : Int}
    (computed : mulInt (left : Int) (right : Int) = .ok result) :
    left * right < 2 ^ 31 ∧ result = ((left * right : Nat) : Int) := by
  rw [mulInt] at computed
  split_ifs at computed with exact
  rw [← Int.natCast_mul] at computed exact
  have range := (int32_eq_self_iff _).mp exact
  exact ⟨by omega, (Except.ok.inj computed).symm⟩

theorem divInt_natCast {left right : Nat} (positive : 0 < right) (small : left < 2 ^ 31) :
    divInt (left : Int) (right : Int) = .ok ((left / right : Nat) : Int) := by
  have quotient : left / right < 2 ^ 31 := (Nat.div_le_self left right).trans_lt small
  rw [divInt, if_neg (by omega), ← Int.ofNat_tdiv, int32_natCast quotient, if_pos rfl]

theorem modInt_natCast {left right : Nat} (positive : 0 < right) :
    modInt (left : Int) (right : Int) = .ok ((left % right : Nat) : Int) := by
  rw [modInt, if_neg (by omega), Int.ofNat_tmod]

section Runs

universe u v

variable {ε : Type u} {α β : Type v}

theorem ok_bind (value : α) (next : α → Except ε β) : (Except.ok value >>= next) = next value := rfl

def andThen (first second : Except ε (List β)) : Except ε (List β) :=
  first.bind fun cells => second.map (cells ++ ·)

def forEach (items : List α) (body : α → Except ε (List β)) : Except ε (List β) :=
  items.foldr (fun item rest => andThen (body item) rest) (.ok [])

/-- The run has no fault and touches only cells with the property. -/
def SafeRun (allowed : β → Prop) (run : Except ε (List β)) : Prop :=
  ∃ cells, run = .ok cells ∧ ∀ cell ∈ cells, allowed cell

variable {allowed : β → Prop}

theorem safeRun_ok (cells : List β) :
    SafeRun allowed (.ok cells : Except ε (List β)) ↔ ∀ cell ∈ cells, allowed cell := by
  constructor
  · rintro ⟨same, isSame, safe⟩
    rw [Except.ok.inj isSame]
    exact safe
  · intro safe
    exact ⟨cells, rfl, safe⟩

theorem safeRun_pure (cells : List β) :
    SafeRun allowed (pure cells : Except ε (List β)) ↔ ∀ cell ∈ cells, allowed cell :=
  safeRun_ok cells

theorem safeRun_bind (value : Except ε α) (next : α → Except ε (List β)) :
    SafeRun allowed (value >>= next) ↔
      ∃ computed, value = .ok computed ∧ SafeRun allowed (next computed) := by
  cases value with
  | error fault =>
    constructor
    · rintro ⟨cells, impossible, -⟩
      exact nomatch impossible
    · rintro ⟨computed, impossible, -⟩
      exact nomatch impossible
  | ok computed =>
    constructor
    · intro safe
      exact ⟨computed, rfl, safe⟩
    · rintro ⟨same, isSame, safe⟩
      rw [← Except.ok.inj isSame] at safe
      exact safe

theorem safeRun_andThen (first second : Except ε (List β)) :
    SafeRun allowed (andThen first second) ↔ SafeRun allowed first ∧ SafeRun allowed second := by
  cases first with
  | error fault =>
    constructor
    · rintro ⟨cells, impossible, -⟩
      exact nomatch impossible
    · rintro ⟨⟨cells, impossible, -⟩, -⟩
      exact nomatch impossible
  | ok cells =>
    cases second with
    | error fault =>
      constructor
      · rintro ⟨all, impossible, -⟩
        exact nomatch impossible
      · rintro ⟨-, ⟨all, impossible, -⟩⟩
        exact nomatch impossible
    | ok others =>
      have both : andThen (ε := ε) (.ok cells) (.ok others) = .ok (cells ++ others) := rfl
      rw [both, safeRun_ok, safeRun_ok, safeRun_ok]
      exact List.forall_mem_append

theorem safeRun_forEach (items : List α) (body : α → Except ε (List β)) :
    SafeRun allowed (forEach items body) ↔ ∀ item ∈ items, SafeRun allowed (body item) := by
  induction items with
  | nil =>
    rw [forEach, List.foldr_nil, safeRun_ok]
    simp only [List.not_mem_nil, false_implies, implies_true]
  | cons item rest ih =>
    rw [forEach, List.foldr_cons, safeRun_andThen, List.forall_mem_cons, ← ih]
    rfl

end Runs

end LlmRuntime.MachineInt
