import Mathlib

/-!
# Machines that read a string

Each state of a machine reads some places of a string.  The machine may read no
place behind the terminator, and is to halt where it reads the terminator.
-/

namespace LlmRuntime.Scanner

open StateTransition

universe u

variable {σ : Type u}

/-- No place behind `last` is read, and the machine halts where it reads
`last`. -/
structure StaysWithin (step : σ → Option σ) (reads : σ → List Nat) (last : Nat) (start : σ) :
    Prop where
  inside : ∀ state, Reaches step start state → ∀ i ∈ reads state, i ≤ last
  halts : ∃ final ∈ eval step start, reads final = [last]

variable {step : σ → Option σ} {reads : σ → List Nat} {last : Nat} {state next : σ}

theorem staysWithin_step (moves : step state = some next) :
    StaysWithin step reads last state ↔
      (∀ i ∈ reads state, i ≤ last) ∧ StaysWithin step reads last next := by
  have isEval : eval step state = eval step next :=
    reaches_eval (Relation.ReflTransGen.single moves)
  constructor
  · rintro ⟨inside, halts⟩
    rw [isEval] at halts
    refine ⟨inside state Relation.ReflTransGen.refl, ?_, halts⟩
    intro later reaches
    exact inside later (Relation.ReflTransGen.head moves reaches)
  · rintro ⟨here, inside, halts⟩
    rw [← isEval] at halts
    refine ⟨?_, halts⟩
    intro later reaches
    rcases Relation.ReflTransGen.cases_head reaches with
      rfl | ⟨middle, isMiddle, reaches⟩
    · exact here
    · rw [Option.mem_def, moves] at isMiddle
      rw [← Option.some.inj isMiddle] at reaches
      exact inside later reaches

theorem staysWithin_halt (halted : step state = none) :
    StaysWithin step reads last state ↔ reads state = [last] := by
  have only (later : σ) (reaches : Reaches step state later) : later = state := by
    rcases Relation.ReflTransGen.cases_head reaches with
      rfl | ⟨middle, isMiddle, -⟩
    · rfl
    · rw [Option.mem_def, halted] at isMiddle
      cases isMiddle
  constructor
  · rintro ⟨-, final, isFinal, isLast⟩
    rw [only final (mem_eval.mp isFinal).1] at isLast
    exact isLast
  · intro isLast
    refine ⟨?_, state, mem_eval.mpr ⟨Relation.ReflTransGen.refl, halted⟩, isLast⟩
    intro later reaches i isRead
    rw [only later reaches, isLast] at isRead
    exact (List.mem_singleton.mp isRead).le

theorem eval_invariant {holds : σ → Prop}
    (keeps : ∀ state next, step state = some next → holds state → holds next)
    (initially : holds state) {final : σ} (isFinal : final ∈ eval step state) :
    holds final := by
  have reaches := (mem_eval.mp isFinal).1
  clear isFinal
  induction reaches with
  | refl => exact initially
  | tail _ isStep ih => exact keeps _ _ isStep ih

end LlmRuntime.Scanner
