import Mathlib

/-!
# Searches over a fixed table of slots

The first slot that satisfies a test is characterised by the test failing
everywhere before it, and a slot splits the scan into the slots below and the
slots above it.
-/

namespace LlmRuntime.Slots

variable {n : Nat}

theorem find_eq_some_iff (test : Fin n → Bool) (i : Fin n) :
    (List.finRange n).find? test = some i ↔ test i = true ∧ ∀ j, j < i → test j = false := by
  rw [List.find?_eq_some_iff_getElem]
  constructor
  · rintro ⟨found, index, inside, atIndex, earlier⟩
    refine ⟨found, ?_⟩
    intro j before
    have indexEq : index = i.val := by
      rw [← atIndex]
      simp
    have notFound := earlier j.val (by omega)
    simpa using notFound
  · rintro ⟨found, earlier⟩
    refine ⟨found, i.val, by simp, by simp, ?_⟩
    intro j before
    have notFound := earlier ⟨j, by omega⟩ before
    simpa using notFound

theorem find_eq_none_iff (test : Fin n → Bool) :
    (List.finRange n).find? test = none ↔ ∀ i, test i = false := by
  simp [List.find?_eq_none]

theorem find_eq_some_of_unique {test : Fin n → Bool} {i : Fin n}
    (passes : test i = true) (unique : ∀ j, test j = true → j = i) :
    (List.finRange n).find? test = some i := by
  rw [find_eq_some_iff]
  refine ⟨passes, ?_⟩
  intro j before
  by_contra notFalse
  have same := unique j (by simpa using notFalse)
  exact absurd same before.ne

theorem find_congr {left right : Fin n → Bool} (same : ∀ i, left i = right i) :
    (List.finRange n).find? left = (List.finRange n).find? right :=
  congrArg (fun test => (List.finRange n).find? test) (funext same)

/-- The slots before `i`, in slot order. -/
def below (i : Fin n) : List (Fin n) := (List.finRange n).filter fun j => j < i

/-- The slots behind `i`, in slot order. -/
def above (i : Fin n) : List (Fin n) := (List.finRange n).filter fun j => i < j

@[simp]
theorem mem_below {i j : Fin n} : j ∈ below i ↔ j < i := by
  simp [below]

@[simp]
theorem mem_above {i j : Fin n} : j ∈ above i ↔ i < j := by
  simp [above]

private theorem split_of_pairwise {i : Fin n} : ∀ {slots : List (Fin n)},
      slots.Pairwise (· < ·) → i ∈ slots →
        slots = (slots.filter fun j => j < i) ++ i :: (slots.filter fun j => i < j)
  | [], _, member => by
    simp at member
  | head :: rest, sorted, member => by
    rw [List.pairwise_cons] at sorted
    rcases List.mem_cons.mp member with rfl | inRest
    · have noneBelow : (rest.filter fun j => j < i) = [] := by
        rw [List.filter_eq_nil_iff]
        intro j inRest
        simpa using Nat.le_of_lt (sorted.1 j inRest)
      have allAbove : (rest.filter fun j => i < j) = rest := by
        rw [List.filter_eq_self]
        intro j inRest
        simpa using sorted.1 j inRest
      simp [noneBelow, allAbove]
    · have headBelow : head < i := sorted.1 i inRest
      have headNotAbove : ¬ i < head := Fin.not_lt.mpr headBelow.le
      have tailSplit := split_of_pairwise sorted.2 inRest
      simp only [List.filter_cons, headBelow, headNotAbove, decide_true,
        if_true, decide_false, Bool.false_eq_true, if_false, List.cons_append]
      rw [← tailSplit]

theorem finRange_eq_below_above (i : Fin n) : List.finRange n = below i ++ i :: above i :=
  split_of_pairwise (List.pairwise_lt_finRange n) (List.mem_finRange i)

end LlmRuntime.Slots
