import Mathlib

/-!
# Rearranging an array in place

An algorithm that only swaps entries of an interval gives the array composed
with a permutation that fixes every index outside.
-/

namespace LlmRuntime.Rearrangement

open Function

universe u v

variable {α : Type u}

def swap (arr : Nat → α) (i j : Nat) : Nat → α := update (update arr i (arr j)) j (arr i)

theorem swap_eq_comp (arr : Nat → α) (i j : Nat) : swap arr i j = arr ∘ Equiv.swap i j := by
  funext k
  rw [swap, comp_apply]
  by_cases isSecond : k = j
  · rw [isSecond, update_self, Equiv.swap_apply_right]
  · rw [update_of_ne isSecond]
    by_cases isFirst : k = i
    · rw [isFirst, update_self, Equiv.swap_apply_left]
    · rw [update_of_ne isFirst, Equiv.swap_apply_of_ne_of_ne isFirst isSecond]

@[simp]
theorem swap_left (arr : Nat → α) (i j : Nat) : swap arr i j i = arr j := by
  rw [swap_eq_comp, comp_apply, Equiv.swap_apply_left]

@[simp]
theorem swap_right (arr : Nat → α) (i j : Nat) : swap arr i j j = arr i := by
  rw [swap_eq_comp, comp_apply, Equiv.swap_apply_right]

theorem swap_of_ne (arr : Nat → α) {i j k : Nat} (notFirst : k ≠ i) (notSecond : k ≠ j) :
    swap arr i j k = arr k := by
  rw [swap_eq_comp, comp_apply, Equiv.swap_apply_of_ne_of_ne notFirst notSecond]

/-- The entries from `low` to `high` have been moved among themselves. -/
def Rearranged (low high : Nat) (before after : Nat → α) : Prop :=
  ∃ moves : Equiv.Perm Nat, (∀ i, ¬ (low ≤ i ∧ i ≤ high) → moves i = i) ∧ after = before ∘ moves

namespace Rearranged

variable {low high : Nat} {before middle after : Nat → α}

theorem refl (low high : Nat) (arr : Nat → α) : Rearranged low high arr arr :=
  ⟨Equiv.refl Nat, fun _ _ => rfl, rfl⟩

theorem trans (first : Rearranged low high before middle)
    (second : Rearranged low high middle after) :
    Rearranged low high before after := by
  obtain ⟨moves, fixes, rfl⟩ := first
  obtain ⟨moreMoves, moreFixes, rfl⟩ := second
  refine ⟨moreMoves.trans moves, ?_, rfl⟩
  intro i outside
  rw [Equiv.trans_apply, moreFixes i outside, fixes i outside]

theorem symm (rearranged : Rearranged low high before after) :
    Rearranged low high after before := by
  obtain ⟨moves, fixes, rfl⟩ := rearranged
  refine ⟨moves.symm, ?_, ?_⟩
  · intro i outside
    rw [Equiv.symm_apply_eq, fixes i outside]
  · funext i
    simp

theorem mono {wideLow wideHigh : Nat} (isLower : wideLow ≤ low) (isHigher : high ≤ wideHigh)
    (rearranged : Rearranged low high before after) :
    Rearranged wideLow wideHigh before after := by
  obtain ⟨moves, fixes, isAfter⟩ := rearranged
  refine ⟨moves, ?_, isAfter⟩
  intro i outside
  exact fixes i (by omega)

theorem map {β : Type v} (view : α → β) (rearranged : Rearranged low high before after) :
    Rearranged low high (fun i => view (before i)) (fun i => view (after i)) := by
  obtain ⟨moves, fixes, rfl⟩ := rearranged
  exact ⟨moves, fixes, rfl⟩

theorem swap (arr : Nat → α) {i j : Nat} (first : low ≤ i ∧ i ≤ high)
    (second : low ≤ j ∧ j ≤ high) :
    Rearranged low high arr (swap arr i j) := by
  refine ⟨Equiv.swap i j, ?_, swap_eq_comp arr i j⟩
  intro k outside
  refine Equiv.swap_apply_of_ne_of_ne ?_ ?_
  · rintro rfl
    exact outside first
  · rintro rfl
    exact outside second

theorem apply_outside (rearranged : Rearranged low high before after) {i : Nat}
    (outside : ¬ (low ≤ i ∧ i ≤ high)) :
    after i = before i := by
  obtain ⟨moves, fixes, rfl⟩ := rearranged
  rw [comp_apply, fixes i outside]

theorem apply_inside (rearranged : Rearranged low high before after) {i : Nat}
    (inside : low ≤ i ∧ i ≤ high) :
    ∃ k, (low ≤ k ∧ k ≤ high) ∧ after i = before k := by
  obtain ⟨moves, fixes, rfl⟩ := rearranged
  refine ⟨moves i, ?_, rfl⟩
  by_contra outside
  have fixed : moves (moves i) = moves i := fixes (moves i) outside
  have isFixed : moves i = i := moves.injective fixed
  rw [isFixed] at outside
  exact outside inside

end Rearranged

end LlmRuntime.Rearrangement
