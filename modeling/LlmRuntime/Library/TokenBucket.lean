import Mathlib

/-!
# Token buckets

A token bucket holds at most `burst` tokens, gains one with every tick and pays
one for every admitted event.  What it holds is covered by what it has not paid
out.
-/

namespace LlmRuntime.TokenBucket

/-- No window admits more events than a full bucket and its gain can pay. -/
def Metered (burst : Nat) (times : List Nat) : Prop :=
  ∀ start stop, start ≤ stop → times.countP (fun t => start ≤ t ∧ t ≤ stop) ≤ burst + (stop - start)

/-- In every window that ends now, the events admitted and the tokens left are
together no more than a full bucket and its gain. -/
def Covered (burst : Nat) (times : List Nat) (now : Nat) (tokens : Int) : Prop :=
  ∀ start, start ≤ now →
    (times.countP (fun t => start ≤ t) : Int) + tokens ≤ burst + (now - start : Nat)

variable {burst now : Nat} {times : List Nat} {tokens : Int}

theorem metered_nil : Metered burst [] := by
  intro start stop ordered
  simp

theorem covered_nil (capped : tokens ≤ burst) : Covered burst [] now tokens := by
  intro start within
  simp only [List.countP_nil]
  omega

/-- Waiting gains a token a tick, up to the full bucket. -/
theorem Covered.wait {later : Nat} {more : Int} (covered : Covered burst times now tokens)
    (past : ∀ t ∈ times, t ≤ now) (ordered : now ≤ later)
    (gained : more ≤ tokens + (later - now : Nat)) (capped : more ≤ burst) :
    Covered burst times later more := by
  intro start within
  by_cases reaches : start ≤ now
  · have atNow := covered start reaches
    omega
  · have nothing : times.countP (fun t => start ≤ t) = 0 := by
      rw [List.countP_eq_zero]
      intro t member
      have before := past t member
      simp only [decide_eq_true_eq]
      omega
    rw [nothing]
    omega

theorem Covered.spend (covered : Covered burst times now tokens) :
    Covered burst (times ++ [now]) now (tokens - 1) := by
  intro start within
  have before := covered start within
  simp only [List.countP_append, List.countP_singleton, within, decide_true, if_true]
  omega

/-- An event paid for from a covered bucket keeps the rate. -/
theorem Metered.snoc (metered : Metered burst times)
    (covered : Covered burst (times ++ [now]) now tokens) (paid : 0 ≤ tokens) :
    Metered burst (times ++ [now]) := by
  intro start stop ordered
  by_cases inside : start ≤ now ∧ now ≤ stop
  · have upToNow := covered start inside.1
    have fewer :
        (times ++ [now]).countP (fun t => start ≤ t ∧ t ≤ stop) ≤
          (times ++ [now]).countP (fun t => start ≤ t) := by
      apply List.countP_mono_left
      intro t member passes
      simp only [decide_eq_true_eq] at passes ⊢
      exact passes.1
    omega
  · have before := metered start stop ordered
    simpa [List.countP_append, List.countP_singleton, inside] using before

end LlmRuntime.TokenBucket
