import LlmRuntime.Library.XorShift
import LlmRuntime.Llama.KernelSpecs
import LlmRuntime.Stdlib.Qsort
import Mathlib

/-!
# The sampler

`sample` of `user/llama_core.c` with the functions it calls.  The loops that add
up probabilities are one definition.  Whatever the floats do, a token is one of
the vocabulary; with exact arithmetic, top-p sampling stays inside the nucleus.
-/

namespace LlmRuntime.LlamaCore

open Buffer FloatOps Function Rearrangement Stdlib XorShift

universe u

/-- The comparisons that the sampler uses besides `>`. -/
class SamplerOps (F : Type u) extends FloatOps F where
  atLeast : F → F → Bool
  equal : F → F → Bool

open SamplerOps

structure ProbIndex (F : Type u) where
  prob : F
  index : Nat

structure Sampler (F : Type u) where
  vocabSize : Nat
  probindex : Nat → ProbIndex F
  temperature : F
  topp : F
  rngState : UInt64

/-- A value, and the state behind it. -/
def randomU32 (state : UInt64) : UInt32 × UInt64 :=
  let state := state ^^^ (state >>> 12)
  let state := state ^^^ (state <<< 25)
  let state := state ^^^ (state >>> 27)
  (((state * 0x2545F4914F6CDD1D) >>> 32).toUInt32, state)

theorem randomU32_state_injective : Injective fun state => (randomU32 state).2 := by
  intro state other same
  have last := @xor_shiftRight_injective 64 27 (by decide) _ _ (congrArg UInt64.toBitVec same)
  have second := @xor_shiftLeft_injective 64 25 (by decide) _ _ last
  have first := @xor_shiftRight_injective 64 12 (by decide) _ _ second
  exact UInt64.toBitVec_inj.mp first

/-- The states from any seed go around in a cycle, and only the seed 0 leads to
the state 0, where the generator would stay. -/
theorem randomU32_cycle (seed : UInt64) :
    (∀ k, (fun state => (randomU32 state).2)^[k] seed = 0 ↔ seed = 0) ∧
      ∃ period > 0, (fun state => (randomU32 state).2)^[period] seed = seed := by
  refine ⟨?_, mem_periodicPts.mp (randomU32_state_injective.mem_periodicPts seed)⟩
  intro k
  have fixed : (fun state => (randomU32 state).2)^[k] 0 = 0 := iterate_fixed (by decide) k
  constructor
  · intro isZero
    exact (randomU32_state_injective.iterate k) (isZero.trans fixed.symm)
  · rintro rfl
    exact fixed

section Sampling

variable {F : Type u} [SamplerOps F]

def randomF32 (state : UInt64) : F × UInt64 :=
  let (value, state) := randomU32 state
  (ofInt (value >>> 8).toNat / ofInt 16777216, state)

def sampleArgmax (probabilities : Nat → F) (n : Nat) : Nat :=
  ((List.range' 1 (n - 1)).foldl
    (fun (maxI, maxP) i =>
      if greater (probabilities i) maxP then (i, probabilities i) else (maxI, maxP))
    (0, probabilities 0)).1

/-- The loops that add up weights from `i` on until the sum passes a limit: the
sum where they end, and the index that passes it. -/
def sumUntil (weights : Nat → F) (limit : F) : Nat → Nat → F → F × Option Nat
  | 0, _, sum => (sum, none)
  | left + 1, i, sum =>
    if greater (sum + weights i) limit then (sum + weights i, some i)
    else sumUntil weights limit left (i + 1) (sum + weights i)

def sampleMult (probabilities : Nat → F) (n : Nat) (coin : F) : Nat :=
  (sumUntil probabilities coin n 0 zero).2.getD (n - 1)

def compare (a b : ProbIndex F) : Int :=
  if greater a.prob b.prob then -1
  else if greater b.prob a.prob then 1
  else 0

def cutoff (topp : F) (n : Nat) : F := (one - topp) / ofInt (n - 1)

/-- The first loop of `sample_topp`. -/
def cropCandidates (probabilities : Nat → F) (n : Nat) (cutoff : F)
    (probindex : Nat → ProbIndex F) : (Nat → ProbIndex F) × Nat :=
  (List.range n).foldl
    (fun (probindex, n0) i =>
      if atLeast (probabilities i) cutoff then (update probindex n0 ⟨probabilities i, i⟩, n0 + 1)
      else (probindex, n0))
    (probindex, 0)

/-- The loops of `sample_topp` behind the sort, for at least one candidate: the
position of the one that is taken. -/
def pickCandidate (probindex : Nat → ProbIndex F) (n0 : Nat) (topp coin : F) : Nat :=
  let (cumulativeProb, stop) := sumUntil (fun i => (probindex i).prob) topp n0 0 zero
  let lastIdx := stop.getD (n0 - 1)
  (sumUntil (fun i => (probindex i).prob) (coin * cumulativeProb) (lastIdx + 1) 0
    zero).2.getD lastIdx

/-- Top-p sampling; `none` is a read in front of `probindex`, at index -1. -/
def sampleTopp (probabilities : Nat → F) (n : Nat) (topp : F)
    (probindex : Nat → ProbIndex F) (coin : F) : Option Nat :=
  let (probindex, n0) := cropCandidates probabilities n (cutoff topp n) probindex
  (xqsort compare probindex n0).bind fun probindex =>
    if n0 = 0 then none
    else some (probindex (pickCandidate probindex n0 topp coin)).index

/-- The probabilities that `sample` makes of the logits. -/
def tokenProbabilities (sampler : Sampler F) (logits : Nat → F) : Nat → F :=
  softmax
    (replaceEach (List.range sampler.vocabSize) (fun _ value => value / sampler.temperature) logits)
    sampler.vocabSize

/-- The token, and the state of the generator behind it. -/
def sample (sampler : Sampler F) (logits : Nat → F) : Option Nat × UInt64 :=
  if equal sampler.temperature zero then
    (some (sampleArgmax logits sampler.vocabSize), sampler.rngState)
  else
    let probabilities := tokenProbabilities sampler logits
    let (coin, rngState) := randomF32 sampler.rngState
    if atLeast zero sampler.topp ||
        atLeast sampler.topp one then
      (some (sampleMult probabilities sampler.vocabSize coin), rngState)
    else (sampleTopp probabilities sampler.vocabSize sampler.topp sampler.probindex coin, rngState)

variable {probabilities : Nat → F} {n : Nat} {topp coin : F} {probindex : Nat → ProbIndex F}

theorem sumUntil_some {weights : Nat → F} {limit sum : F} {left i j : Nat}
    (stops : (sumUntil weights limit left i sum).2 = some j) : i ≤ j ∧ j < i + left := by
  induction left generalizing i sum with
  | zero => cases stops
  | succ left ih =>
    rw [sumUntil] at stops
    split_ifs at stops
    · cases stops
      omega
    · have bounds := ih stops
      omega

theorem sumUntil_getD_le (weights : Nat → F) (limit sum : F) (left last : Nat)
    (inside : left ≤ last + 1) :
    (sumUntil weights limit left 0 sum).2.getD last ≤ last := by
  cases stops : (sumUntil weights limit left 0 sum).2 with
  | none => exact le_refl last
  | some j =>
    have bounds := sumUntil_some stops
    rw [Option.getD_some]
    omega

theorem sampleArgmax_lt (positive : 0 < n) : sampleArgmax probabilities n < n := by
  rw [sampleArgmax]
  refine List.foldlRecOn (motive := fun best : Nat × F => best.1 < n) _ _ positive ?_
  rintro ⟨maxI, maxP⟩ below i isIndex
  dsimp only
  split_ifs
  · have bounds := List.mem_range'_1.mp isIndex
    omega
  · exact below

/-- The tokens that pass the cutoff. -/
def candidates (probabilities : Nat → F) (n : Nat) (cutoff : F) : List Nat :=
  (List.range n).filter fun i => atLeast (probabilities i) cutoff

theorem cropCandidates_eq (probabilities : Nat → F) (n : Nat) (cutoff : F)
    (probindex : Nat → ProbIndex F) :
    (cropCandidates probabilities n cutoff probindex).2 =
        (candidates probabilities n cutoff).length ∧
      ∀ k i, (candidates probabilities n cutoff)[k]? = some i →
        (cropCandidates probabilities n cutoff probindex).1 k = ⟨probabilities i, i⟩ := by
  induction n with
  | zero => exact ⟨rfl, nofun⟩
  | succ n ih =>
    rw [cropCandidates, candidates, List.range_succ, List.foldl_append, List.filter_append,
      ← cropCandidates, ← candidates]
    generalize cropCandidates probabilities n cutoff probindex = cropped at ih ⊢
    generalize candidates probabilities n cutoff = kept at ih ⊢
    obtain ⟨isLength, isEntry⟩ := ih
    by_cases passes : atLeast (probabilities n) cutoff = true
    · simp only [List.foldl_cons, List.foldl_nil, List.filter_cons, List.filter_nil, if_pos passes,
        isLength, List.length_append, List.length_singleton, true_and]
      intro k i atPlace
      rw [List.getElem?_append] at atPlace
      split_ifs at atPlace with before
      · rw [update_of_ne before.ne]
        exact isEntry k i atPlace
      · obtain ⟨isFirst, isToken⟩ := List.getElem?_eq_some_iff.mp atPlace
        rw [List.length_singleton] at isFirst
        rw [List.getElem_singleton] at isToken
        rw [show k = kept.length by omega, update_self, isToken]
    · simpa [passes] using ⟨isLength, isEntry⟩

/-- The sorted candidates, and what is taken of them. -/
theorem sampleTopp_eq (small : n < 2 ^ 31) :
    let kept := candidates probabilities n (cutoff topp n)
    ∃ sorted : Nat → ProbIndex F,
      (∀ k < kept.length, ∃ i ∈ kept, sorted k = ⟨probabilities i, i⟩) ∧
        (∀ i ∈ kept, ∃ k < kept.length, sorted k = ⟨probabilities i, i⟩) ∧
        (TotalPreorder (@compare F _) →
          ∀ k l, k < l → l < kept.length → compare (sorted k) (sorted l) ≤ 0) ∧
        sampleTopp probabilities n topp probindex coin =
          if kept.length = 0 then none
          else some (sorted (pickCandidate sorted kept.length topp coin)).index := by
  intro kept
  have few : kept.length ≤ n := (List.length_filter_le _ _).trans List.length_range.le
  obtain ⟨isLength, isEntry⟩ := cropCandidates_eq probabilities n (cutoff topp n) probindex
  rw [sampleTopp]
  generalize cropCandidates probabilities n (cutoff topp n) probindex = cropped at *
  obtain ⟨sorted, isSorted, rearranged, ordered⟩ :=
    @xqsort_sorts _ compare cropped.1 kept.length (by omega)
  dsimp only at *
  refine ⟨sorted, ?_, ?_, ordered, ?_⟩
  · intro k inside
    obtain ⟨l, bounds, isCandidate⟩ := rearranged.apply_inside ⟨Nat.zero_le k, by omega⟩
    have isKept : kept[l]? = some (kept.get ⟨l, by omega⟩) := List.getElem?_eq_getElem _
    exact ⟨_, List.getElem_mem _, isCandidate.trans (isEntry l _ isKept)⟩
  · intro i isKept
    obtain ⟨l, atPlace⟩ := List.mem_iff_getElem?.mp isKept
    have inside := (List.getElem?_eq_some_iff.mp atPlace).1
    obtain ⟨k, bounds, isCandidate⟩ := rearranged.symm.apply_inside ⟨Nat.zero_le l, by omega⟩
    exact ⟨k, by omega, isCandidate.symm.trans (isEntry l i atPlace)⟩
  · rw [isLength, isSorted]
    rfl

theorem pickCandidate_le (sorted : Nat → ProbIndex F) {n0 : Nat} (someToken : 0 < n0)
    (topp coin : F) :
    pickCandidate sorted n0 topp coin ≤
        (sumUntil (fun i => (sorted i).prob) topp n0 0 zero).2.getD (n0 - 1) ∧
      pickCandidate sorted n0 topp coin < n0 := by
  have last := sumUntil_getD_le (fun i => (sorted i).prob) topp zero n0 (n0 - 1) (by omega)
  rw [pickCandidate]
  dsimp only
  generalize sumUntil (fun i => (sorted i).prob) topp n0 0 zero = passed at *
  have picked := sumUntil_getD_le (fun i => (sorted i).prob) (coin * passed.1) zero _ _
    (le_refl (passed.2.getD (n0 - 1) + 1))
  exact ⟨picked, by omega⟩

theorem sampleTopp_token (small : n < 2 ^ 31) :
    (∀ token, sampleTopp probabilities n topp probindex coin = some token → token < n) ∧
      (sampleTopp probabilities n topp probindex coin = none ↔
        ∀ i < n, atLeast (probabilities i) (cutoff topp n) = false) := by
  obtain ⟨sorted, isCandidate, -, -, isSample⟩ :=
    @sampleTopp_eq _ _ probabilities n topp coin probindex small
  rw [isSample]
  split_ifs with none
  · refine ⟨nofun, iff_of_true rfl fun i inside => ?_⟩
    rw [List.length_eq_zero_iff, candidates, List.filter_eq_nil_iff] at none
    exact Bool.eq_false_iff.mpr (none i (List.mem_range.mpr inside))
  · obtain ⟨i, isKept, isEntry⟩ :=
      isCandidate _ (pickCandidate_le sorted (Nat.pos_of_ne_zero none) topp coin).2
    obtain ⟨isToken, passes⟩ := List.mem_filter.mp isKept
    rw [List.mem_range] at isToken
    rw [isEntry]
    refine ⟨fun token same => Option.some.inj same ▸ isToken, iff_of_false nofun fun fails => ?_⟩
    rw [fails i isToken] at passes
    cases passes

theorem sample_topp {sampler : Sampler F} (logits : Nat → F)
    (warm : equal sampler.temperature zero = false) (above : atLeast zero sampler.topp = false)
    (below : atLeast sampler.topp one = false) :
    (sample sampler logits).1 =
      sampleTopp (tokenProbabilities sampler logits) sampler.vocabSize sampler.topp
        sampler.probindex (randomF32 sampler.rngState).1 := by
  simp [sample, warm, above, below]

/-- Whatever the operations on floats do, a token that `sample` returns is one of
the vocabulary.  It returns one unless it samples top-p and no probability
passes the cutoff: then it reads in front of its buffer. -/
theorem sample_inVocabulary (sampler : Sampler F) (logits : Nat → F)
    (someToken : 0 < sampler.vocabSize) (small : sampler.vocabSize < 2 ^ 31) :
    (∀ token, (sample sampler logits).1 = some token → token < sampler.vocabSize) ∧
      ((sample sampler logits).1 = none ↔
        equal sampler.temperature zero = false ∧
          atLeast zero sampler.topp = false ∧
          atLeast sampler.topp one = false ∧
          ∀ i < sampler.vocabSize,
            atLeast (tokenProbabilities sampler logits i)
              (cutoff sampler.topp sampler.vocabSize) = false) := by
  cases greedy : equal sampler.temperature zero with
  | true =>
    rw [sample, if_pos greedy]
    refine ⟨fun token isToken => ?_, by simp⟩
    cases isToken
    exact sampleArgmax_lt someToken
  | false =>
    by_cases plain : (atLeast zero sampler.topp || atLeast sampler.topp one) = true
    · rw [sample, greedy, if_neg Bool.false_ne_true]
      dsimp only
      rw [if_pos plain]
      refine ⟨fun token isToken => ?_, iff_of_false nofun ?_⟩
      · cases isToken
        have last := sumUntil_getD_le (tokenProbabilities sampler logits)
          (randomF32 sampler.rngState).1 zero sampler.vocabSize (sampler.vocabSize - 1)
          (by omega)
        rw [sampleMult]
        omega
      · rintro ⟨-, above, below, -⟩
        rw [above, below] at plain
        cases plain
    · rw [Bool.or_eq_true, not_or, Bool.not_eq_true, Bool.not_eq_true] at plain
      rw [sample_topp logits greedy plain.1 plain.2]
      refine ⟨fun _ => (sampleTopp_token small).1 _, ?_⟩
      simp only [(sampleTopp_token small).2, plain, true_and]

end Sampling

/-! ## Top-p sampling with exact arithmetic -/

section Exact

open Finset

variable {K : Type u} [Field K] [LinearOrder K]

/-- The operations of an ordered field in the place of those on floats. -/
@[reducible]
def exactOps (expf : K → K) : SamplerOps K where
  add := (· + ·)
  sub := (· - ·)
  mul := (· * ·)
  div := (· / ·)
  neg := (- ·)
  ofBytes _ _ _ _ := 0
  ofInt := Nat.cast
  zero := 0
  one := 1
  epsilon := 0
  ropeBase := 0
  greater a b := decide (b < a)
  sqrtf := id
  expf := expf
  powf base _ := base
  cosf := id
  sinf := id
  atLeast a b := decide (b ≤ a)
  equal a b := decide (a = b)

/-- Three tokens of one probability and `topp` below a third: nothing passes the
cutoff. -/
theorem sample_uniform :
    (@sample ℚ (exactOps fun _ => 1) ⟨3, fun _ => ⟨0, 0⟩, 1, 1 / 10, 1⟩ fun _ => 0).1 = none :=
  (@sample_inVocabulary ℚ (exactOps fun _ => 1) _ _ (by decide) (by decide)).2.mpr
    (by decide +kernel)

variable (expf : K → K)

/-- Up to where a loop stops, the sums do not pass the limit. -/
theorem sumUntil_before (weights : Nat → K) {limit sum : K} (below : sum ≤ limit)
    {left i j last : Nat} (notBefore : i ≤ j) (inside : last ≤ i + left)
    (notBehind : j ≤ (@sumUntil K (exactOps expf) weights limit left i sum).2.getD last) :
    sum + ∑ k ∈ Ico i j, weights k ≤ limit := by
  induction left generalizing i sum with
  | zero =>
    rw [Ico_eq_empty_of_le (show j ≤ i from notBehind.trans inside), sum_empty, add_zero]
    exact below
  | succ left ih =>
    rcases Nat.eq_or_lt_of_le notBefore with isFirst | isLater
    · rw [isFirst, Ico_self, sum_empty, add_zero]
      exact below
    · unfold sumUntil at notBehind
      rw [sum_eq_sum_Ico_succ_bot isLater, ← add_assoc]
      split_ifs at notBehind with passes
      · exact absurd notBehind (not_le.mpr isLater)
      · exact ih (not_lt.mp fun less => passes (decide_eq_true less)) isLater (by omega) notBehind

theorem compare_nonpos_iff (a b : ProbIndex K) :
    @compare K (exactOps expf) a b ≤ 0 ↔ b.prob ≤ a.prob := by
  unfold compare
  split_ifs with greater less
  · exact iff_of_true (by decide) (of_decide_eq_true greater).le
  · exact iff_of_false (by decide) (not_le.mpr (of_decide_eq_true less))
  · exact iff_of_true (le_refl 0) (not_lt.mp fun isLess => less (decide_eq_true isLess))

theorem softmax_exact (x : Nat → K) {n i : Nat} (inside : i < n) :
    @softmax K (exactOps expf).toFloatOps x n i =
      expf (x i - @softmaxMax K (exactOps expf).toFloatOps x n) /
        ∑ j ∈ range n, expf (x j - @softmaxMax K (exactOps expf).toFloatOps x n) := by
  refine (@softmax_apply K (exactOps expf).toFloatOps n x i inside).trans (congrArg _ ?_)
  refine (sum_range_induction _ _ rfl n fun k _ => ?_).symm
  exact (congrArg (List.foldl _ _) List.range_succ).trans List.foldl_append

variable [IsStrictOrderedRing K]

/-- What is above a limit is all listed, so it is at most the sum of the list. -/
theorem sum_above_le {weights : Nat → K} {n m : Nat} {places : Nat → Nat} {limit : K}
    (nonneg : ∀ i < n, 0 ≤ weights i) (inside : ∀ k < m, places k < n)
    (listed : ∀ i < n, limit < weights i → ∃ k < m, places k = i) :
    ∑ i ∈ range n with limit < weights i, weights i ≤ ∑ k ∈ range m, weights (places k) := by
  have nonnegListed (i : Nat) (isPlace : i ∈ (range m).image places) : 0 ≤ weights i := by
    obtain ⟨k, before, rfl⟩ := mem_image.mp isPlace
    exact nonneg _ (inside k (mem_range.mp before))
  refine le_trans ?_ (sum_image_le_of_nonneg nonnegListed)
  refine sum_le_sum_of_subset_of_nonneg (fun i isAbove => ?_) fun i isPlace _ =>
    nonnegListed i isPlace
  obtain ⟨inRange, above⟩ := mem_filter.mp isAbove
  obtain ⟨k, before, isPlace⟩ := listed i (mem_range.mp inRange) above
  exact mem_image.mpr ⟨k, mem_range.mpr before, isPlace⟩

/-- Everything more probable than a token of `sample_topp` was before it in the
sorted list, where the sums were within `topp`. -/
theorem sampleTopp_nucleus {probabilities : Nat → K} {n : Nat} (small : n < 2 ^ 31)
    (nonneg : ∀ i < n, 0 ≤ probabilities i) {topp : K} (toppNonneg : 0 ≤ topp)
    {probindex : Nat → ProbIndex K} {coin : K} {token : Nat}
    (isToken : @sampleTopp K (exactOps expf) probabilities n topp probindex coin = some token) :
    ∑ i ∈ range n with probabilities token < probabilities i, probabilities i ≤ topp := by
  obtain ⟨sorted, isCandidate, isPlaced, ordered, isSample⟩ :=
    @sampleTopp_eq K (exactOps expf) probabilities n topp coin probindex small
  have descending := ordered
    ⟨fun a b => by simpa only [compare_nonpos_iff] using le_total b.prob a.prob,
      fun a b c => by simpa only [compare_nonpos_iff] using fun first second => second.trans first⟩
  simp only [compare_nonpos_iff] at descending
  rw [isSample] at isToken
  split_ifs at isToken with none
  generalize isKept :
    @candidates K (exactOps expf) probabilities n (@cutoff K (exactOps expf) topp n) = kept at *
  have inKept (i : Nat) :
      i ∈ kept ↔ i < n ∧ @cutoff K (exactOps expf) topp n ≤ probabilities i := by
    unfold candidates at isKept
    rw [← isKept, List.mem_filter, List.mem_range]
    exact and_congr_right fun _ => decide_eq_true_iff
  obtain ⟨beforeLast, inside⟩ :=
    @pickCandidate_le K (exactOps expf) sorted _ (Nat.pos_of_ne_zero none) topp coin
  generalize @pickCandidate K (exactOps expf) sorted kept.length topp coin = picked at *
  obtain ⟨i, isIn, isEntry⟩ := isCandidate picked inside
  rw [isEntry] at isToken
  cases isToken
  have prefixSum := sumUntil_before expf (fun k => (sorted k).prob) toppNonneg (Nat.zero_le picked)
    (by omega) beforeLast
  rw [zero_add, ← range_eq_Ico] at prefixSum
  have indexOf (k : Nat) (before : k < picked) :
      (sorted k).index < n ∧ probabilities (sorted k).index = (sorted k).prob := by
    obtain ⟨j, isJ, isK⟩ := isCandidate k (before.trans inside)
    rw [isK]
    exact ⟨((inKept j).mp isJ).1, rfl⟩
  rw [← sum_congr rfl fun k before => (indexOf k (mem_range.mp before)).2] at prefixSum
  refine (sum_above_le nonneg (fun k before => (indexOf k before).1) ?_).trans prefixSum
  intro j inRange more
  have passes := ((inKept i).mp isIn).2.trans more.le
  obtain ⟨k, kInside, isK⟩ := isPlaced j ((inKept j).mpr ⟨inRange, passes⟩)
  refine ⟨k, ?_, by rw [isK]⟩
  by_contra notBefore
  rcases Nat.eq_or_lt_of_le (not_lt.mp notBefore) with same | isLater
  · rw [← same, isEntry] at isK
    rw [(ProbIndex.mk.inj isK).2] at more
    exact lt_irrefl _ more
  · have less := descending picked k isLater kInside
    rw [isEntry, isK] at less
    exact absurd more (not_lt.mpr less)

/-- A distribution has a token that passes the cutoff, unless `topp` is less
than an even share. -/
theorem exists_cutoff_le {probabilities : Nat → K} {n : Nat} (several : 1 < n)
    (total : ∑ i ∈ range n, probabilities i = 1) {topp : K} (share : 1 ≤ n * topp) :
    ∃ i < n, @cutoff K (exactOps expf) topp n ≤ probabilities i := by
  by_contra! noneAbove
  have less := sum_lt_sum_of_nonempty ⟨0, mem_range.mpr (by omega)⟩
    fun i isToken => noneAbove i (mem_range.mp isToken)
  have isCutoff : @cutoff K (exactOps expf) topp n = (1 - topp) / ((n - 1 : Nat) : K) := rfl
  have others : ((n - 1 : Nat) : K) = n - 1 := by rw [Nat.cast_sub several.le, Nat.cast_one]
  have positive : (0 : K) < n - 1 := by
    rw [← others, Nat.cast_pos]
    omega
  rw [total, sum_const, card_range, nsmul_eq_mul, isCutoff, others, ← mul_div_assoc,
    lt_div_iff₀ positive, one_mul, mul_one_sub] at less
  linarith

theorem softmax_distribution (positive : ∀ x, 0 < expf x) (x : Nat → K) {n : Nat}
    (someToken : 0 < n) :
    (∀ i < n, 0 ≤ @softmax K (exactOps expf).toFloatOps x n i) ∧
      ∑ i ∈ range n, @softmax K (exactOps expf).toFloatOps x n i = 1 := by
  have total : 0 < ∑ j ∈ range n, expf (x j - @softmaxMax K (exactOps expf).toFloatOps x n) :=
    sum_pos (fun j _ => positive _) ⟨0, mem_range.mpr someToken⟩
  refine ⟨fun i inside => ?_, ?_⟩
  · rw [softmax_exact expf x inside]
    exact (div_pos (positive _) total).le
  · rw [sum_congr rfl fun i inside => softmax_exact expf x (mem_range.mp inside), ← sum_div,
      div_self total.ne']

/-- With exact arithmetic, the allocations of `xqsort` given and its byte offsets
below `2 ^ 32`, and `topp` not below an even share, `sample` returns a token, and
all the tokens that are more probable have a probability of at most `topp`
together. -/
theorem sample_nucleus (positive : ∀ x, 0 < expf x) (sampler : Sampler K) (logits : Nat → K)
    (offsetsFit : 8 * sampler.vocabSize < 2 ^ 32) (warm : sampler.temperature ≠ 0)
    (share : 1 ≤ sampler.vocabSize * sampler.topp) (below : sampler.topp < 1) :
    let probabilities := @tokenProbabilities K (exactOps expf) sampler logits
    ∃ token < sampler.vocabSize,
      (@sample K (exactOps expf) sampler logits).1 = some token ∧
        ∑ i ∈ range sampler.vocabSize with probabilities token < probabilities i,
          probabilities i ≤ sampler.topp := by
  intro probabilities
  have small : sampler.vocabSize < 2 ^ 31 := by omega
  have above : 0 < sampler.topp := pos_of_mul_pos_right (one_pos.trans_le share) (Nat.cast_nonneg _)
  have several : 1 < sampler.vocabSize := by
    by_contra few
    have one : (sampler.vocabSize : K) ≤ 1 := by exact_mod_cast not_lt.mp few
    exact absurd (share.trans (mul_le_of_le_one_left above.le one)) (not_le.mpr below)
  obtain ⟨nonneg, total⟩ :
      (∀ i < sampler.vocabSize, 0 ≤ probabilities i) ∧
        ∑ i ∈ range sampler.vocabSize, probabilities i = 1 :=
    softmax_distribution expf positive _ (Nat.zero_lt_of_lt several)
  have isTopp := @sample_topp K (exactOps expf) sampler logits (decide_eq_false warm)
    (decide_eq_false above.not_ge) (decide_eq_false below.not_ge)
  cases isSample : (@sample K (exactOps expf) sampler logits).1 with
  | none =>
    obtain ⟨i, inside, passes⟩ := exists_cutoff_le expf several total share
    rw [isTopp, (@sampleTopp_token K (exactOps expf) _ _ _ _ _ small).2] at isSample
    exact absurd passes (of_decide_eq_false (isSample i inside))
  | some token =>
    rw [isTopp] at isSample
    exact ⟨token, (@sampleTopp_token K (exactOps expf) _ _ _ _ _ small).1 token isSample, rfl,
      sampleTopp_nucleus expf small nonneg above.le isSample⟩

theorem sample_nucleus_two :
    ∃ token < 2,
      (@sample ℚ (exactOps fun _ => 1) ⟨2, fun _ => ⟨0, 0⟩, 1, 9 / 10, 1⟩ fun i => i).1 =
        some token := by
  obtain ⟨token, inVocabulary, isToken, -⟩ :=
    sample_nucleus (fun _ => (1 : ℚ)) (fun _ => one_pos) ⟨2, fun _ => ⟨0, 0⟩, 1, 9 / 10, 1⟩
      (fun i => i) (by decide) one_ne_zero (by norm_num) (by norm_num)
  exact ⟨token, inVocabulary, isToken⟩

end Exact

end LlmRuntime.LlamaCore
