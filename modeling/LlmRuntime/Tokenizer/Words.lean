import LlmRuntime.Tokenizer.Merge

/-!
# The words that merging leaves

Greedy joining of adjacent words, in terms of strings alone.  The strings of the
tokens that the loop of `encode` leaves are these words.
-/

namespace LlmRuntime.Bpe

open Stdlib

universe u

variable {S : Type u} {t : Tokenizer S} {table : Nat → TokenIndex}

def words (t : Tokenizer S) (tokens : List Int) : List CString :=
  tokens.map fun token => t.vocab token.toNat

/-- The score of a string that the vocabulary has. -/
def wordScore (t : Tokenizer S) (table : Nat → TokenIndex) (word : CString) : Option S :=
  let id := strLookup word table t.vocabSize
  if id ≠ -1 then some (t.vocabScores id.toNat) else none

/-- What the recorded merge makes of the tokens. -/
def Best.words (t : Tokenizer S) (tokens : List Int) (best : Best S) : Option (List CString) :=
  best.found.map fun pair => Bpe.words t ((tokens.set pair.1 pair.2).eraseIdx (pair.1 + 1))

theorem words_pair (front rest : List Int) (a b : Int) {id : Nat}
    (isString : t.vocab id = t.vocab a.toNat ++ t.vocab b.toNat) (score : S) :
    Best.words t (front ++ a :: b :: rest) ⟨score, some (front.length, (id : Int))⟩ =
      some (words t front ++ (t.vocab a.toNat ++ t.vocab b.toNat) :: words t rest) := by
  rw [Best.words, Option.map_some, set_eraseIdx_pair]
  simp [words, isString]

section Order

variable [LT S] [DecidableLT S] {lowest : S}

/-- The words with the best of their joins, the first if there are several.  The
joins within `front` have been looked at; the best of them has the score `best`
and makes `found`. -/
def bestJoin (score : CString → Option S) :
    List CString → List CString → S → Option (List CString) → Option (List CString)
  | front, a :: b :: rest, best, found =>
    match score (a ++ b) with
    | none => bestJoin score (front ++ [a]) (b :: rest) best found
    | some better =>
      if best < better then
        bestJoin score (front ++ [a]) (b :: rest) better (some (front ++ (a ++ b) :: rest))
      else bestJoin score (front ++ [a]) (b :: rest) best found
  | _, [_], _, found => found
  | _, [], _, found => found

/-- Join words as long as there is a join with a score above `lowest`, at most
`fuel` times; each join leaves one word less. -/
def joinWords (score : CString → Option S) (lowest : S) : Nat → List CString → List CString
  | 0, ws => ws
  | fuel + 1, ws =>
    match bestJoin score [] ws lowest none with
    | none => ws
    | some next => joinWords score lowest fuel next

theorem bestJoin_consider (sorts : Sorts t table) (front rest : List Int) (a b : Int)
    (best : Best S) :
    let considered := best.consider t front.length
      (strLookup (t.vocab a.toNat ++ t.vocab b.toNat) table t.vocabSize)
    bestJoin (wordScore t table) (words t front) (words t (a :: b :: rest)) best.score
        (best.words t (front ++ a :: b :: rest)) =
      bestJoin (wordScore t table) (words t front ++ [t.vocab a.toNat]) (words t (b :: rest))
        considered.score (considered.words t (front ++ a :: b :: rest)) := by
  intro considered
  have isConsidered : considered = best.consider t front.length _ := rfl
  change bestJoin _ _ (t.vocab a.toNat :: t.vocab b.toNat :: words t rest) _ _ = _
  rw [bestJoin]
  rcases strLookup_cases sorts (t.vocab a.toNat ++ t.vocab b.toNat) with
    ⟨isMissing, -⟩ | ⟨id, -, isFound, isString⟩
  · have noScore : wordScore t table (t.vocab a.toNat ++ t.vocab b.toNat) = none :=
      if_neg (not_not.mpr isMissing)
    rw [Best.consider, if_neg (fun both => both.1 isMissing)] at isConsidered
    rw [noScore, isConsidered]
    rfl
  · have isScore : wordScore t table (t.vocab a.toNat ++ t.vocab b.toNat) =
        some (t.vocabScores id) := by
      rw [wordScore, isFound, if_pos (by omega), Int.toNat_natCast]
    rw [Best.consider, isFound, Int.toNat_natCast] at isConsidered
    rw [isScore]
    dsimp only
    split_ifs with isBetter
    · rw [if_pos ⟨by omega, isBetter⟩] at isConsidered
      rw [isConsidered, words_pair front rest a b isString]
      rfl
    · rw [if_neg (fun both => isBetter both.2)] at isConsidered
      rw [isConsidered]
      rfl

/-- The pass over the pairs of tokens is the pass over the pairs of words. -/
theorem bestPair_words (usable : Usable t) (sorts : Sorts t table) {front rest : List Int}
    (valid : Valid t (front ++ rest)) (best : Best S) :
    ∃ result, bestPair t table front.length rest best = some result ∧
      result.words t (front ++ rest) =
        bestJoin (wordScore t table) (words t front) (words t rest) best.score
          (best.words t (front ++ rest)) := by
  induction rest generalizing front best with
  | nil => exact ⟨best, by rw [bestPair], rfl⟩
  | cons a rest ih =>
    cases rest with
    | nil => exact ⟨best, by rw [bestPair], rfl⟩
    | cons b rest =>
      have isJoined := usable.joined_eq (valid a (by simp)) (valid b (by simp))
      have regrouped : front ++ [a] ++ b :: rest = front ++ a :: b :: rest := by simp
      have frontWords : words t (front ++ [a]) = words t front ++ [t.vocab a.toNat] := by
        simp [words]
      obtain ⟨result, isResult, isWords⟩ := @ih (front ++ [a]) (by rw [regrouped]; exact valid)
        (best.consider t front.length
          (strLookup (t.vocab a.toNat ++ t.vocab b.toNat) table t.vocabSize))
      rw [regrouped, frontWords] at isWords
      rw [List.length_append, List.length_singleton] at isResult
      refine ⟨result, ?_, isWords.trans (bestJoin_consider sorts front rest a b best).symm⟩
      rw [bestPair, isJoined]
      exact isResult

theorem mergeLoop_of_none {tokens : List Int}
    (isTurn : mergeTurn lowest t table tokens = some none) :
    mergeLoop lowest t table tokens = some tokens := by
  rw [mergeLoop]
  split <;> simp_all

theorem mergeLoop_of_some {tokens next : List Int}
    (isTurn : mergeTurn lowest t table tokens = some (some next)) :
    mergeLoop lowest t table tokens = mergeLoop lowest t table next := by
  rw [mergeLoop]
  split <;> simp_all

/-- The loop on tokens joins their words. -/
theorem mergeLoop_words (usable : Usable t) (sorts : Sorts t table) {tokens final : List Int}
    (valid : Valid t tokens) (isFinal : mergeLoop lowest t table tokens = some final)
    {fuel : Nat} (enough : tokens.length ≤ fuel) :
    joinWords (wordScore t table) lowest fuel (words t tokens) = words t final := by
  induction fuel generalizing tokens with
  | zero =>
    have isEmpty : tokens = [] := List.length_eq_zero_iff.mp (by omega)
    rw [isEmpty, mergeLoop, mergeTurn, bestPair] at isFinal
    rw [joinWords, isEmpty, ← Option.some.inj isFinal]
  | succ fuel ih =>
    obtain ⟨result, isPass, isWords⟩ :=
      @bestPair_words _ _ _ _ _ usable sorts [] tokens valid ⟨lowest, none⟩
    have isTurn : mergeTurn lowest t table tokens = some (result.found.map fun pair =>
        (tokens.set pair.1 pair.2).eraseIdx (pair.1 + 1)) := by
      rw [mergeTurn, show bestPair t table 0 tokens ⟨lowest, none⟩ = some result from isPass]
      dsimp only
      cases result.found with
      | none | some => rfl
    have isJoin : bestJoin (wordScore t table) [] (words t tokens) lowest none =
        result.words t tokens := isWords.symm
    rw [joinWords, isJoin, Best.words]
    cases isFound : result.found with
    | none =>
      rw [isFound, Option.map_none] at isTurn
      rw [mergeLoop_of_none isTurn] at isFinal
      rw [Option.map_none, Option.some.inj isFinal]
    | some pair =>
      rw [isFound, Option.map_some] at isTurn
      rw [mergeLoop_of_some isTurn] at isFinal
      have merged := mergeTurn_merged isTurn
      have isShorter := merged.length_succ
      exact ih (merged.valid usable sorts valid) isFinal (by omega)

end Order

end LlmRuntime.Bpe
