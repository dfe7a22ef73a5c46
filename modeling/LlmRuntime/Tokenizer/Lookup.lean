import LlmRuntime.Stdlib.Strings

/-!
# Looking a string up in the vocabulary

The first call of `encode` sorts pairs of a string and its id with `xqsort`;
`str_lookup` then searches them with `xbsearch`.
-/

namespace LlmRuntime.Bpe

open Stdlib Rearrangement

universe u

structure TokenIndex where
  str : CString
  id : Nat

def compareTokens (a b : TokenIndex) : Int := strcmp a.str b.str

/-- The table that the first call of `encode` fills and sorts.  An entry has 16
bytes, and `malloc` takes 32 bits of the size: from `2 ^ 28` entries on the
table is filled behind its end. -/
def sortVocab (vocab : Nat → CString) (vocabSize : Nat) : Option (Nat → TokenIndex) :=
  if 16 * vocabSize < 2 ^ 32 then xqsort compareTokens (fun i => ⟨vocab i, i⟩) vocabSize
  else none

/-- The tokenizer.  `sortedVocab` is null until the first call of `encode`, and
then the sorted table. -/
structure Tokenizer (S : Type u) where
  vocab : Nat → CString
  vocabScores : Nat → S
  sortedVocab : Option (Nat → TokenIndex)
  vocabSize : Nat
  maxTokenLength : Nat
  /-- The source declares the size as an `int`. -/
  vocabSize_lt : vocabSize < 2 ^ 31
  sortedVocab_eq : ∀ table, sortedVocab = some table → sortVocab vocab vocabSize = some table

variable {S : Type u} {t : Tokenizer S} {table : Nat → TokenIndex}

theorem sortVocab_of_null (vocab : Nat → CString) (vocabSize : Nat)
    (table : Nat → TokenIndex) (isTable : none = some table) :
    sortVocab vocab vocabSize = some table := absurd isTable (Option.some_ne_none table).symm

def buildTokenizer (vocab : Nat → CString) (vocabScores : Nat → S)
    (maxTokenLength vocabSize : Nat) (isInt : vocabSize < 2 ^ 31) :
    Tokenizer S where
  vocab := vocab
  vocabScores := vocabScores
  sortedVocab := none
  vocabSize := vocabSize
  maxTokenLength := maxTokenLength
  vocabSize_lt := isInt
  sortedVocab_eq := sortVocab_of_null vocab vocabSize

/-- The table of a call of `encode`, sorted now if it is the first. -/
def vocabTable (t : Tokenizer S) : Option (Nat → TokenIndex) :=
  match t.sortedVocab with
  | some table => some table
  | none => sortVocab t.vocab t.vocabSize

theorem vocabTable_eq (t : Tokenizer S) : vocabTable t = sortVocab t.vocab t.vocabSize := by
  rw [vocabTable]
  cases isTable : t.sortedVocab with
  | none => rfl
  | some table => exact (t.sortedVocab_eq table isTable).symm

theorem sortVocab_of_vocabTable (isTable : vocabTable t = some table)
    (kept : Nat → TokenIndex) (isKept : some table = some kept) :
    sortVocab t.vocab t.vocabSize = some kept := by
  rw [← vocabTable_eq, isTable, isKept]

def Tokenizer.withTable (t : Tokenizer S) (table : Nat → TokenIndex)
    (isTable : vocabTable t = some table) : Tokenizer S where
  vocab := t.vocab
  vocabScores := t.vocabScores
  sortedVocab := some table
  vocabSize := t.vocabSize
  maxTokenLength := t.maxTokenLength
  vocabSize_lt := t.vocabSize_lt
  sortedVocab_eq := sortVocab_of_vocabTable isTable

def strLookup (str : CString) (sortedVocab : Nat → TokenIndex) (vocabSize : Nat) : Int :=
  match xbsearch compareTokens ⟨str, 0⟩ sortedVocab vocabSize with
  | some i => (sortedVocab i).id
  | none => -1

theorem compareTokens_consistent : Consistent compareTokens := by
  refine ⟨⟨?_, ?_⟩, ?_⟩
  · intro a b
    have isSwapped := strcmp_swap a.str b.str
    rw [compareTokens, compareTokens]
    omega
  · intro a b c
    exact strcmp_transitive a.str b.str c.str
  · intro a b
    have isSwapped := strcmp_swap a.str b.str
    rw [compareTokens, compareTokens]
    omega

/-- The table holds every entry of the vocabulary and nothing else, in order. -/
structure Sorts (t : Tokenizer S) (table : Nat → TokenIndex) : Prop where
  entry : ∀ i < t.vocabSize, ∃ id < t.vocabSize, table i = ⟨t.vocab id, id⟩
  holds : ∀ id < t.vocabSize, ∃ i < t.vocabSize, table i = ⟨t.vocab id, id⟩
  ordered : ∀ i j, i < j → j < t.vocabSize → compareTokens (table i) (table j) ≤ 0

theorem sorts_of_rearranged {arr : Nat → TokenIndex}
    (filled : ∀ i < t.vocabSize, arr i = ⟨t.vocab i, i⟩)
    (rearranged : Rearranged 0 (t.vocabSize - 1) arr table)
    (ordered : ∀ i j, i < j → j < t.vocabSize → compareTokens (table i) (table j) ≤ 0) :
    Sorts t table := by
  refine ⟨?_, ?_, ordered⟩
  · intro i inTable
    obtain ⟨id, inVocab, isEntry⟩ := rearranged.apply_inside (i := i) (by omega)
    exact ⟨id, by omega, isEntry.trans (filled id (by omega))⟩
  · intro id inVocab
    obtain ⟨i, inTable, isEntry⟩ := rearranged.symm.apply_inside (i := id) (by omega)
    exact ⟨i, by omega, isEntry.symm.trans (filled id inVocab)⟩

theorem vocabTable_sorts (tableFits : 16 * t.vocabSize < 2 ^ 32) :
    ∃ table, vocabTable t = some table ∧ Sorts t table := by
  have small : t.vocabSize < 2 ^ 63 := t.vocabSize_lt.trans (by decide)
  obtain ⟨table, isSorted, rearranged, ordered⟩ :=
    xqsort_sorts compareTokens (fun i => (⟨t.vocab i, i⟩ : TokenIndex)) small
  exact ⟨table, (vocabTable_eq t).trans ((if_pos tableFits).trans isSorted),
    sorts_of_rearranged (fun _ _ => rfl) rearranged (ordered compareTokens_consistent.preorder)⟩

/-- The lookup returns an id of the string, or −1 if the vocabulary does not
have it. -/
theorem strLookup_cases (sorts : Sorts t table) (str : CString) :
    (strLookup str table t.vocabSize = -1 ∧ ∀ id < t.vocabSize, t.vocab id ≠ str) ∨
      ∃ id < t.vocabSize, strLookup str table t.vocabSize = id ∧ t.vocab id = str := by
  cases isSearch : xbsearch compareTokens ⟨str, 0⟩ table t.vocabSize with
  | none =>
    refine .inl ⟨by rw [strLookup, isSearch], ?_⟩
    intro id inVocab isString
    obtain ⟨i, inTable, isEntry⟩ := sorts.holds id inVocab
    refine xbsearch_none compareTokens_consistent sorts.ordered isSearch inTable ?_
    rw [isEntry, compareTokens, strcmp_eq_zero_iff]
    exact isString.symm
  | some i =>
    obtain ⟨inTable, isEqual⟩ := xbsearch_some isSearch
    obtain ⟨id, inVocab, isEntry⟩ := sorts.entry i inTable
    refine .inr ⟨id, inVocab, ?_, ?_⟩
    · rw [strLookup, isSearch]
      dsimp only
      rw [isEntry]
    · rw [isEntry, compareTokens, strcmp_eq_zero_iff] at isEqual
      exact isEqual.symm

theorem strLookup_eq_neg_one_iff (sorts : Sorts t table) (str : CString) :
    strLookup str table t.vocabSize = -1 ↔ ∀ id < t.vocabSize, t.vocab id ≠ str := by
  rcases strLookup_cases sorts str with ⟨isMissing, noString⟩ | ⟨id, inVocab, isFound, isString⟩
  · exact iff_of_true isMissing noString
  · refine iff_of_false (by omega) ?_
    intro noString
    exact noString id inVocab isString

end LlmRuntime.Bpe
