import LlmRuntime.Library.Bytes
import LlmRuntime.Stdlib.QsortBytes
import LlmRuntime.Tokenizer.Lookup

/-!
# The table of the vocabulary in memory

An array of structures of 16 bytes, each with a pointer to a string and an id.
`xqsort` moves them byte by byte, and `xbsearch` moves pointers over them.
-/

namespace LlmRuntime.Bpe

open Bytes Stdlib Rearrangement

universe u

/-- The `TokenIndex` in 16 bytes: the two words of a pointer, the id and
padding.  The strings are found by the words of their pointers. -/
def entryOf (strings : UInt32 → UInt32 → CString) (bytes : List UInt8) : TokenIndex :=
  let (low, afterLow) := readLeWord bytes
  let (high, afterHigh) := readLeWord afterLow
  let (id, _) := readLeWord afterHigh
  ⟨strings low high, id.toNat⟩

/-- The block of `sorted_vocab` as the first call of `encode` has filled it,
with the header of its allocation in front. -/
structure TableBlock {S : Type u} (t : Tokenizer S) where
  strings : UInt32 → UInt32 → CString
  base : Nat
  mem : Nat → UInt8
  header : 16 ≤ base
  fits : base + 16 * t.vocabSize < 2 ^ 64
  filled : ∀ i < t.vocabSize, entryOf strings (elements 16 mem i) = ⟨t.vocab i, i⟩

variable {S : Type u} {t : Tokenizer S}

def TableBlock.sort (block : TableBlock t) : Option (Nat → UInt8) :=
  xqsortBytes
    (fun _ _ a b =>
      compareTokens (entryOf block.strings a) (entryOf block.strings b))
    block.mem (UInt32.ofNat t.vocabSize) 16

def TableBlock.read (block : TableBlock t) (mem : Nat → UInt8) (ptr : Nat) : TokenIndex :=
  entryOf block.strings (bytesAt 16 mem (ptr - block.base))

/-- `str_lookup` over the block, for at most `fuel` turns of the search. -/
def TableBlock.strLookup (block : TableBlock t) (mem : Nat → UInt8) (str : CString)
    (fuel : Nat) : Option Int :=
  (xbsearchAt compareTokens ⟨str, 0⟩ (block.read mem) block.base
    (UInt32.ofNat t.vocabSize) 16 fuel).map fun
      | some ptr => (block.read mem ptr).id
      | none => -1

theorem TableBlock.sort_sorts (block : TableBlock t) (few : t.vocabSize < 2 ^ 27) :
    ∃ sorted, block.sort = some sorted ∧
      Sorts t fun k => entryOf block.strings (elements 16 sorted k) := by
  have isCount : (UInt32.ofNat t.vocabSize).toNat = t.vocabSize := by
    rw [UInt32.toNat_ofNat']
    omega
  have sixteen : (16 : UInt32).toNat = 16 := rfl
  have total : (UInt32.ofNat t.vocabSize).toNat * (16 : UInt32).toNat < 2 ^ 32 := by
    rw [isCount, sixteen]
    omega
  have preorder :
      TotalPreorder fun a b =>
        compareTokens (entryOf block.strings a) (entryOf block.strings b) := by
    have onEntries := compareTokens_consistent.preorder
    exact ⟨fun a b => onEntries.total _ _, fun a b c => onEntries.transitive _ _ _⟩
  obtain ⟨sorted, isSorted, rearranged, ordered⟩ :=
    qsortWith_sorts (bytesPartitioner _ 16) (elements 16)
      (show (UInt32.ofNat t.vocabSize).toNat < 2 ^ 63 by omega)
      (bytesPartitioner_moves total) block.mem
  have inOrder := ordered _ preorder (bytesPartitioner_separates total fun _ _ => rfl)
  rw [isCount] at rearranged inOrder
  exact ⟨sorted, isSorted, sorts_of_rearranged block.filled
    (rearranged.map (entryOf block.strings)) inOrder⟩

theorem TableBlock.strLookup_eq (block : TableBlock t) (few : t.vocabSize < 2 ^ 27)
    (mem : Nat → UInt8) (str : CString) {fuel : Nat} (enough : t.vocabSize < fuel) :
    block.strLookup mem str fuel =
      some (Bpe.strLookup str
        (fun k => entryOf block.strings (elements 16 mem k)) t.vocabSize) := by
  have reads (k : Nat) :
      block.read mem (block.base + 16 * k) = entryOf block.strings (elements 16 mem k) := by
    rw [TableBlock.read, Nat.add_sub_cancel_left, Nat.mul_comm]
    rfl
  have atBase :
      ArrayAt (block.read mem) (fun k => entryOf block.strings (elements 16 mem k)) block.base
        t.vocabSize :=
    ⟨few, block.header, block.fits, fun k _ => reads k⟩
  rw [TableBlock.strLookup, xbsearchAt_eq atBase enough, Bpe.strLookup]
  cases xbsearch compareTokens ⟨str, 0⟩
      (fun k => entryOf block.strings (elements 16 mem k)) t.vocabSize with
  | none => rfl
  | some i =>
    rw [Option.map_some, Option.map_some]
    dsimp only
    rw [reads]

/-- After the sort of the table, the lookup comes to an end and returns an id of
the string, or −1 if the vocabulary does not have it. -/
theorem lookup_after_sort (t : Tokenizer S) (few : t.vocabSize < 2 ^ 27)
    (block : TableBlock t) (str : CString) :
    ∃ sorted, block.sort = some sorted ∧
      ∃ enough, ∀ fuel, enough ≤ fuel →
        (∃ id < t.vocabSize, block.strLookup sorted str fuel = some (id : Int) ∧ t.vocab id = str) ∨
          block.strLookup sorted str fuel = some (-1) ∧ ∀ id < t.vocabSize, t.vocab id ≠ str := by
  obtain ⟨sorted, isSorted, sorts⟩ := block.sort_sorts few
  refine ⟨sorted, isSorted, t.vocabSize + 1, ?_⟩
  intro fuel enough
  rw [block.strLookup_eq few sorted str enough]
  rcases strLookup_cases sorts str with ⟨isMissing, noString⟩ | ⟨id, inVocab, isFound, isString⟩
  · rw [isMissing]
    exact .inr ⟨rfl, noString⟩
  · rw [isFound]
    exact .inl ⟨id, inVocab, rfl, isString⟩

def twoLetters : Nat → CString
  | 0 => literal "b"
  | _ => literal "a"

theorem two_lt : 2 < 2 ^ 31 := by
  decide

def letterTokens : Tokenizer Unit := buildTokenizer twoLetters (fun _ => ()) 1 2 two_lt

def letterBytes : List UInt8 :=
  [0, 0, 0, 0, 0, 0, 0, 0, 0, 0, 0, 0, 0, 0, 0, 0, 1, 0, 0, 0, 0, 0, 0, 0, 1, 0, 0, 0, 0, 0, 0, 0]

theorem letterBytes_filled (i : Nat) (inVocab : i < letterTokens.vocabSize) :
    entryOf (fun low _ => twoLetters low.toNat) (elements 16 (fun k => letterBytes.getD k 0) i) =
      ⟨letterTokens.vocab i, i⟩ := by
  have isLetter : i < 2 := inVocab
  interval_cases i
  · rfl
  · rfl

theorem letterBytes_fits : 4096 + 16 * letterTokens.vocabSize < 2 ^ 64 := by
  decide

theorem letterBytes_header : 16 ≤ 4096 := by
  decide

def letterBlock : TableBlock letterTokens where
  strings := fun low _ => twoLetters low.toNat
  base := 4096
  mem := fun k => letterBytes.getD k 0
  header := letterBytes_header
  fits := letterBytes_fits
  filled := letterBytes_filled

theorem letterBlock_lookup :
    ∃ sorted fuel, letterBlock.sort = some sorted ∧
      letterBlock.strLookup sorted (literal "a") fuel = some 1 := by
  obtain ⟨sorted, isSorted, enough, looksUp⟩ :=
    lookup_after_sort letterTokens (by decide) letterBlock (literal "a")
  refine ⟨sorted, enough, isSorted, ?_⟩
  rcases looksUp enough le_rfl with ⟨id, inVocab, isFound, isString⟩ | ⟨-, noString⟩
  · have isLetter : id < 2 := inVocab
    interval_cases id
    · exact absurd isString (by decide)
    · exact isFound
  · exact absurd rfl (noString 1 (by decide))

end LlmRuntime.Bpe
