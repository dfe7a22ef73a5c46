import LlmRuntime.Tokenizer.Encode

/-!
# Merging tokens

`encode` merges the adjacent pair with the highest score until no pair is left.
Scores are compared with `>` alone; `lowest` is the score `-1e10` that a merge
has to exceed.
-/

namespace LlmRuntime.Bpe

open Stdlib Relation

universe u

variable {S : Type u} {t : Tokenizer S} {table : Nat → TokenIndex}

/-- `t->vocab[token]`; `none` is a read outside the vocabulary. -/
def Tokenizer.piece (t : Tokenizer S) (token : Int) : Option CString :=
  if 0 ≤ token ∧ token < t.vocabSize then some (t.vocab token.toNat) else none

/-- The strings of two tokens, written into `str_buffer`. -/
def joined (t : Tokenizer S) (a b : Int) : Option CString :=
  match t.piece a, t.piece b with
  | some first, some second =>
    match xsprintf (literal "%s%s") [.str (some first), .str (some second)] with
    | none => none
    | some written => if written.length < t.bufferSize then some written else none
  | _, _ => none

/-- The tokenizers with a space and the tokens of the bytes, whose table can be
allocated. -/
structure Usable (t : Tokenizer S) : Prop where
  hasSpace : ∃ id < t.vocabSize, t.vocab id = literal " "
  size : 259 ≤ t.vocabSize
  short : ∀ id < t.vocabSize, (t.vocab id).length ≤ t.maxTokenLength
  maxLength : t.maxTokenLength ≤ 511
  tableFits : 16 * t.vocabSize < 2 ^ 32

def Valid (t : Tokenizer S) (tokens : List Int) : Prop :=
  ∀ token ∈ tokens, 0 ≤ token ∧ token < t.vocabSize

def spelled (t : Tokenizer S) (tokens : List Int) : CString :=
  tokens.flatMap fun token => t.vocab token.toNat

theorem Valid.append {front back : List Int} (frontValid : Valid t front)
    (backValid : Valid t back) :
    Valid t (front ++ back) := by
  intro token isIn
  rcases List.mem_append.mp isIn with isFront | isBack
  · exact frontValid token isFront
  · exact backValid token isBack

theorem valid_asked {token : Int} (isId : 0 ≤ token ∧ token < t.vocabSize) (wanted : Bool) :
    Valid t (asked wanted token) := by
  intro other isIn
  rw [asked] at isIn
  split_ifs at isIn
  · rw [List.mem_singleton.mp isIn]
    exact isId
  · exact absurd isIn List.not_mem_nil

theorem valid_pieces (usable : Usable t) (sorts : Sorts t table) (text : CString) :
    Valid t ((pieces t table text).map Piece.token) := by
  have size := usable.size
  intro token isIn
  obtain ⟨piece, isPiece, rfl⟩ := List.mem_map.mp isIn
  obtain ⟨group, -, isOfGroup⟩ := List.mem_flatMap.mp isPiece
  rw [groupPieces] at isOfGroup
  rcases strLookup_cases sorts group with ⟨isMissing, -⟩ | ⟨id, inVocab, isFound, -⟩
  · rw [isMissing, if_neg (by decide)] at isOfGroup
    obtain ⟨b, -, rfl⟩ := List.mem_map.mp isOfGroup
    have isByte := b.toNat_lt
    rw [Piece.token]
    omega
  · rw [isFound, if_pos (by omega), Int.toNat_natCast] at isOfGroup
    rw [List.mem_singleton.mp isOfGroup, Piece.token]
    omega

namespace Usable

theorem bufferSize_eq (usable : Usable t) : t.bufferSize = t.maxTokenLength * 2 + 3 := by
  have maxLength := usable.maxLength
  rw [Tokenizer.bufferSize, Nat.mod_eq_of_lt (by omega)]

theorem bufferSize_gt (usable : Usable t) : 4 < t.bufferSize := by
  obtain ⟨id, inVocab, isSpace⟩ := usable.hasSpace
  have isShort := usable.short id inVocab
  rw [isSpace] at isShort
  have spaceLength : (literal " ").length = 1 := by decide
  rw [usable.bufferSize_eq]
  omega

/-- Two strings of the vocabulary fit into the buffer, and are not cut. -/
theorem joined_eq (usable : Usable t) {a b : Int}
    (aValid : 0 ≤ a ∧ a < t.vocabSize) (bValid : 0 ≤ b ∧ b < t.vocabSize) :
    joined t a b = some (t.vocab a.toNat ++ t.vocab b.toNat) := by
  have firstShort := usable.short a.toNat (by omega)
  have secondShort := usable.short b.toNat (by omega)
  have maxLength := usable.maxLength
  have length :
      (t.vocab a.toNat ++ t.vocab b.toNat).length =
        (t.vocab a.toNat).length + (t.vocab b.toNat).length :=
    List.length_append
  have notCut :
      (t.vocab a.toNat ++ t.vocab b.toNat).take 1023 = t.vocab a.toNat ++ t.vocab b.toNat :=
    List.take_of_length_le (by omega)
  rw [joined, Tokenizer.piece, if_pos aValid, Tokenizer.piece, if_pos bValid]
  dsimp only
  rw [xsprintf_twoStrings, notCut]
  dsimp only
  rw [usable.bufferSize_eq, if_pos (by omega)]

end Usable

/-- The tokens of a pair are replaced by the token that was looked up. -/
inductive Merged (t : Tokenizer S) (table : Nat → TokenIndex) :
    List Int → List Int → Prop
  | pair (front back : List Int) {a b : Int} {str : CString}
      (isJoined : joined t a b = some str)
      (isFound : strLookup str table t.vocabSize ≠ -1) :
      Merged t table (front ++ a :: b :: back) (front ++ strLookup str table t.vocabSize :: back)

theorem Merged.length_succ {tokens next : List Int} (merged : Merged t table tokens next) :
    next.length + 1 = tokens.length := by
  cases merged with
  | pair front back isJoined isFound =>
    simp only [List.length_append, List.length_cons]
    omega

/-- A merge in terms of ids: the string of the new one is that of the pair. -/
theorem Merged.ids {tokens next : List Int} (merged : Merged t table tokens next)
    (usable : Usable t) (sorts : Sorts t table) (valid : Valid t tokens) :
    ∃ (front back : List Int) (i j id : Nat),
      i < t.vocabSize ∧ j < t.vocabSize ∧ id < t.vocabSize ∧
        tokens = front ++ (i : Int) :: (j : Int) :: back ∧
        next = front ++ (id : Int) :: back ∧
        t.vocab id = t.vocab i ++ t.vocab j ∧
        strLookup (t.vocab id) table t.vocabSize = id := by
  cases merged with
  | @pair front back a b str isJoined isFound =>
    have aValid := valid a (by simp)
    have bValid := valid b (by simp)
    rw [usable.joined_eq aValid bValid] at isJoined
    rcases strLookup_cases sorts str with ⟨isMissing, -⟩ | ⟨id, inVocab, isId, isString⟩
    · exact absurd isMissing isFound
    · refine ⟨front, back, a.toNat, b.toNat, id, by omega, by omega, inVocab, ?_, ?_, ?_, ?_⟩
      · rw [Int.toNat_of_nonneg aValid.1, Int.toNat_of_nonneg bValid.1]
      · rw [isId]
      · rw [isString, ← Option.some.inj isJoined]
      · rw [isString, isId]

theorem Merged.valid {tokens next : List Int} (merged : Merged t table tokens next)
    (usable : Usable t) (sorts : Sorts t table) (valid : Valid t tokens) :
    Valid t next := by
  obtain ⟨front, back, i, j, id, -, -, inVocab, rfl, rfl, -, -⟩ := merged.ids usable sorts valid
  intro token isIn
  rcases List.mem_append.mp isIn with isFront | isRest
  · exact valid token (List.mem_append_left _ isFront)
  · rcases List.mem_cons.mp isRest with rfl | isBack
    · exact ⟨Int.natCast_nonneg id, by exact_mod_cast inVocab⟩
    · exact valid token (by simp [isBack])

theorem Merged.spelled_eq {tokens next : List Int} (merged : Merged t table tokens next)
    (usable : Usable t) (sorts : Sorts t table) (valid : Valid t tokens) :
    spelled t next = spelled t tokens := by
  obtain ⟨front, back, i, j, id, -, -, -, rfl, rfl, isString, -⟩ := merged.ids usable sorts valid
  simp only [spelled, List.flatMap_append, List.flatMap_cons,
    Int.toNat_natCast, isString, List.append_assoc]

theorem length_withDummy_le (text : CString) : (withDummy text).length ≤ text.length + 1 := by
  rw [withDummy]
  split_ifs
  · exact Nat.zero_le _
  · rw [List.length_append, Nat.add_comm]
    exact le_refl _

theorem Usable.raw_ok (usable : Usable t) (sorts : Sorts t table) (text : CString) (bos : Bool) :
    Valid t (bosTokens bos ++ (pieces t table text).map Piece.token) ∧
      (bosTokens bos ++ (pieces t table text).map Piece.token).length ≤ text.length + 2 := by
  have size := usable.size
  refine ⟨(valid_asked (by omega) bos).append (valid_pieces usable sorts text), ?_⟩
  have bosLength : (bosTokens bos).length ≤ 1 := length_asked_le bos 1
  have piecesLength := @length_pieces_le _ t table text
  have dummyLength := length_withDummy_le text
  rw [List.length_append, List.length_map]
  omega

theorem pair_infix_cons_iff {a b c d : Int} {rest : List Int} :
    [a, b] <:+: c :: d :: rest ↔ (a = c ∧ b = d) ∨ [a, b] <:+: d :: rest := by
  rw [List.infix_cons_iff, List.cons_prefix_cons, List.cons_prefix_cons]
  simp only [List.nil_prefix, and_true]

theorem not_pair_infix_singleton (a b c : Int) : ¬ [a, b] <:+: [c] := by
  intro isPair
  have tooLong := isPair.length_le
  exact absurd tooLong (by simp)

theorem set_eraseIdx_pair (front back : List Int) (a b id : Int) :
    ((front ++ a :: b :: back).set front.length id).eraseIdx
        (front.length + 1) =
      front ++ id :: back := by
  rw [List.set_append_right _ _ (le_refl _), Nat.sub_self, List.set_cons_zero,
    List.eraseIdx_append_of_length_le (Nat.le_succ _), Nat.succ_sub (le_refl _), Nat.sub_self]
  rfl

section Order

variable [LT S] [DecidableLT S] {lowest : S}

/-- The best merge so far: its score, and its index and id if there is one. -/
structure Best (S : Type u) where
  score : S
  found : Option (Nat × Int)

def Best.consider (t : Tokenizer S) (best : Best S) (i : Nat) (id : Int) : Best S :=
  if id ≠ -1 ∧ best.score < t.vocabScores id.toNat then ⟨t.vocabScores id.toNat, some (i, id)⟩
  else best

/-- The pass over the adjacent pairs, of which the first is at index `i`. -/
def bestPair (t : Tokenizer S) (table : Nat → TokenIndex) :
    Nat → List Int → Best S → Option (Best S)
  | i, a :: b :: rest, best =>
    match joined t a b with
    | none => none
    | some str =>
      bestPair t table (i + 1) (b :: rest) (best.consider t i (strLookup str table t.vocabSize))
  | _, [_], best => some best
  | _, [], best => some best

/-- One turn of the loop: `some none` leaves it. -/
def mergeTurn (lowest : S) (t : Tokenizer S) (table : Nat → TokenIndex)
    (tokens : List Int) : Option (Option (List Int)) :=
  match bestPair t table 0 tokens ⟨lowest, none⟩ with
  | none => none
  | some best =>
    match best.found with
    | none => some none
    | some (i, id) => some (some ((tokens.set i id).eraseIdx (i + 1)))

/-! ## What a turn can do -/

/-- No adjacent pair has a string with a score above `score`. -/
def NoneAbove (t : Tokenizer S) (table : Nat → TokenIndex) (score : S) (tokens : List Int) : Prop :=
  ∀ a b str, [a, b] <:+: tokens → joined t a b = some str →
    strLookup str table t.vocabSize = -1 ∨
      ¬ score < t.vocabScores (strLookup str table t.vocabSize).toNat

/-- The pass leaves the best merge as it was, because no pair is above its
score, or records a pair at its index. -/
theorem bestPair_some {i : Nat} {tokens : List Int} {best result : Best S}
    (isResult : bestPair t table i tokens best = some result) :
    (result = best ∧ NoneAbove t table best.score tokens) ∨
      ∃ front a b back str,
        tokens = front ++ a :: b :: back ∧
          joined t a b = some str ∧
          strLookup str table t.vocabSize ≠ -1 ∧
          result.found = some (i + front.length, strLookup str table t.vocabSize) := by
  fun_induction bestPair t table i tokens best with
  | case1 i a b rest best notJoined => exact absurd isResult (by simp)
  | case2 i a b rest best str isJoined ih =>
    rcases ih isResult with
      ⟨isBest, noneAbove⟩ |
      ⟨front, c, d, back, other, isRest, isOther, isFound, isRecorded⟩
    · rw [Best.consider] at isBest noneAbove
      split_ifs at isBest noneAbove with isBetter
      · refine .inr ⟨[], a, b, rest, str, rfl, isJoined, isBetter.1, ?_⟩
        rw [isBest, List.length_nil, Nat.add_zero]
      · refine .inl ⟨isBest, ?_⟩
        intro c d other isPair isOther
        rcases pair_infix_cons_iff.mp isPair with ⟨rfl, rfl⟩ | isLater
        · rw [isJoined] at isOther
          rw [← Option.some.inj isOther]
          exact or_iff_not_imp_left.mpr fun isFound isAbove =>
            isBetter ⟨isFound, isAbove⟩
        · exact noneAbove c d other isLater isOther
    · refine .inr ⟨a :: front, c, d, back, other, ?_, isOther, isFound, ?_⟩
      · rw [isRest, List.cons_append]
      · rw [isRecorded, List.length_cons, Nat.add_right_comm, Nat.add_assoc]
  | case3 i a best =>
    refine .inl ⟨(Option.some.inj isResult).symm, ?_⟩
    intro c d other isPair
    exact absurd isPair (not_pair_infix_singleton c d a)
  | case4 i best =>
    refine .inl ⟨(Option.some.inj isResult).symm, ?_⟩
    intro c d other isPair
    exact absurd (List.eq_nil_of_infix_nil isPair) (by simp)

theorem mergeTurn_some {tokens : List Int} {outcome : Option (List Int)}
    (isTurn : mergeTurn lowest t table tokens = some outcome) :
    (outcome = none ∧ NoneAbove t table lowest tokens) ∨
      ∃ next, outcome = some next ∧ Merged t table tokens next := by
  rw [mergeTurn] at isTurn
  cases isPass : bestPair t table 0 tokens ⟨lowest, none⟩ with
  | none =>
    rw [isPass] at isTurn
    exact absurd isTurn (by simp)
  | some best =>
    rw [isPass] at isTurn
    dsimp only at isTurn
    rcases bestPair_some isPass with
      ⟨rfl, noneAbove⟩ |
      ⟨front, a, b, back, str, rfl, isJoined, isFound, isRecorded⟩
    · exact .inl ⟨(Option.some.inj isTurn).symm, noneAbove⟩
    · rw [isRecorded, Nat.zero_add] at isTurn
      dsimp only at isTurn
      rw [set_eraseIdx_pair] at isTurn
      exact .inr ⟨_, (Option.some.inj isTurn).symm, .pair front back isJoined isFound⟩

theorem mergeTurn_merged {tokens next : List Int}
    (isTurn : mergeTurn lowest t table tokens = some (some next)) :
    Merged t table tokens next := by
  rcases mergeTurn_some isTurn with ⟨isLeft, -⟩ | ⟨other, isNext, merged⟩
  · exact absurd isLeft (by simp)
  · rw [Option.some.inj isNext]
    exact merged

def mergeLoop (lowest : S) (t : Tokenizer S) (table : Nat → TokenIndex)
    (tokens : List Int) : Option (List Int) :=
  match _isTurn : mergeTurn lowest t table tokens with
  | none => none
  | some none => some tokens
  | some (some next) => mergeLoop lowest t table next
termination_by tokens.length
decreasing_by
  have isShorter := (mergeTurn_merged _isTurn).length_succ
  omega

/-- The loop takes this turn. -/
def MergeStep (lowest : S) (t : Tokenizer S) (table : Nat → TokenIndex)
    (tokens next : List Int) : Prop := mergeTurn lowest t table tokens = some (some next)

/-- The loop keeps what its turns keep, and ends where no pair can be merged. -/
theorem mergeLoop_rule {holds : List Int → Prop} (isTotal : ∀ tokens, holds tokens →
      (mergeTurn lowest t table tokens).isSome)
    (keeps : ∀ tokens next, holds tokens → MergeStep lowest t table tokens next → holds next)
    (tokens : List Int) (start : holds tokens) :
    ∃ final,
      mergeLoop lowest t table tokens = some final ∧ holds final ∧
        ReflTransGen (MergeStep lowest t table) tokens final ∧
        NoneAbove t table lowest final := by
  fun_induction mergeLoop lowest t table tokens with
  | case1 tokens isTurn =>
    have isSome := isTotal tokens start
    rw [isTurn] at isSome
    exact absurd isSome (by simp)
  | case2 tokens isTurn =>
    rcases mergeTurn_some isTurn with ⟨-, noneAbove⟩ | ⟨next, isNext, -⟩
    · exact ⟨tokens, rfl, start, .refl, noneAbove⟩
    · exact absurd isNext (by simp)
  | case3 tokens next isTurn ih =>
    obtain ⟨final, isFinal, holdsFinal, reached, noneAbove⟩ := ih (keeps tokens next start isTurn)
    exact ⟨final, isFinal, holdsFinal, .head isTurn reached, noneAbove⟩

namespace Usable

theorem bestPair_isSome (usable : Usable t) {tokens : List Int}
    (valid : Valid t tokens) (i : Nat) (best : Best S) :
    (bestPair t table i tokens best).isSome := by
  fun_induction bestPair t table i tokens best with
  | case1 i a b rest best notJoined =>
    rw [usable.joined_eq (valid a (by simp)) (valid b (by simp))] at notJoined
    exact absurd notJoined (by simp)
  | case2 i a b rest best str isJoined ih =>
    exact ih fun token isIn =>
      valid token (List.mem_cons_of_mem a isIn)
  | case3 i a best => rfl
  | case4 i best => rfl

theorem mergeTurn_isSome (usable : Usable t) {tokens : List Int} (valid : Valid t tokens) :
    (mergeTurn lowest t table tokens).isSome := by
  obtain ⟨best, isPass⟩ := Option.isSome_iff_exists.mp
    (@bestPair_isSome _ _ table _ _ usable _ valid 0 ⟨lowest, none⟩)
  rw [mergeTurn, isPass]
  dsimp only
  split
  · rfl
  · rfl

end Usable

def encode (lowest : S) (t : Tokenizer S) (capacity : Nat) (text : CString)
    (bos eos : Bool) : Option (Tokenizer S × List Int) :=
  match isTable : vocabTable t with
  | none => none
  | some table =>
    match rawTokens t table capacity text bos with
    | none => none
    | some raw =>
      match mergeLoop lowest t table raw with
      | none => none
      | some merged =>
        match pushAll capacity merged (eosTokens eos) with
        | none => none
        | some tokens => some (t.withTable table isTable, tokens)

/-- What merges of valid tokens keep, holds wherever the loop comes. -/
theorem Usable.reached_rule (usable : Usable t) (sorts : Sorts t table) {motive : List Int → Prop}
    (keeps : ∀ tokens next, Valid t tokens → motive tokens →
      Merged t table tokens next → motive next)
    {raw tokens : List Int} (valid : Valid t raw) (start : motive raw)
    (reached : ReflTransGen (MergeStep lowest t table) raw tokens) :
    Valid t tokens ∧ motive tokens := by
  induction reached with
  | refl => exact ⟨valid, start⟩
  | tail reached isStep ih =>
    obtain ⟨stillValid, stillHolds⟩ := ih
    have merged := mergeTurn_merged isStep
    exact ⟨merged.valid usable sorts stillValid, keeps _ _ stillValid stillHolds merged⟩

theorem Usable.encode_eq (usable : Usable t) (lowest : S) {text : CString}
    (arrayFits : 4 * (text.length + 3) < 2 ^ 32) (bos eos : Bool) :
    ∃ table raw merged, ∃ isTable : vocabTable t = some table,
      Sorts t table ∧
        rawTokens t table (tokenRoom text) text bos = some raw ∧
        raw = bosTokens bos ++ (pieces t table text).map Piece.token ∧
        mergeLoop lowest t table raw = some merged ∧
        ReflTransGen (MergeStep lowest t table) raw merged ∧
        NoneAbove t table lowest merged ∧
        encode lowest t (tokenRoom text) text bos eos =
          some (t.withTable table isTable, merged ++ eosTokens eos) := by
  obtain ⟨table, isTable, sorts⟩ := vocabTable_sorts usable.tableFits
  rw [tokenRoom_eq arrayFits]
  have isRaw := @rawTokens_eq _ _ _ (text.length + 3) text bos sorts
    usable.hasSpace usable.bufferSize_gt (by omega)
  obtain ⟨valid, rawLength⟩ := usable.raw_ok sorts text bos
  generalize rawEq : bosTokens bos ++ (pieces t table text).map Piece.token = raw at *
  obtain ⟨merged, isMerged, ⟨-, mergedLength⟩, reached, noneAbove⟩ :=
    @mergeLoop_rule _ _ table _ _ lowest
      (fun tokens => Valid t tokens ∧ tokens.length ≤ text.length + 2)
      (fun tokens holds => usable.mergeTurn_isSome holds.1)
      (fun tokens next holds isStep => by
        have merged := mergeTurn_merged isStep
        have isShorter := merged.length_succ
        exact ⟨merged.valid usable sorts holds.1, by omega⟩)
      raw ⟨valid, rawLength⟩
  have eosLength : (eosTokens eos).length ≤ 1 := length_asked_le eos 2
  refine ⟨table, raw, merged, isTable, sorts, isRaw, rawEq.symm, isMerged, reached,
    noneAbove, ?_⟩
  rw [encode]
  split
  · rename_i noTable
    rw [isTable] at noTable
    exact absurd noTable (by simp)
  · rename_i other isOther
    have sameTable : table = other := Option.some.inj (isTable.symm.trans isOther)
    subst sameTable
    rw [isRaw]
    dsimp only
    rw [isMerged]
    dsimp only
    rw [pushAll_of_le (by omega)]

/-- `encode` comes to an end within the caller's array and the vocabulary.
Before merging, its tokens stand for the bytes of the text; every merge keeps
what the tokens spell; and at the end there is nothing left to merge. -/
theorem encode_rewrites (lowest : S) {t : Tokenizer S} (usable : Usable t)
    (text : CString) (arrayFits : 4 * (text.length + 3) < 2 ^ 32) (bos eos : Bool) :
    ∃ table raw merged, ∃ isTable : vocabTable t = some table,
      (rawTokens t table (tokenRoom text) text bos = some raw ∧
        raw = bosTokens bos ++ (pieces t table text).map Piece.token ∧
        (pieces t table text).flatMap (Piece.bytes t) = withDummy text) ∧
      (∀ tokens, ReflTransGen (MergeStep lowest t table) raw tokens →
        Valid t tokens ∧
          (tokens ++ eosTokens eos).length ≤ text.length + 3 ∧
          spelled t tokens = spelled t raw) ∧
      ReflTransGen (MergeStep lowest t table) raw merged ∧
      (∀ a b, [a, b] <:+: merged →
        let id := strLookup (t.vocab a.toNat ++ t.vocab b.toNat) table t.vocabSize
        id = -1 ∨ ¬ lowest < t.vocabScores id.toNat) ∧
      encode lowest t (tokenRoom text) text bos eos =
        some (t.withTable table isTable, merged ++ eosTokens eos) ∧
      Valid t (merged ++ eosTokens eos) := by
  have size := usable.size
  obtain ⟨table, raw, merged, isTable, sorts, isRaw, rawEq, -, reached, noneAbove,
    isEncoded⟩ := usable.encode_eq lowest arrayFits bos eos
  obtain ⟨valid, rawLength⟩ := usable.raw_ok sorts text bos
  rw [← rawEq] at valid rawLength
  have eosLength : (eosTokens eos).length ≤ 1 := length_asked_le eos 2
  have along : ∀ tokens, ReflTransGen (MergeStep lowest t table) raw tokens →
      Valid t tokens ∧ tokens.length ≤ raw.length ∧ spelled t tokens = spelled t raw := by
    intro tokens toTokens
    refine usable.reached_rule sorts
      (motive := fun tokens => tokens.length ≤ raw.length ∧
        spelled t tokens = spelled t raw) ?_ valid ⟨le_refl _, rfl⟩ toTokens
    intro current next stillValid holds isMerged
    have isShorter := isMerged.length_succ
    exact ⟨by omega, (isMerged.spelled_eq usable sorts stillValid).trans holds.2⟩
  obtain ⟨mergedValid, -, -⟩ := along merged reached
  refine ⟨table, raw, merged, isTable,
    ⟨isRaw, rawEq, flatMap_pieces sorts text⟩, ?_, reached, ?_, isEncoded,
    mergedValid.append (valid_asked (by omega) eos)⟩
  · intro tokens toTokens
    obtain ⟨stillValid, notLonger, sameSpelling⟩ := along tokens toTokens
    refine ⟨stillValid, ?_, sameSpelling⟩
    rw [List.length_append]
    omega
  · intro a b isPair
    exact noneAbove a b _ isPair
      (usable.joined_eq (mergedValid a (isPair.subset (by simp)))
        (mergedValid b (isPair.subset (by simp))))

end Order

theorem spaces_isInt : 260 < 2 ^ 31 := by
  decide

/-- A vocabulary of one space, many times over, and two spaces. -/
def spaces : Tokenizer Int :=
  buildTokenizer (fun id => if id = 259 then literal "  " else literal " ")
    (fun _ => 0) 2 260 spaces_isInt

theorem spaces_encode :
    ∃ after,
      encode (-10000000000) spaces (tokenRoom (literal " a")) (literal " a") true true =
        some after := by
  have usable : Usable spaces := by
    refine ⟨⟨0, by decide, by decide⟩, by decide, ?_, by decide, by decide⟩
    intro id _
    change (if id = 259 then literal "  " else literal " ").length ≤ 2
    split_ifs
    · decide
    · decide
  obtain ⟨table, raw, merged, isTable, -, -, -, -, isEncoded, -⟩ :=
    encode_rewrites (-10000000000) usable (literal " a") (by decide) true true
  exact ⟨_, isEncoded⟩

end LlmRuntime.Bpe
