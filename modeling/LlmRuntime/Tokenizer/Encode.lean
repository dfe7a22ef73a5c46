import LlmRuntime.Tokenizer.Lookup

/-!
# From text to tokens, before merging

`encode` collects a leading byte with up to three continuation bytes, looks the
group up, and falls back to one token for each byte.  Writes outside the arrays
of tokens and of characters are `none`.
-/

namespace LlmRuntime.Bpe

open Stdlib

universe u

variable {S : Type u} {t : Tokenizer S} {table : Nat → TokenIndex}

/-- The entries of the array that `generate` allocates for the tokens of a text;
`malloc` takes 32 bits of the size. -/
def tokenRoom (text : CString) : Nat := 4 * (text.length + 3) % 2 ^ 32 / 4

theorem tokenRoom_eq {text : CString} (arrayFits : 4 * (text.length + 3) < 2 ^ 32) :
    tokenRoom text = text.length + 3 := by
  rw [tokenRoom, Nat.mod_eq_of_lt arrayFits, Nat.mul_div_cancel_left _ (by decide)]

/-- Append to the caller's array of `capacity` entries. -/
def push (capacity : Nat) (tokens : List Int) (token : Int) : Option (List Int) :=
  if tokens.length < capacity then some (tokens ++ [token]) else none

def pushAll (capacity : Nat) : List Int → List Int → Option (List Int)
  | tokens, [] => some tokens
  | tokens, token :: more =>
    match push capacity tokens token with
    | none => none
    | some next => pushAll capacity next more

def asked (wanted : Bool) (token : Int) : List Int :=
  if wanted then [token] else []

def bosTokens (bos : Bool) : List Int := asked bos 1

def eosTokens (eos : Bool) : List Int := asked eos 2

/-- The bytes allocated for `str_buffer`. -/
def Tokenizer.bufferSize (t : Tokenizer S) : Nat := (t.maxTokenLength * 2 + 1 + 2) % 2 ^ 32

def isContinuation (c : Byte) : Bool := c.val &&& 0xC0 = 0x80

/-- Whether the byte that `c + 1` points to is a continuation byte; the
terminator is none. -/
def continues : CString → Bool
  | [] => false
  | c :: _ => isContinuation c

/-- The buffer with the current byte, emptied before it if the byte leads. -/
def fill (buffer : CString) (c : Byte) : CString := (if isContinuation c then buffer else []) ++ [c]

def groupTokens (t : Tokenizer S) (table : Nat → TokenIndex) (group : CString) : List Int :=
  let id := strLookup group table t.vocabSize
  if id ≠ -1 then [id] else group.map fun b => (b.toNat : Int) + 3

def codepointLoop (t : Tokenizer S) (table : Nat → TokenIndex) (capacity : Nat) :
    CString → CString → List Int → Option (List Int)
  | _, [], tokens => some tokens
  | buffer, c :: rest, tokens =>
    let filled := fill buffer c
    if filled.length < t.bufferSize then
      if continues rest ∧ filled.length < 4 then codepointLoop t table capacity filled rest tokens
      else
        match pushAll capacity tokens (groupTokens t table filled) with
        | none => none
        | some next => codepointLoop t table capacity [] rest next
    else none

def rawTokens (t : Tokenizer S) (table : Nat → TokenIndex) (capacity : Nat)
    (text : CString) (bos : Bool) : Option (List Int) :=
  match pushAll capacity [] (bosTokens bos) with
  | none => none
  | some start =>
    let dummy := strLookup (literal " ") table t.vocabSize
    match pushAll capacity start (if text = [] then [] else [dummy]) with
    | none => none
    | some tokens => codepointLoop t table capacity [] text tokens

/-- The groups that the loop reads, when it has `buffer` so far. -/
def groupsFrom : CString → CString → List CString
  | _, [] => []
  | buffer, c :: rest =>
    if continues rest ∧ (fill buffer c).length < 4 then groupsFrom (fill buffer c) rest
    else fill buffer c :: groupsFrom [] rest

/-- The groups of a text, one for each code point if it is well formed. -/
def groups (text : CString) : List CString := groupsFrom [] text

/-- A token before merging: one that was looked up stands for its string, one
that a byte fell back to for the byte. -/
inductive Piece where
  | looked (id : Nat)
  | fallback (b : Byte)

def Piece.token : Piece → Int
  | .looked id => id
  | .fallback b => (b.toNat : Int) + 3

def Piece.bytes (t : Tokenizer S) : Piece → CString
  | .looked id => t.vocab id
  | .fallback b => [b]

def groupPieces (t : Tokenizer S) (table : Nat → TokenIndex) (group : CString) : List Piece :=
  let id := strLookup group table t.vocabSize
  if id ≠ -1 then [.looked id.toNat] else group.map .fallback

/-- The text behind the space that `encode` puts in front. -/
def withDummy (text : CString) : CString :=
  if text = [] then [] else literal " " ++ text

def allGroups (text : CString) : List CString :=
  if text = [] then [] else literal " " :: groups text

def pieces (t : Tokenizer S) (table : Nat → TokenIndex) (text : CString) : List Piece :=
  (allGroups text).flatMap (groupPieces t table)

/-- A buffer that is not empty is followed by a continuation byte. -/
theorem fill_eq {buffer rest : CString} {c : Byte} (isOpen : buffer = [] ∨ continues (c :: rest)) :
    fill buffer c = buffer ++ [c] := by
  rw [fill]
  rcases isOpen with rfl | isNext
  · rw [ite_self]
  · rw [continues] at isNext
    rw [if_pos isNext]

theorem flatten_groupsFrom (buffer text : CString) (isOpen : buffer = [] ∨ continues text) :
    (groupsFrom buffer text).flatten =
      if text = [] then [] else buffer ++ text := by
  induction text generalizing buffer with
  | nil => rfl
  | cons c rest ih =>
    have isFilled := fill_eq isOpen
    rw [groupsFrom, if_neg (List.cons_ne_nil c rest), isFilled]
    by_cases goesOn : continues rest ∧ (buffer ++ [c]).length < 4
    · have notEnd : rest ≠ [] := by
        rintro rfl
        exact absurd goesOn.1 (by decide)
      rw [if_pos goesOn, ih _ (.inr goesOn.1),
        if_neg notEnd, List.append_assoc, List.singleton_append]
    · rw [if_neg goesOn, List.flatten_cons, ih [] (.inl rfl)]
      by_cases isEnd : rest = []
      · rw [if_pos isEnd, isEnd, List.append_nil]
      · rw [if_neg isEnd, List.nil_append, List.append_assoc, List.singleton_append]

/-- The groups are the text, with no byte lost or repeated. -/
theorem flatten_groups (text : CString) : (groups text).flatten = text := by
  rw [groups, flatten_groupsFrom [] text (.inl rfl), List.nil_append, ite_eq_right_iff]
  exact Eq.symm

theorem flatten_allGroups (text : CString) : (allGroups text).flatten = withDummy text := by
  rw [allGroups, withDummy]
  by_cases isEmpty : text = []
  · rw [if_pos isEmpty, if_pos isEmpty, List.flatten_nil]
  · rw [if_neg isEmpty, if_neg isEmpty, List.flatten_cons, flatten_groups]

theorem length_of_mem_groupsFrom {buffer text group : CString}
    (isShort : buffer.length < 4) (isIn : group ∈ groupsFrom buffer text) :
    0 < group.length ∧ group.length ≤ 4 := by
  induction text generalizing buffer with
  | nil => exact absurd isIn List.not_mem_nil
  | cons c rest ih =>
    have filledLength : 0 < (fill buffer c).length ∧ (fill buffer c).length ≤ 4 := by
      rw [fill, List.length_append, List.length_singleton]
      split_ifs
      · omega
      · rw [List.length_nil]
        omega
    rw [groupsFrom] at isIn
    split_ifs at isIn with goesOn
    · exact ih goesOn.2 isIn
    · rcases List.mem_cons.mp isIn with rfl | isLater
      · exact filledLength
      · exact ih (by decide) isLater

theorem length_of_mem_allGroups {text group : CString} (isIn : group ∈ allGroups text) :
    0 < group.length ∧ group.length ≤ 4 := by
  rw [allGroups] at isIn
  split_ifs at isIn
  · exact absurd isIn List.not_mem_nil
  · rcases List.mem_cons.mp isIn with rfl | isGroup
    · decide
    · exact length_of_mem_groupsFrom (by decide) isGroup

theorem flatMap_groupPieces (sorts : Sorts t table) (group : CString) :
    (groupPieces t table group).flatMap (Piece.bytes t) = group := by
  rw [groupPieces]
  rcases strLookup_cases sorts group with ⟨isMissing, -⟩ | ⟨id, inVocab, isFound, isString⟩
  · rw [isMissing, if_neg (by decide), List.flatMap_map]
    exact List.flatMap_singleton' group
  · rw [isFound, if_pos (by omega), List.flatMap_singleton, Int.toNat_natCast]
    exact isString

theorem flatMap_pieces (sorts : Sorts t table) (text : CString) :
    (pieces t table text).flatMap (Piece.bytes t) = withDummy text := by
  rw [pieces, List.flatMap_assoc, ← flatten_allGroups]
  simp only [flatMap_groupPieces sorts, List.flatMap_id']

theorem map_token_groupPieces (sorts : Sorts t table) (group : CString) :
    (groupPieces t table group).map Piece.token = groupTokens t table group := by
  rw [groupPieces, groupTokens]
  rcases strLookup_cases sorts group with ⟨isMissing, -⟩ | ⟨id, inVocab, isFound, isString⟩
  · rw [isMissing, if_neg (by decide), if_neg (by decide), List.map_map]
    rfl
  · rw [isFound, if_pos (by omega), if_pos (by omega), Int.toNat_natCast]
    rfl

theorem length_groupPieces_le {group : CString} (notEmpty : 0 < group.length) :
    (groupPieces t table group).length ≤ group.length := by
  rw [groupPieces]
  split_ifs
  · exact notEmpty
  · rw [List.length_map]

theorem length_pieces_le (text : CString) :
    (pieces t table text).length ≤ (withDummy text).length := by
  rw [pieces, ← flatten_allGroups, List.length_flatMap, List.length_flatten]
  refine List.sum_le_sum ?_
  intro group isIn
  exact length_groupPieces_le (length_of_mem_allGroups isIn).1

theorem length_asked_le (wanted : Bool) (token : Int) : (asked wanted token).length ≤ 1 := by
  cases wanted with
  | false => exact Nat.zero_le 1
  | true => exact le_refl 1

theorem pushAll_of_le {capacity : Nat} {tokens more : List Int}
    (fits : tokens.length + more.length ≤ capacity) :
    pushAll capacity tokens more = some (tokens ++ more) := by
  induction more generalizing tokens with
  | nil => rw [pushAll, List.append_nil]
  | cons token more ih =>
    rw [List.length_cons] at fits
    rw [pushAll, push, if_pos (by omega)]
    dsimp only
    rw [ih, List.append_assoc, List.singleton_append]
    rw [List.length_append, List.length_singleton]
    omega

theorem codepointLoop_eq {capacity : Nat} {buffer text : CString}
    {tokens : List Int} (sorts : Sorts t table) (room : 4 < t.bufferSize)
    (isShort : buffer.length < 4) (isOpen : buffer = [] ∨ continues text)
    (fits : tokens.length + buffer.length + text.length ≤ capacity) :
    codepointLoop t table capacity buffer text tokens =
      some (tokens ++ (groupsFrom buffer text).flatMap (groupTokens t table)) := by
  induction text generalizing buffer tokens with
  | nil => rw [codepointLoop, groupsFrom, List.flatMap_nil, List.append_nil]
  | cons c rest ih =>
    have isFilled := fill_eq isOpen
    have filledLength : (buffer ++ [c]).length = buffer.length + 1 := by
      rw [List.length_append, List.length_singleton]
    rw [List.length_cons] at fits
    rw [codepointLoop, groupsFrom, isFilled, if_pos (by omega)]
    by_cases goesOn : continues rest ∧ (buffer ++ [c]).length < 4
    · rw [if_pos goesOn, if_pos goesOn]
      exact ih goesOn.2 (.inr goesOn.1) (by omega)
    · have notLonger :
          (groupTokens t table (buffer ++ [c])).length ≤ (buffer ++ [c]).length := by
        rw [← map_token_groupPieces sorts, List.length_map]
        exact length_groupPieces_le (by omega)
      rw [if_neg goesOn, if_neg goesOn, pushAll_of_le (by omega)]
      dsimp only
      rw [ih (by decide) (.inl rfl), List.flatMap_cons, List.append_assoc]
      rw [List.length_append, List.length_nil]
      omega

theorem rawTokens_eq {capacity : Nat} {text : CString} (bos : Bool) (sorts : Sorts t table)
    (hasSpace : ∃ id < t.vocabSize, t.vocab id = literal " ") (room : 4 < t.bufferSize)
    (fits : text.length + 2 ≤ capacity) :
    rawTokens t table capacity text bos =
      some (bosTokens bos ++ (pieces t table text).map Piece.token) := by
  have bosLength : (bosTokens bos).length ≤ 1 := length_asked_le bos 1
  have isFound : strLookup (literal " ") table t.vocabSize ≠ -1 := by
    rw [Ne, strLookup_eq_neg_one_iff sorts]
    intro noSpace
    obtain ⟨id, inVocab, isSpace⟩ := hasSpace
    exact noSpace id inVocab isSpace
  have mapped :
      (pieces t table text).map Piece.token = (allGroups text).flatMap (groupTokens t table) := by
    rw [pieces, List.map_flatMap]
    simp only [map_token_groupPieces sorts]
  rw [mapped, rawTokens, pushAll_of_le, List.nil_append]
  rotate_left
  · rw [List.length_nil]
    omega
  dsimp only
  by_cases isEmpty : text = []
  · rw [if_pos isEmpty, isEmpty, pushAll_of_le, List.append_nil]
    · dsimp only
      rw [codepointLoop, allGroups, if_pos rfl, List.flatMap_nil, List.append_nil]
    · rw [List.length_nil]
      omega
  · have dummyTokens :
        groupTokens t table (literal " ") = [strLookup (literal " ") table t.vocabSize] := by
      rw [groupTokens, if_pos isFound]
    rw [if_neg isEmpty, pushAll_of_le]
    rotate_left
    · rw [List.length_singleton]
      omega
    dsimp only
    rw [codepointLoop_eq sorts room (by decide) (.inl rfl), allGroups,
      if_neg isEmpty, List.flatMap_cons, dummyTokens, List.append_assoc, groups]
    rw [List.length_append, List.length_singleton, List.length_nil]
    omega

end LlmRuntime.Bpe
