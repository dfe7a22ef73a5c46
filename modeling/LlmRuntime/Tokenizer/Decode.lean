import LlmRuntime.Library.Escaping
import LlmRuntime.Tokenizer.Words

/-!
# From tokens back to text

`decode` means to turn the tokens of single bytes into these bytes, but the scan
of their strings never matches: its format has the length modifier behind the
width, where `xsscanf` does not look for it.
-/

namespace LlmRuntime.Bpe

open Stdlib Escaping Relation

universe u

variable {S : Type u} {t : Tokenizer S} {table : Nat → TokenIndex}

def byteFormat : CString := literal "<0x%02hhX>"

def bytePiece (byteVal : Nat) : CString :=
  if byteVal % 256 = 0 then [] else [byte byteVal.toUInt8]

def stripSpace : CString → CString
  | [] => []
  | c :: rest => if c = ascii ' ' then rest else c :: rest

def decode (t : Tokenizer S) (prevToken token : Int) : Option CString :=
  match t.piece token with
  | none => none
  | some whole =>
    let piece := if prevToken = 1 then stripSpace whole else whole
    match xsscanf piece byteFormat with
    | [.uint byteVal] => some (bytePiece byteVal)
    | _ => some piece

/-- The strings of all tokens but the first, as `generate` prints them. -/
def decodeAll (t : Tokenizer S) : List Int → Option CString
  | prevToken :: token :: rest =>
    match decode t prevToken token, decodeAll t (token :: rest) with
    | some piece, some more => some (piece ++ more)
    | _, _ => none
  | [_] => some []
  | [] => some []

theorem xsscanf_byteFormat (piece : CString) : xsscanf piece byteFormat = [] := by
  have isFormat :
      byteFormat =
        ascii '<' :: ascii '0' :: ascii 'x' :: ascii '%' ::
          ([ascii '0', ascii '2'] ++ ascii 'h' :: literal "hX>") := by
    decide
  rw [xsscanf, isFormat]
  refine scanLoop_literal (by decide) (by decide) ?_ piece []
  refine scanLoop_literal (by decide) (by decide) ?_
  refine scanLoop_literal (by decide) (by decide) ?_
  intro ps assigned
  refine scanLoop_modifier_behind_width _ _ ps assigned ?_ (by simp)
  intro c isIn
  rcases List.mem_pair.mp isIn with rfl | rfl
  · decide
  · decide

theorem decode_eq {token : Int} (valid : 0 ≤ token ∧ token < t.vocabSize) (prevToken : Int) :
    decode t prevToken token =
      some (if prevToken = 1 then stripSpace (t.vocab token.toNat)
        else t.vocab token.toNat) := by
  rw [decode, Tokenizer.piece, if_pos valid]
  dsimp only
  rw [xsscanf_byteFormat]

/-- The string `<0xNN>` of the token of a byte. -/
def byteToken (b : UInt8) : CString :=
  literal "<0x" ++ [digit true (b.toNat / 16), digit true (b.toNat % 16), ascii '>']

/-- The ids of the tokens of single bytes. -/
def IsByteId (id : Nat) : Prop := 3 ≤ id ∧ id ≤ 258

/-- The layout that `encode` assumes, of a vocabulary whose table can be
allocated. -/
structure Layout (t : Tokenizer S) : Prop where
  hasSpace : ∃ id < t.vocabSize, t.vocab id = literal " "
  byteTokens : ∀ b : UInt8, b.toNat + 3 < t.vocabSize ∧ t.vocab (b.toNat + 3) = byteToken b
  others : ∀ id < t.vocabSize, ¬ IsByteId id → ¬ literal "<0x" <+: t.vocab id
  byteToken_ne :
    ∀ (b : UInt8) (i j : Nat), i < t.vocabSize → j < t.vocabSize →
      byteToken b ≠ t.vocab i ++ t.vocab j
  joins :
    ∀ id i j, id < t.vocabSize → i < t.vocabSize → j < t.vocabSize →
      t.vocab id = t.vocab i ++ t.vocab j →
      (i ≠ 1 ∧ ¬ IsByteId i) ∧ j ≠ 1 ∧ ¬ IsByteId j
  short : ∀ id < t.vocabSize, (t.vocab id).length ≤ t.maxTokenLength
  maxLength : t.maxTokenLength ≤ 511
  tableFits : 16 * t.vocabSize < 2 ^ 32

theorem length_byteToken (b : UInt8) : (byteToken b).length = 6 := by
  rfl

theorem byteToken_eq_cons (b : UInt8) : byteToken b = ascii '<' :: (byteToken b).tail := by
  rfl

theorem space_not_mem_byteToken : ∀ b : UInt8, ascii ' ' ∉ byteToken b := by
  decide +kernel

namespace Layout

theorem usable (layout : Layout t) : Usable t where
  hasSpace := layout.hasSpace
  size := (layout.byteTokens 255).1
  short := layout.short
  maxLength := layout.maxLength
  tableFits := layout.tableFits

theorem vocab_byteId (layout : Layout t) {id : Nat} (isByteId : IsByteId id) :
    ∃ b : UInt8, t.vocab id = byteToken b := by
  obtain ⟨atLeast, atMost⟩ := isByteId
  refine ⟨(id - 3).toUInt8, ?_⟩
  have isNumber : (id - 3).toUInt8.toNat = id - 3 := by
    rw [Nat.toUInt8_eq, UInt8.toNat_ofNat', Nat.mod_eq_of_lt (by omega)]
  have isToken := (layout.byteTokens (id - 3).toUInt8).2
  rw [isNumber, Nat.sub_add_cancel atLeast] at isToken
  exact isToken

theorem vocab_ne_nil (layout : Layout t) {id : Nat} (inVocab : id < t.vocabSize) :
    t.vocab id ≠ [] := by
  intro isEmpty
  obtain ⟨isId, isToken⟩ := layout.byteTokens 0
  refine layout.byteToken_ne 0 id ((0 : UInt8).toNat + 3) inVocab isId ?_
  rw [isEmpty, List.nil_append, isToken]

theorem not_byteId_of_joined (layout : Layout t) {id i j : Nat} (iValid : i < t.vocabSize)
    (jValid : j < t.vocabSize) (isString : t.vocab id = t.vocab i ++ t.vocab j) :
    ¬ IsByteId id := by
  intro isByteId
  obtain ⟨b, isToken⟩ := layout.vocab_byteId isByteId
  exact layout.byteToken_ne b i j iValid jValid (isToken.symm.trans isString)

end Layout

/-- The pieces of the text after merges: what they stand for is the text, and
those of single bytes are still the same. -/
structure Reads (t : Tokenizer S) (table : Nat → TokenIndex) (text : CString)
    (ps : List Piece) : Prop where
  ids : ∀ id, .looked id ∈ ps → id < t.vocabSize ∧ ¬ IsByteId id
  found : ∀ id, .looked id ∈ ps → strLookup (t.vocab id) table t.vocabSize = id
  bytes : ps.flatMap (Piece.bytes t) = withDummy text
  fallbacks : ∀ b, .fallback b ∈ ps ↔ .fallback b ∈ pieces t table text
  first : ∀ b, ps.head? ≠ some (.fallback b)

theorem mem_pieces_cases (sorts : Sorts t table) {text : CString}
    {piece : Piece} (isPiece : piece ∈ pieces t table text) :
    ∃ group ∈ allGroups text,
      (∃ b, piece = .fallback b ∧ ∀ id < t.vocabSize, t.vocab id ≠ group) ∨
        ∃ id < t.vocabSize, piece = .looked id ∧ t.vocab id = group ∧
          strLookup group table t.vocabSize = id := by
  obtain ⟨group, isGroup, isOfGroup⟩ := List.mem_flatMap.mp isPiece
  refine ⟨group, isGroup, ?_⟩
  rw [groupPieces] at isOfGroup
  rcases strLookup_cases sorts group with ⟨isMissing, noString⟩ | ⟨id, inVocab, isFound, isString⟩
  · rw [isMissing, if_neg (by decide)] at isOfGroup
    obtain ⟨b, -, isFallback⟩ := List.mem_map.mp isOfGroup
    exact .inl ⟨b, isFallback.symm, noString⟩
  · rw [isFound, if_pos (by omega), Int.toNat_natCast] at isOfGroup
    exact .inr ⟨id, inVocab, List.mem_singleton.mp isOfGroup, isString, isFound⟩

theorem Layout.reads_pieces (layout : Layout t) (sorts : Sorts t table) (text : CString) :
    Reads t table text (pieces t table text) := by
  refine ⟨?_, ?_, flatMap_pieces sorts text, fun b => Iff.rfl, ?_⟩
  · intro id isPiece
    obtain ⟨group, isGroup, ⟨b, isFallback, -⟩ | ⟨other, inVocab, isLooked,
      isString, -⟩⟩ := mem_pieces_cases sorts isPiece
    · exact absurd isFallback (by simp)
    · rw [Piece.looked.inj isLooked]
      refine ⟨inVocab, ?_⟩
      -- The strings of byte tokens are longer than any group.
      intro isByteId
      obtain ⟨b, isToken⟩ := layout.vocab_byteId isByteId
      have tooLong := (length_of_mem_allGroups isGroup).2
      rw [← isString, isToken, length_byteToken] at tooLong
      exact absurd tooLong (by decide)
  · intro id isPiece
    obtain ⟨group, -, ⟨b, isFallback, -⟩ | ⟨other, -, isLooked, isString, isFound⟩⟩ :=
      mem_pieces_cases sorts isPiece
    · exact absurd isFallback (by simp)
    · rw [Piece.looked.inj isLooked, isString]
      exact isFound
  · intro b
    rw [pieces, allGroups]
    split_ifs
    · simp
    · rw [List.flatMap_cons, groupPieces]
      have isFound : strLookup (literal " ") table t.vocabSize ≠ -1 := by
        rw [Ne, strLookup_eq_neg_one_iff sorts]
        intro noSpace
        obtain ⟨id, inVocab, isSpace⟩ := layout.hasSpace
        exact noSpace id inVocab isSpace
      rw [if_pos isFound]
      simp

theorem looked_of_token_eq {piece : Piece} {id : Nat} (notByte : ¬ IsByteId id)
    (isToken : piece.token = id) :
    piece = .looked id := by
  cases piece with
  | looked other =>
    rw [Piece.token] at isToken
    rw [Int.ofNat_inj.mp isToken]
  | fallback b =>
    have isByte := b.toNat_lt
    have isPositive := b.toNat_pos
    rw [Piece.token] at isToken
    rw [IsByteId] at notByte
    omega

theorem Layout.reads_merged (layout : Layout t) (sorts : Sorts t table)
    {text : CString} {tokens next : List Int} (valid : Valid t tokens)
    (reads : ∃ ps, tokens = 1 :: ps.map Piece.token ∧ Reads t table text ps)
    (merged : Merged t table tokens next) :
    ∃ ps, next = 1 :: ps.map Piece.token ∧ Reads t table text ps := by
  obtain ⟨ps, isTokens, reads⟩ := reads
  obtain ⟨front, back, i, j, id, iValid, jValid, inVocab, isPair, rfl,
    isString, isFound⟩ := merged.ids layout.usable sorts valid
  obtain ⟨⟨iNotBos, iNotByte⟩, -, jNotByte⟩ := layout.joins id i j inVocab iValid jValid isString
  have notByte := layout.not_byteId_of_joined iValid jValid isString
  rw [isTokens] at isPair
  cases front with
  | nil =>
    have isBos := (List.cons.inj isPair).1
    exact absurd isBos (by omega)
  | cons bos front =>
    obtain ⟨isBos, isRest⟩ := List.cons.inj isPair
    obtain ⟨before, behind, rfl, rfl, isBehind⟩ := List.map_eq_append_iff.mp isRest
    obtain ⟨first, others, rfl, isFirst, isOthers⟩ := List.map_eq_cons_iff.mp isBehind
    obtain ⟨second, after, rfl, isSecond, rfl⟩ := List.map_eq_cons_iff.mp isOthers
    obtain rfl := looked_of_token_eq iNotByte isFirst
    obtain rfl := looked_of_token_eq jNotByte isSecond
    have isNewOrOld (other : Nat) (isIn : Piece.looked other ∈ before ++ .looked id :: after) :
        other = id ∨ Piece.looked other ∈ before ++ .looked i :: .looked j :: after := by
      rcases List.mem_append.mp isIn with isBefore | isRest
      · exact .inr (List.mem_append_left _ isBefore)
      · rcases List.mem_cons.mp isRest with isNew | isAfter
        · exact .inl (Piece.looked.inj isNew)
        · exact .inr (by simp [isAfter])
    refine ⟨before ++ .looked id :: after, ?_, ?_, ?_, ?_, ?_, ?_⟩
    · rw [← isBos, List.map_append, List.map_cons, List.cons_append]
      rfl
    · intro other isIn
      rcases isNewOrOld other isIn with rfl | isOld
      · exact ⟨inVocab, notByte⟩
      · exact reads.ids other isOld
    · intro other isIn
      rcases isNewOrOld other isIn with rfl | isOld
      · exact isFound
      · exact reads.found other isOld
    · rw [← reads.bytes]
      simp only [List.flatMap_append, List.flatMap_cons, Piece.bytes, isString, List.append_assoc]
    · intro b
      rw [← reads.fallbacks b]
      simp
    · intro b
      have first := reads.first b
      cases before with
      | nil => simp
      | cons piece before => simpa using first

theorem code_ne_nil (b : Byte) : (byteToken b.val).tail ≠ [] := by
  have length : (byteToken b.val).tail.length = 5 := rfl
  exact List.ne_nil_of_length_pos (by omega)

theorem space_not_mem_code (b : Byte) : ascii ' ' ∉ (byteToken b.val).tail := by
  intro isIn
  exact space_not_mem_byteToken b.val (List.mem_of_mem_tail isIn)

theorem mark_ne_space : ascii '<' ≠ ascii ' ' := by
  decide

/-- Bytes escaped as `<0xNN>`, and spaces dropped. -/
def byteEscape : Escape Byte where
  separator := ascii ' '
  mark := ascii '<'
  code b := (byteToken b.val).tail
  mark_ne := mark_ne_space
  code_ne_nil := code_ne_nil
  separator_not_mem := space_not_mem_code

/-- How `decode` prints a string. -/
def lookedSpan (prevToken : Int) : CString → Span Byte
  | [] => .copied []
  | c :: w => if prevToken = 1 ∧ c = ascii ' ' then .stripped w else .copied (c :: w)

def span (t : Tokenizer S) (prevToken : Int) : Piece → Span Byte
  | .looked id => lookedSpan prevToken (t.vocab id)
  | .fallback b => .escaped b

def spans (t : Tokenizer S) : Int → List Piece → List (Span Byte)
  | _, [] => []
  | prevToken, piece :: rest => span t prevToken piece :: spans t piece.token rest

theorem meaning_span (prevToken : Int) (piece : Piece) :
    byteEscape.meaning (span t prevToken piece) = piece.bytes t := by
  cases piece with
  | looked id =>
    rw [span, Piece.bytes]
    fun_cases lookedSpan prevToken (t.vocab id) with
    | case1 => rfl
    | case2 c w isDropped =>
      rw [isDropped.2]
      rfl
    | case3 c w isKept => rfl
  | fallback b => rfl

theorem meaning_spans (prevToken : Int) (ps : List Piece) :
    (spans t prevToken ps).flatMap byteEscape.meaning = ps.flatMap (Piece.bytes t) := by
  induction ps generalizing prevToken with
  | nil => rfl
  | cons piece ps ih => rw [spans, List.flatMap_cons, List.flatMap_cons, meaning_span, ih]

theorem output_lookedSpan (prevToken : Int) (str : CString) :
    byteEscape.output (lookedSpan prevToken str) =
      if prevToken = 1 then stripSpace str else str := by
  cases str with
  | nil =>
    rw [stripSpace, ite_self]
    rfl
  | cons c w =>
    rw [lookedSpan, stripSpace]
    by_cases afterBos : prevToken = 1
    · by_cases isSpace : c = ascii ' '
      · rw [if_pos ⟨afterBos, isSpace⟩, if_pos afterBos, if_pos isSpace]
        rfl
      · rw [if_neg (fun both => isSpace both.2), if_pos afterBos, if_neg isSpace]
        rfl
    · rw [if_neg (fun both => afterBos both.1), if_neg afterBos]
      rfl

theorem lookedSpan_copied_iff (prevToken : Int) (str : CString) :
    (∃ w, lookedSpan prevToken str = .copied w) ↔
      (prevToken = 1 → str.head? ≠ some (ascii ' ')) := by
  cases str with
  | nil => exact iff_of_true ⟨[], rfl⟩ (by simp)
  | cons c w =>
    rw [lookedSpan, List.head?_cons]
    split_ifs with isDropped
    · refine iff_of_false (by simp) ?_
      intro notSpace
      exact notSpace isDropped.1 (congrArg some isDropped.2)
    · refine iff_of_true ⟨c :: w, rfl⟩ ?_
      intro afterBos isSpace
      exact isDropped ⟨afterBos, Option.some.inj isSpace⟩

theorem stripSpace_byteToken (b : UInt8) : stripSpace (byteToken b) = byteToken b := by
  rw [byteToken_eq_cons, stripSpace, if_neg mark_ne_space]

theorem Layout.decode_piece (layout : Layout t) {piece : Piece}
    (inVocab : ∀ id, piece = .looked id → id < t.vocabSize) (prevToken : Int) :
    decode t prevToken piece.token = some (byteEscape.output (span t prevToken piece)) := by
  cases piece with
  | looked id =>
    have isId := inVocab id rfl
    rw [Piece.token, decode_eq (by omega), Int.toNat_natCast, span, output_lookedSpan]
  | fallback b =>
    obtain ⟨isId, isToken⟩ := layout.byteTokens b.val
    have isNat : ((b.toNat : Int) + 3).toNat = b.val.toNat + 3 := by
      rw [Byte.toNat]
      omega
    rw [Piece.token, decode_eq (by rw [Byte.toNat]; omega), isNat, isToken,
      stripSpace_byteToken, ite_self]
    rfl

theorem Layout.decodeAll_pieces (layout : Layout t) {ps : List Piece}
    (inVocab : ∀ id, .looked id ∈ ps → id < t.vocabSize) (prevToken : Int) :
    decodeAll t (prevToken :: ps.map Piece.token) =
      some ((spans t prevToken ps).flatMap byteEscape.output) := by
  induction ps generalizing prevToken with
  | nil => rfl
  | cons piece ps ih =>
    have isDecoded := @Layout.decode_piece _ _ layout piece
      (fun id isLooked => inVocab id (isLooked ▸ List.mem_cons_self))
      prevToken
    have isRest := ih (fun id isIn => inVocab id (List.mem_cons_of_mem piece isIn)) piece.token
    rw [List.map_cons, decodeAll, isDecoded, isRest, spans, List.flatMap_cons]

/-- Every piece is copied if none is that of a byte, and no BOS token stands
before a string that begins with a space. -/
theorem spans_copied_iff (prevToken : Int) (ps : List Piece) :
    (∀ s ∈ spans t prevToken ps, ∃ w, s = .copied w) ↔
      (∀ b, .fallback b ∉ ps) ∧
        ∀ token, [1, token] <:+: prevToken :: ps.map Piece.token →
          (t.vocab token.toNat).head? ≠ some (ascii ' ') := by
  induction ps generalizing prevToken with
  | nil =>
    refine iff_of_true (by simp [spans]) ⟨by simp, ?_⟩
    intro token isPair
    exact absurd isPair (not_pair_infix_singleton 1 token prevToken)
  | cons piece ps ih =>
    rw [spans, List.forall_mem_cons, ih, List.map_cons]
    cases piece with
    | looked id =>
      rw [span, lookedSpan_copied_iff]
      constructor
      · rintro ⟨notDropped, noFallback, noPair⟩
        refine ⟨by simpa using noFallback, ?_⟩
        intro token isPair
        rcases pair_infix_cons_iff.mp isPair with ⟨isBos, rfl⟩ | isLater
        · exact notDropped isBos.symm
        · exact noPair token isLater
      · rintro ⟨noFallback, noPair⟩
        refine ⟨?_, by simpa using noFallback, ?_⟩
        · intro afterBos
          exact noPair id (pair_infix_cons_iff.mpr (.inl ⟨afterBos.symm, rfl⟩))
        · intro token isPair
          exact noPair token (pair_infix_cons_iff.mpr (.inr isPair))
    | fallback b =>
      refine iff_of_false ?_ ?_
      · rintro ⟨⟨w, isCopied⟩, -⟩
        exact absurd isCopied (by simp [span])
      · rintro ⟨noFallback, -⟩
        exact noFallback b List.mem_cons_self

/-! ## The round trip -/

/-- Behind the first token, a BOS token stands directly before a token whose
string begins with a space. -/
def BosBeforeSpace (t : Tokenizer S) (tokens : List Int) : Prop :=
  ∃ token, [1, token] <:+: tokens.tail ∧ (t.vocab token.toNat).head? = some (ascii ' ')

theorem withDummy_of_ne_nil {text : CString} (notEmpty : text ≠ []) :
    withDummy text = ascii ' ' :: text := by
  rw [withDummy, if_neg notEmpty]
  rfl

theorem Layout.decodeAll_eq_iff (layout : Layout t) {text : CString}
    {ps : List Piece} (reads : Reads t table text ps) :
    decodeAll t (1 :: ps.map Piece.token) = some text ↔
      (∀ b, .fallback b ∉ ps) ∧ ¬ BosBeforeSpace t (1 :: ps.map Piece.token) := by
  have bytes := reads.bytes
  rw [layout.decodeAll_pieces (fun id isIn => (reads.ids id isIn).1), Option.some_inj]
  cases ps with
  | nil =>
    have isEmpty : text = [] := by
      by_contra notEmpty
      rw [withDummy_of_ne_nil notEmpty] at bytes
      exact absurd bytes (by simp)
    refine iff_of_true (by rw [isEmpty]; rfl) ⟨by simp, ?_⟩
    rintro ⟨token, isPair, -⟩
    exact absurd (List.eq_nil_of_infix_nil isPair) (by simp)
  | cons piece ps =>
    cases piece with
    | fallback b => exact absurd rfl (reads.first b)
    | looked id =>
      have inVocab := (reads.ids id List.mem_cons_self).1
      obtain ⟨c, w, isString⟩ := List.exists_cons_of_ne_nil (layout.vocab_ne_nil inVocab)
      rw [List.flatMap_cons, Piece.bytes, isString] at bytes
      have notEmpty : text ≠ [] := by
        rintro rfl
        exact absurd bytes (by simp [withDummy])
      rw [withDummy_of_ne_nil notEmpty, List.cons_append] at bytes
      obtain ⟨isSpace, isText⟩ := List.cons.inj bytes
      have isStripped : span t 1 (.looked id) = .stripped w := by
        rw [span, isString, lookedSpan, if_pos ⟨rfl, isSpace⟩]
      rw [spans, List.flatMap_cons, isStripped, Escape.output, ← isText, List.append_cancel_left_eq,
        ← meaning_spans (Piece.token _), byteEscape.output_eq_meaning_iff, spans_copied_iff]
      rw [BosBeforeSpace, List.tail_cons, List.map_cons]
      simp only [List.mem_cons, reduceCtorEq, false_or, not_exists, not_and, ne_eq]

/-- The bytes of the text fall back exactly where a group is not in the
vocabulary. -/
theorem Layout.no_fallback_iff (layout : Layout t) (sorts : Sorts t table) (text : CString) :
    (∀ b, .fallback b ∉ pieces t table text) ↔
      ∀ group ∈ groups text, ∃ id < t.vocabSize, t.vocab id = group := by
  constructor
  · intro noFallback group isGroup
    by_contra noString
    have notEmpty : text ≠ [] := by
      rintro rfl
      exact absurd isGroup List.not_mem_nil
    have inAll : group ∈ allGroups text := by
      rw [allGroups, if_neg notEmpty]
      exact List.mem_cons_of_mem _ isGroup
    have isMissing : strLookup group table t.vocabSize = -1 := by
      rw [strLookup_eq_neg_one_iff sorts]
      intro id inVocab isString
      exact noString ⟨id, inVocab, isString⟩
    obtain ⟨b, rest, isCons⟩ := List.exists_cons_of_length_pos (length_of_mem_allGroups inAll).1
    refine noFallback b (List.mem_flatMap.mpr ⟨group, inAll, ?_⟩)
    rw [groupPieces, isMissing, if_neg (by decide), isCons]
    exact List.mem_cons_self
  · intro allFound b isPiece
    obtain ⟨group, isGroup, ⟨-, -, noString⟩ | ⟨id, -, isLooked, -, -⟩⟩ :=
      mem_pieces_cases sorts isPiece
    · rw [allGroups] at isGroup
      split_ifs at isGroup
      · exact absurd isGroup List.not_mem_nil
      · rcases List.mem_cons.mp isGroup with rfl | isGroup
        · obtain ⟨id, inVocab, isString⟩ := layout.hasSpace
          exact noString id inVocab isString
        · obtain ⟨id, inVocab, isString⟩ := allFound group isGroup
          exact noString id inVocab isString
    · exact absurd isLooked (by simp)

/-- A BOS token before a space comes from the string of the BOS token before a
space in the text. -/
theorem Layout.infix_of_bosBeforeSpace (layout : Layout t) {text : CString} {ps : List Piece}
    (reads : Reads t table text ps) (isBefore : BosBeforeSpace t (1 :: ps.map Piece.token)) :
    t.vocab 1 ++ literal " " <:+: withDummy text := by
  obtain ⟨token, ⟨front, back, isTokens⟩, isSpace⟩ := isBefore
  rw [List.tail_cons, List.append_assoc] at isTokens
  obtain ⟨before, behind, rfl, -, isBehind⟩ := List.map_eq_append_iff.mp isTokens.symm
  obtain ⟨first, others, rfl, isFirst, isOthers⟩ := List.map_eq_cons_iff.mp isBehind
  obtain ⟨second, after, rfl, isSecond, -⟩ := List.map_eq_cons_iff.mp isOthers
  obtain rfl := @looked_of_token_eq _ 1 (by simp [IsByteId]) isFirst
  cases second with
  | fallback b =>
    obtain ⟨-, isToken⟩ := layout.byteTokens b.val
    have isNat : token.toNat = b.val.toNat + 3 := by
      rw [← isSecond, Piece.token, Byte.toNat]
      omega
    rw [isNat, isToken, byteToken_eq_cons, List.head?_cons] at isSpace
    exact absurd (Option.some.inj isSpace) mark_ne_space
  | looked id =>
    rw [← isSecond, Piece.token, Int.toNat_natCast] at isSpace
    obtain ⟨w, isString⟩ := List.head?_eq_some_iff.mp isSpace
    refine ⟨before.flatMap (Piece.bytes t), w ++ after.flatMap (Piece.bytes t), ?_⟩
    rw [← reads.bytes]
    simp only [List.flatMap_append, List.flatMap_cons, Piece.bytes, isString,
      List.append_assoc, List.cons_append]
    rfl

theorem decodeAll_withTable (isTable : vocabTable t = some table) (tokens : List Int) :
    decodeAll (t.withTable table isTable) tokens = decodeAll t tokens := by
  induction tokens with
  | nil => rfl
  | cons prevToken rest ih =>
    cases rest with
    | nil => rfl
    | cons token rest =>
      rw [decodeAll, decodeAll, ih]
      rfl

/-- The string of BOS is found as token 1, and stands directly before a word
that begins with a space. -/
def BosWord (t : Tokenizer S) (table : Nat → TokenIndex) (ws : List CString) : Prop :=
  strLookup (t.vocab 1) table t.vocabSize = 1 ∧
    ∃ word, [t.vocab 1, word] <:+: ws ∧ word.head? = some (ascii ' ')

theorem Layout.bosBeforeSpace_iff (layout : Layout t) {text : CString} {ps : List Piece}
    (reads : Reads t table text ps) :
    BosBeforeSpace t (1 :: ps.map Piece.token) ↔
      BosWord t table (words t (ps.map Piece.token)) := by
  rw [BosBeforeSpace, List.tail_cons]
  constructor
  · rintro ⟨token, isPair, isSpace⟩
    obtain ⟨piece, isPiece, isToken⟩ := List.mem_map.mp (isPair.subset List.mem_cons_self)
    rw [@looked_of_token_eq _ 1 (by simp [IsByteId]) isToken] at isPiece
    exact ⟨reads.found 1 isPiece, _, isPair.map fun token : Int => t.vocab token.toNat, isSpace⟩
  · rintro ⟨isFound, word, isPair, isSpace⟩
    obtain ⟨pair, isPair, isWords⟩ := List.infix_map_iff.mp isPair
    obtain ⟨first, others, rfl, isFirst, isOthers⟩ := List.map_eq_cons_iff.mp isWords.symm
    obtain ⟨second, rest, rfl, isSecond, isRest⟩ := List.map_eq_cons_iff.mp isOthers
    obtain rfl := List.map_eq_nil_iff.mp isRest
    obtain ⟨piece, isPiece, rfl⟩ := List.mem_map.mp (isPair.subset List.mem_cons_self)
    refine ⟨second, ?_, by rw [isSecond]; exact isSpace⟩
    cases piece with
    | looked id =>
      have isId := reads.found id isPiece
      rw [Piece.token, Int.toNat_natCast] at isFirst
      rw [isFirst, isFound] at isId
      rw [Piece.token, ← isId] at isPair
      exact isPair
    | fallback b =>
      obtain ⟨isId, isToken⟩ := layout.byteTokens b.val
      have isNat : (Piece.token (.fallback b)).toNat = b.val.toNat + 3 := by
        rw [Piece.token, Byte.toNat]
        omega
      rw [isNat, isToken] at isFirst
      have notByte := layout.others 1 (by omega) (by simp [IsByteId])
      rw [← isFirst] at notByte
      exact absurd (List.prefix_append _ _) notByte

theorem Layout.words_pieces (layout : Layout t) (sorts : Sorts t table) {text : CString}
    (allFound : ∀ group ∈ groups text, ∃ id < t.vocabSize, t.vocab id = group) :
    words t ((pieces t table text).map Piece.token) = allGroups text := by
  have inVocab : ∀ group ∈ allGroups text, ∃ id < t.vocabSize, t.vocab id = group := by
    intro group isGroup
    rw [allGroups] at isGroup
    split_ifs at isGroup
    · exact absurd isGroup List.not_mem_nil
    · rcases List.mem_cons.mp isGroup with rfl | isGroup
      · exact layout.hasSpace
      · exact allFound group isGroup
  rw [pieces]
  generalize allGroups text = all at inVocab
  induction all with
  | nil => rfl
  | cons group rest ih =>
    obtain ⟨known, others⟩ := List.forall_mem_cons.mp inVocab
    have isWord : words t ((groupPieces t table group).map Piece.token) = [group] := by
      rcases strLookup_cases sorts group with ⟨-, noString⟩ | ⟨id, -, isFound, isString⟩
      · obtain ⟨id, isId, isString⟩ := known
        exact absurd isString (noString id isId)
      · rw [groupPieces, isFound, if_pos (by omega), Int.toNat_natCast, ← isString]
        rfl
    rw [List.flatMap_cons, List.map_append, words, List.map_append]
    exact congrArg₂ (· ++ ·) isWord (ih others)

/-- No two strings of the vocabulary join to that of BOS. -/
def NoBosJoin (t : Tokenizer S) : Prop :=
  ∀ i j, i < t.vocabSize → j < t.vocabSize → t.vocab i ++ t.vocab j ≠ t.vocab 1

theorem not_bosBeforeSpace_iff (first : Int) (tokens : List Int) :
    ¬ BosBeforeSpace t (first :: tokens) ↔
      tokens.IsChain fun token next =>
        token = 1 → (t.vocab next.toNat).head? ≠ some (ascii ' ') := by
  rw [BosBeforeSpace, List.tail_cons]
  induction tokens with
  | nil =>
    refine iff_of_true ?_ .nil
    rintro ⟨token, isPair, -⟩
    exact absurd (List.eq_nil_of_infix_nil isPair) (by simp)
  | cons a tokens ih =>
    cases tokens with
    | nil =>
      refine iff_of_true ?_ (.singleton a)
      rintro ⟨token, isPair, -⟩
      exact not_pair_infix_singleton 1 token a isPair
    | cons b tokens =>
      rw [List.isChain_cons_cons, ← ih]
      simp only [pair_infix_cons_iff, not_exists, not_and]
      grind

/-- A merge that does not make a BOS token puts none before a space, and takes
none away. -/
theorem Layout.bosBeforeSpace_merged (layout : Layout t) (sorts : Sorts t table)
    {text : CString} {tokens next : List Int} (valid : Valid t tokens)
    (reads : ∃ ps, tokens = 1 :: ps.map Piece.token ∧ Reads t table text ps)
    (merged : Merged t table tokens next) (noJoin : NoBosJoin t) :
    BosBeforeSpace t next ↔ BosBeforeSpace t tokens := by
  obtain ⟨ps, isTokens, -⟩ := reads
  obtain ⟨front, back, i, j, id, iValid, jValid, inVocab, isPair, rfl, isString, -⟩ :=
    merged.ids layout.usable sorts valid
  obtain ⟨⟨iNotBos, -⟩, jNotBos, -⟩ := layout.joins id i j inVocab iValid jValid isString
  have notBos : id ≠ 1 := by
    rintro rfl
    exact noJoin i j iValid jValid isString.symm
  have sameHead : (t.vocab id).head? = (t.vocab i).head? := by
    rw [isString, List.head?_append_of_ne_nil _ (layout.vocab_ne_nil iValid)]
  rw [isPair]
  cases front with
  | nil =>
    rw [isTokens] at isPair
    have isBos := (List.cons.inj isPair).1
    omega
  | cons first front =>
    have behind {token : Int} (other : token ≠ 1) :
        (token :: back).IsChain (fun token next =>
            token = 1 → (t.vocab next.toNat).head? ≠ some (ascii ' ')) ↔
          back.IsChain fun token next =>
            token = 1 → (t.vocab next.toNat).head? ≠ some (ascii ' ') := by
      rw [List.isChain_cons]
      exact and_iff_right fun next _ isBos => absurd isBos other
    have iOther : (i : Int) ≠ 1 := by omega
    rw [List.cons_append, List.cons_append, ← not_iff_not, not_bosBeforeSpace_iff,
      not_bosBeforeSpace_iff, List.isChain_split, List.isChain_append_cons_cons,
      behind (by omega), behind (by omega), List.isChain_append, List.isChain_append]
    simp [iOther, sameHead]

section Order

variable [LT S] [DecidableLT S]

/-- The words that merging cuts the text into, behind the string of BOS. -/
def textWords (lowest : S) (t : Tokenizer S) (table : Nat → TokenIndex) (text : CString) :
    List CString :=
  joinWords (wordScore t table) lowest (text.length + 2) (t.vocab 1 :: allGroups text)

/-- Merging makes a BOS token of the text directly before a space. -/
def FormsBos (lowest : S) (t : Tokenizer S) (table : Nat → TokenIndex) (text : CString) : Prop :=
  BosWord t table (textWords lowest t table text).tail

/-- Whatever is merged, the tokens behind BOS read as the text; if the
vocabulary has all groups, their strings are the words of the text. -/
theorem Layout.encode_reads (layout : Layout t) (lowest : S) {text : CString}
    (arrayFits : 4 * (text.length + 3) < 2 ^ 32) :
    ∃ table ps, ∃ isTable : vocabTable t = some table,
      Sorts t table ∧ Reads t table text ps ∧
        encode lowest t (tokenRoom text) text true false =
          some (t.withTable table isTable, 1 :: ps.map Piece.token) ∧
        ((∀ group ∈ groups text, ∃ id < t.vocabSize, t.vocab id = group) →
          textWords lowest t table text = words t (1 :: ps.map Piece.token)) ∧
        (NoBosJoin t →
          (BosBeforeSpace t (1 :: ps.map Piece.token) ↔
            BosBeforeSpace t (1 :: (pieces t table text).map Piece.token))) := by
  obtain ⟨table, raw, merged, isTable, sorts, -, rfl, isLoop, reached, -, isEncoded⟩ :=
    layout.usable.encode_eq lowest arrayFits true false
  obtain ⟨valid, rawLength⟩ := layout.usable.raw_ok sorts text true
  obtain ⟨-, ⟨ps, rfl, reads⟩, sameBos⟩ := layout.usable.reached_rule sorts
    (motive := fun tokens =>
      (∃ ps, tokens = 1 :: ps.map Piece.token ∧ Reads t table text ps) ∧
        (NoBosJoin t → (BosBeforeSpace t tokens ↔
          BosBeforeSpace t (1 :: (pieces t table text).map Piece.token))))
    (fun tokens next stillValid holds isMerged =>
      ⟨layout.reads_merged sorts stillValid holds.1 isMerged, fun noJoin =>
        (layout.bosBeforeSpace_merged sorts stillValid holds.1 isMerged noJoin).trans
          (holds.2 noJoin)⟩)
    valid ⟨⟨pieces t table text, rfl, layout.reads_pieces sorts text⟩, fun _ => Iff.rfl⟩ reached
  refine ⟨table, ps, isTable, sorts, reads, ?_, ?_, sameBos⟩
  · rw [isEncoded]
    exact congrArg some (Prod.ext rfl (List.append_nil _))
  · intro allFound
    rw [← mergeLoop_words layout.usable sorts valid isLoop rawLength, textWords,
      ← layout.words_pieces sorts allFound]
    rfl

/-- The text comes back exactly if the vocabulary has every group of it, and
merging makes no BOS token directly before a space.  It makes none if the text
does not have the string of BOS before a space; and if no two strings of the
vocabulary join to that string, it makes one only of a group of the text. -/
theorem decode_encode_iff (lowest : S) {t : Tokenizer S} (layout : Layout t) (text : CString)
    (arrayFits : 4 * (text.length + 3) < 2 ^ 32) :
    ∃ table after tokens,
      vocabTable t = some table ∧
        encode lowest t (tokenRoom text) text true false = some (after, tokens) ∧
        (decodeAll after tokens = some text ↔
          (∀ group ∈ groups text, ∃ id < t.vocabSize, t.vocab id = group) ∧
            ¬ FormsBos lowest t table text) ∧
        ((∀ group ∈ groups text, ∃ id < t.vocabSize, t.vocab id = group) →
          (FormsBos lowest t table text → t.vocab 1 ++ literal " " <:+: withDummy text) ∧
            (NoBosJoin t →
              (FormsBos lowest t table text ↔ BosWord t table (allGroups text)))) := by
  obtain ⟨table, ps, isTable, sorts, reads, isEncoded, isWords, sameBos⟩ :=
    layout.encode_reads lowest arrayFits
  have forms (allFound : ∀ group ∈ groups text, ∃ id < t.vocabSize, t.vocab id = group) :
      FormsBos lowest t table text ↔ BosBeforeSpace t (1 :: ps.map Piece.token) := by
    rw [FormsBos, isWords allFound, layout.bosBeforeSpace_iff reads]
    rfl
  refine ⟨table, _, _, isTable, isEncoded, ?_, ?_⟩
  · rw [decodeAll_withTable, layout.decodeAll_eq_iff reads]
    simp only [reads.fallbacks]
    rw [layout.no_fallback_iff sorts]
    exact and_congr_right fun allFound => not_congr (forms allFound).symm
  · intro allFound
    rw [forms allFound]
    refine ⟨layout.infix_of_bosBeforeSpace reads, ?_⟩
    intro noJoin
    rw [sameBos noJoin, layout.bosBeforeSpace_iff (layout.reads_pieces sorts text),
      ← layout.words_pieces sorts allFound]

end Order

theorem sample_isInt : 261 < 2 ^ 31 := by
  decide

/-- The three special tokens, the tokens of the bytes, a space and a letter. -/
def sample : Tokenizer Int :=
  buildTokenizer
    (fun id =>
      if id = 0 then literal "<unk0>"
      else if id = 1 then literal "<bos1>"
      else if id = 2 then literal "<eos2>"
      else if id < 259 then byteToken (id - 3).toUInt8
      else if id = 259 then literal " "
      else literal "a")
    (fun _ => 0) 6 261 sample_isInt

theorem sample_vocab_byte (b : UInt8) : sample.vocab (b.toNat + 3) = byteToken b := by
  have isByte := b.toNat_lt
  change (if b.toNat + 3 = 0 then literal "<unk0>"
    else if b.toNat + 3 = 1 then literal "<bos1>"
    else if b.toNat + 3 = 2 then literal "<eos2>"
    else if b.toNat + 3 < 259 then byteToken (b.toNat + 3 - 3).toUInt8
    else if b.toNat + 3 = 259 then literal " " else literal "a") = _
  rw [if_neg (by omega), if_neg (by omega), if_neg (by omega),
    if_pos (by omega), Nat.add_sub_cancel, Nat.toUInt8_eq, UInt8.ofNat_toNat]

theorem sample_length {id : Nat} (isLong : id < 259) : (sample.vocab id).length = 6 := by
  by_cases isSpecial : id < 3
  · interval_cases id
    · decide
    · decide
    · decide
  · have isByte : (id - 3).toUInt8.toNat + 3 = id := by
      rw [Nat.toUInt8_eq, UInt8.toNat_ofNat', Nat.mod_eq_of_lt (by omega)]
      omega
    rw [← isByte, sample_vocab_byte, length_byteToken]

theorem sample_length_cases {id : Nat} (inVocab : id < 261) :
    (sample.vocab id).length = 6 ∨ (sample.vocab id).length = 1 := by
  by_cases isLong : id < 259
  · exact .inl (sample_length isLong)
  · interval_cases id
    · exact .inr (by decide)
    · exact .inr (by decide)

theorem sample_append_ne {str : CString} (isShort : str.length = 6 ∨ str.length = 1) {i j : Nat}
    (iValid : i < 261) (jValid : j < 261) :
    str ≠ sample.vocab i ++ sample.vocab j := by
  intro isJoined
  have length := congrArg List.length isJoined
  rw [List.length_append] at length
  have first := sample_length_cases iValid
  have second := sample_length_cases jValid
  omega

theorem sample_layout : Layout sample where
  hasSpace := ⟨259, by decide, by decide⟩
  byteTokens b := ⟨by have isByte := b.toNat_lt; change _ < 261; omega, sample_vocab_byte b⟩
  others := by
    intro id inVocab notByte isPrefix
    change id < 261 at inVocab
    rw [IsByteId] at notByte
    have isOther : id = 0 ∨ id = 1 ∨ id = 2 ∨ id = 259 ∨ id = 260 := by omega
    rcases isOther with rfl | rfl | rfl | rfl | rfl
    all_goals revert isPrefix
    all_goals decide
  byteToken_ne b i j iValid jValid := sample_append_ne (.inl (length_byteToken b)) iValid jValid
  joins id i j inVocab iValid jValid isJoined :=
    absurd isJoined (sample_append_ne (sample_length_cases inVocab) iValid jValid)
  short id inVocab := by
    change _ ≤ 6
    have length := sample_length_cases inVocab
    omega
  maxLength := by decide
  tableFits := by decide

theorem letter_comes_back :
    ∃ after tokens,
      encode (-10000000000) sample (tokenRoom (literal "a")) (literal "a") true false =
          some (after, tokens) ∧
        decodeAll after tokens = some (literal "a") := by
  obtain ⟨table, after, tokens, -, isEncoded, isRoundTrip, noBos⟩ :=
    decode_encode_iff (-10000000000) sample_layout (literal "a") (by decide)
  have allFound : ∀ group ∈ groups (literal "a"),
      ∃ id < sample.vocabSize, sample.vocab id = group := by
    intro group isGroup
    have isLetter : groups (literal "a") = [literal "a"] := by decide
    rw [isLetter] at isGroup
    refine ⟨260, by decide, ?_⟩
    rw [List.mem_singleton.mp isGroup]
    decide
  refine ⟨after, tokens, isEncoded, isRoundTrip.mpr ⟨allFound, ?_⟩⟩
  exact mt (noBos allFound).1 (by decide)

theorem sample_of_length_one
    {id : Nat} (inVocab : id < 261) (length : (sample.vocab id).length = 1) :
    id = 259 ∨ id = 260 := by
  by_cases isLong : id < 259
  · have otherLength := sample_length isLong
    omega
  · omega

theorem sample_not_merged {table : Nat → TokenIndex} (sorts : Sorts sample table)
    {tokens next : List Int} (valid : Valid sample tokens) :
    ¬ Merged sample table tokens next := by
  intro merged
  obtain ⟨front, back, i, j, id, iValid, jValid, inVocab, -, -, isString, -⟩ :=
    merged.ids sample_layout.usable sorts valid
  exact sample_append_ne (sample_length_cases inVocab) iValid jValid isString

/-- A letter outside the vocabulary is encoded as the token of its byte, and
comes back as the six characters of the string of that token. -/
theorem byte_stays_escaped :
    Layout sample ∧
      ∃ after,
        encode (-10000000000) sample (tokenRoom (literal "b")) (literal "b") true false =
            some (after, [1, 259, 101]) ∧
          decodeAll after [1, 259, 101] = some (literal "<0x62>") ∧
          literal "<0x62>" ≠ literal "b" := by
  obtain ⟨table, raw, merged, isTable, sorts, -, rfl, -, reached, -, isEncoded⟩ :=
    @Usable.encode_eq _ _ _ _ sample_layout.usable (-10000000000) (literal "b") (by decide)
      true false
  obtain ⟨valid, -⟩ := sample_layout.usable.raw_ok sorts (literal "b") true
  have spaceFound : strLookup (literal " ") table sample.vocabSize = 259 := by
    rcases strLookup_cases sorts (literal " ") with ⟨-, noSpace⟩ | ⟨id, inVocab, isFound, isSpace⟩
    · exact absurd rfl (noSpace 259 (by decide))
    · rcases sample_of_length_one inVocab (by rw [isSpace]; rfl) with rfl | rfl
      · exact isFound
      · exact absurd isSpace (by decide)
  have letterMissing : strLookup (literal "b") table sample.vocabSize = -1 := by
    rw [strLookup_eq_neg_one_iff sorts]
    intro id inVocab isLetter
    rcases sample_of_length_one inVocab (by rw [isLetter]; rfl) with rfl | rfl
    · exact absurd isLetter (by decide)
    · exact absurd isLetter (by decide)
  have isPieces : pieces sample table (literal "b") = [.looked 259, .fallback (ascii 'b')] := by
    have isGroups : allGroups (literal "b") = [literal " ", literal "b"] := by decide
    rw [pieces, isGroups, List.flatMap_cons, List.flatMap_cons,
      List.flatMap_nil, groupPieces, spaceFound, groupPieces, letterMissing]
    rfl
  have isRaw :
      bosTokens true ++ (pieces sample table (literal "b")).map Piece.token = [1, 259, 101] := by
    rw [isPieces]
    decide
  obtain ⟨-, rfl⟩ := sample_layout.usable.reached_rule sorts
    (motive := fun tokens => [1, 259, 101] = tokens)
    (fun tokens next stillValid _ isMerged =>
      absurd isMerged (sample_not_merged sorts stillValid))
    valid isRaw.symm reached
  refine ⟨sample_layout, _, isEncoded, ?_, by decide⟩
  rw [decodeAll_withTable]
  have isDecoded := @Layout.decodeAll_pieces _ _ sample_layout
    [.looked 259, .fallback (ascii 'b')] ?_ 1
  · exact isDecoded
  · intro id isIn
    have isSpace : id = 259 := by simpa using isIn
    rw [isSpace]
    decide

end LlmRuntime.Bpe
