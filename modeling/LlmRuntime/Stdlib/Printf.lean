import LlmRuntime.Stdlib.FormatScan

/-!
# The cursor of `vprintf`

`vprintf` looks one and two bytes ahead: behind a `%` only if the bytes before
are not the terminator, but behind a width or a precision in any case.  The text
of a `double` is made in a buffer of 64 bytes, whatever the precision is.
-/

namespace LlmRuntime.Stdlib

open MachineInt Scanner StateTransition

def padTo (width : Int) (text : List UInt8) : List UInt8 :=
  List.replicate (width - text.length).toNat (code ' ') ++ text

def printint (xx : Int) (base : Nat) (sgn : Bool) (width : Int) : List UInt8 :=
  padTo width (bytes ((if sgn ∧ xx < 0 then [ascii '-'] else []) ++
      utoa base false (if sgn then xx.natAbs else (uint64 xx).toNat)))

def printptr (x : UInt64) : List UInt8 :=
  bytes (literal "0x" ++ (List.range 16).map fun k => digit false (x.toNat / 16 ^ (15 - k) % 16))

/-- The text that `printdouble` makes in its buffer. -/
def printdouble (d : Double) (prec : Int) : List UInt8 :=
  (if d.negative then [code '-'] else []) ++ bytes (utoaDec d.intpart.toNat) ++
    code '.' :: (List.range prec.toNat).map d.fraction

/-- The size of `buf` in `printdouble`. -/
def printdoubleBuf : Nat := 64

def VaArg.doubleText (arg : VaArg) (prec : Int) : List UInt8 :=
  printdouble arg.double (if prec < 0 then 6 else prec)

/-- The text and its terminator lie inside `buf`; `printdouble` does not look. -/
def VaArg.DoubleFits (arg : VaArg) (prec : Int) : Prop :=
  (arg.doubleText prec).length < printdoubleBuf

instance (arg : VaArg) (prec : Int) : Decidable (arg.DoubleFits prec) :=
  inferInstanceAs (Decidable (_ < _))

def VaArg.long (arg : VaArg) : Int := Int.bmod arg.word.toNat (2 ^ 64)

def isIntSpec (c : UInt8) : Bool := c = code 'd' || c = code 'u' || c = code 'x'

/-- An integer conversion, of a word or of its low half. -/
def intText (spec : UInt8) (isLong : Bool) (width : Int) (arg : VaArg) : List UInt8 :=
  if spec = code 'd' then printint (if isLong then arg.long else arg.int) 10 true width
  else
    printint (if isLong then arg.long else arg.uint)
      (if spec = code 'u' then 10 else 16) false width

/-- The bytes of the length modifier behind which the conversion stands. -/
def modifier (c0 c1 c2 : UInt8) : Nat :=
  if c0 = code 'l' then
    if isIntSpec c1 then 1
    else if c1 = code 'l' ∧ isIntSpec c2 then 2 else 0
  else 0

/-- What a conversion prints, and whether it takes an argument. -/
def printText (c0 c1 c2 : UInt8) (width prec : Int) (arg : VaArg) : List UInt8 × Bool :=
  if isIntSpec c0 then (intText c0 false width arg, true)
  else if modifier c0 c1 c2 = 1 then (intText c1 true width arg, true)
  else if modifier c0 c1 c2 = 2 then (intText c2 true width arg, true)
  else if c0 = code 'p' then (printptr arg.word, true)
  else if c0 = code 'c' then ([arg.word.toUInt8], true)
  else if c0 = code 's' then (padTo width (bytes arg.string), true)
  else if c0 = code 'f' then (padTo width (arg.doubleText prec), true)
  else if c0 = code '%' then ([code '%'], false)
  else ([code '%', c0], false)

/-- Where `vprintf` stands: at the head of its loop in either state, at `j` in
the width or the precision of a directive, before its conversion, or behind a
write outside of `buf`, of which nothing more can be said. -/
inductive PrintPhase where
  | text
  | percent
  | width (j width : Nat)
  | precision (j width prec : Nat)
  | conversion (j width : Nat) (prec : Int)
  | overrun

structure PrintScan where
  phase : PrintPhase
  i : Nat
  arg : Nat
  atLineStart : Bool
  out : List UInt8

def PrintScan.start : PrintScan :=
  ⟨.text, 0, 0, true, []⟩

/-- The indentation at the head of the loop. -/
def PrintScan.indent (level : Nat) (c0 : UInt8) (scan : PrintScan) : PrintScan :=
  if scan.atLineStart ∧ c0 ≠ code '\n' then
    { scan with
      atLineStart := false
      out := scan.out ++ List.replicate level (code ' ') }
  else scan

/-- The conversion at `j`, and the loop's step behind it. -/
def PrintScan.convert (mem : Nat → UInt8) (args : Nat → VaArg) (j width : Nat) (prec : Int)
    (scan : PrintScan) : PrintScan :=
  let c0 := mem j
  let c1 := mem (j + 1)
  let c2 := if j = scan.i ∧ c1 = 0 then 0 else mem (j + 2)
  let (text, takes) := printText c0 c1 c2 (int32 width) prec (args scan.arg)
  { scan with
    phase := if c0 = code 'f' ∧ ¬ (args scan.arg).DoubleFits prec then .overrun else .text
    i := j + modifier c0 c1 c2 + 1
    arg := scan.arg + takes.toNat
    out := scan.out ++ text }

def vprintfStep (level : Nat) (mem : Nat → UInt8) (args : Nat → VaArg)
    (scan : PrintScan) : Option PrintScan :=
  match scan.phase with
  | .text =>
    let c0 := mem scan.i
    if c0 = 0 then none
    else
      let scan := scan.indent level c0
      if c0 = code '%' then some { scan with phase := .percent, i := scan.i + 1 }
      else some { scan with i := scan.i + 1, out := scan.out ++ [c0] }
  | .percent =>
    let c0 := mem scan.i
    if c0 = 0 then none
    else some { scan.indent level c0 with phase := .width scan.i 0 }
  | .width j width =>
    if isDigitCode (mem j) then
      some { scan with
        phase := .width (j + 1) (width * 10 + ((mem j).toNat - 48)) }
    else if mem j = code '.' then some { scan with phase := .precision (j + 1) width 0 }
    else some { scan with phase := .conversion j width (-1) }
  | .precision j width prec =>
    if isDigitCode (mem j) then
      some { scan with
        phase := .precision (j + 1) width (prec * 10 + ((mem j).toNat - 48)) }
    else some { scan with phase := .conversion j width (int32 prec) }
  | .conversion j width prec => some (scan.convert mem args j width prec)
  | .overrun => none

/-- The places of the format that the turn reads.  Behind a `%` these are the
byte and the two behind it, as far as none before is the terminator. -/
def PrintScan.reads (mem : Nat → UInt8) (scan : PrintScan) : List Nat :=
  match scan.phase with
  | .text => [scan.i]
  | .percent =>
    if mem scan.i = 0 then [scan.i]
    else if mem (scan.i + 1) = 0 then [scan.i, scan.i + 1]
    else [scan.i, scan.i + 1, scan.i + 2]
  | .width j _ => [j]
  | .precision j _ _ => [j]
  | .conversion j _ _ => if j = scan.i then [] else [j, j + 1, j + 2]
  | .overrun => []

/-! ## The formats that are read to their end -/

/-- What a format is in, byte by byte.  Behind a conversion with a width or a
precision one more byte is owed, which is looked at in any case; an `l` may
stand before the conversion that it belongs to. -/
inductive PrintMode where
  | text
  | percent
  | width
  | precision
  | owed
  | owedLong
  | long
  | longLong
  deriving DecidableEq

def textMode (c : UInt8) : PrintMode :=
  if c = code '%' then .percent else .text

def longMode (c : UInt8) : PrintMode :=
  if isIntSpec c then .text else if c = code 'l' then .longLong else textMode c

def conversionMode (owes : Bool) (c : UInt8) : PrintMode :=
  if c = code 'l' then cond owes .owedLong .long else cond owes .owed .text

def nextPrintMode : PrintMode → UInt8 → PrintMode
  | .text, c => textMode c
  | .percent, c =>
    if isDigitCode c then .width
    else if c = code '.' then .precision else conversionMode false c
  | .width, c =>
    if isDigitCode c then .width
    else if c = code '.' then .precision else conversionMode true c
  | .precision, c => if isDigitCode c then .precision else conversionMode true c
  | .owed, c => textMode c
  | .owedLong, c => longMode c
  | .long, c => longMode c
  | .longLong, c => if isIntSpec c then .text else textMode c

def printMode (mode : PrintMode) (s : CString) : PrintMode := (bytes s).foldl nextPrintMode mode

/-- The terminator is not the last byte that is looked at. -/
def PrintMode.RunsOver (mode : PrintMode) : Prop :=
  mode ∈ [PrintMode.width, .precision, .owed, .owedLong]

instance (mode : PrintMode) : Decidable mode.RunsOver := inferInstanceAs (Decidable (mode ∈ _))

/-- The byte is the first of a conversion. -/
def PrintMode.converts : PrintMode → UInt8 → Bool
  | .percent, c => !isDigitCode c && c != code '.'
  | .width, c => !isDigitCode c && c != code '.'
  | .precision, c => !isDigitCode c
  | _, _ => false

/-- The conversion takes an argument, whatever stands behind it. -/
def takesArg (c : UInt8) : Bool :=
  isIntSpec c || c = code 'p' || c = code 'c' || c = code 's' || c = code 'f'

/-- The byte completes a conversion that takes an argument. -/
def PrintMode.takes (mode : PrintMode) (c : UInt8) : Bool :=
  match mode with
  | .owedLong => isIntSpec c
  | .long => isIntSpec c
  | .longLong => isIntSpec c
  | _ => mode.converts c && takesArg c

/-- A place of a format: the digits of the precision that it stands in, and the
number of the arguments taken before. -/
structure PrintPlace where
  mode : PrintMode
  prec : Option Nat
  arg : Nat

def PrintPlace.start : PrintPlace :=
  ⟨.text, none, 0⟩

def PrintPlace.next (place : PrintPlace) (c : UInt8) : PrintPlace :=
  let mode := nextPrintMode place.mode c
  { mode := mode
    prec :=
      if mode = .precision then
        some (place.prec.elim 0 fun digits => digits * 10 + (c.toNat - 48))
      else none
    arg := place.arg + (place.mode.takes c).toNat }

/-- Every `%f` of the format has an argument that `printdouble` has room for. -/
def DoublesFit (args : Nat → VaArg) : PrintPlace → CString → Prop
  | _, [] => True
  | place, c :: rest =>
    (place.mode.converts c.val = true → c.val = code 'f' →
        (args place.arg).DoubleFits (precisionValue place.prec)) ∧
      DoublesFit args (place.next c.val) rest

instance decidableDoublesFit (args : Nat → VaArg) :
    (place : PrintPlace) → (rest : CString) → Decidable (DoublesFit args place rest)
  | _, [] => isTrue trivial
  | place, c :: rest =>
    have := decidableDoublesFit args (place.next c.val) rest
    inferInstanceAs (Decidable (_ ∧ _))

/-- What there is to show of the rest of a format. -/
def Prints (args : Nat → VaArg) (place : PrintPlace) (rest : CString) : Prop :=
  ¬ (printMode place.mode rest).RunsOver ∧ DoublesFit args place rest

theorem prints_nil_iff (args : Nat → VaArg) (place : PrintPlace) :
    Prints args place [] ↔ ¬ place.mode.RunsOver := and_iff_left trivial

theorem prints_cons_iff (args : Nat → VaArg) (place : PrintPlace) (c : Byte) (rest : CString) :
    Prints args place (c :: rest) ↔
      (place.mode.converts c.val = true → c.val = code 'f' →
          (args place.arg).DoubleFits (precisionValue place.prec)) ∧
        Prints args (place.next c.val) rest := and_left_comm

theorem prints_cons_of_not_converts {args : Nat → VaArg} {place : PrintPlace} {c : Byte}
    (goesOn : place.mode.converts c.val = false) (rest : CString) :
    Prints args place (c :: rest) ↔ Prints args (place.next c.val) rest := by
  rw [prints_cons_iff]
  refine and_iff_right fun converts => ?_
  rw [goesOn] at converts
  cases converts

theorem PrintPlace.next_of_ne {place : PrintPlace} {c : UInt8}
    (noPrecision : nextPrintMode place.mode c ≠ .precision) :
    place.next c =
      ⟨nextPrintMode place.mode c, none, place.arg + (place.mode.takes c).toNat⟩ := by
  rw [PrintPlace.next, if_neg noPrecision]

theorem textMode_ne_precision (c : UInt8) : textMode c ≠ .precision := by
  rw [textMode]
  split_ifs <;> decide

theorem longMode_ne_precision (c : UInt8) : longMode c ≠ .precision := by
  rw [longMode]
  split_ifs
  · decide
  · decide
  · exact textMode_ne_precision c

theorem conversionMode_ne_precision (owes : Bool) (c : UInt8) :
    conversionMode owes c ≠ .precision := by
  rw [conversionMode]
  cases owes <;> split_ifs <;> decide

theorem next_text (prec : Option Nat) (arg : Nat) (c : UInt8) :
    PrintPlace.next ⟨.text, prec, arg⟩ c = ⟨textMode c, none, arg⟩ :=
  PrintPlace.next_of_ne (textMode_ne_precision c)

theorem next_long (prec : Option Nat) (arg : Nat) (c : UInt8) :
    PrintPlace.next ⟨.long, prec, arg⟩ c = ⟨longMode c, none, arg + (isIntSpec c).toNat⟩ :=
  PrintPlace.next_of_ne (longMode_ne_precision c)

theorem next_longLong (prec : Option Nat) (arg : Nat) (c : UInt8) :
    PrintPlace.next ⟨.longLong, prec, arg⟩ c =
      ⟨if isIntSpec c then .text else textMode c, none, arg + (isIntSpec c).toNat⟩ := by
  refine PrintPlace.next_of_ne ?_
  rw [nextPrintMode]
  split_ifs
  · decide
  · exact textMode_ne_precision c

/-- The place behind the first byte of a conversion. -/
def convertedPlace (owes : Bool) (c0 : UInt8) (arg : Nat) : PrintPlace :=
  ⟨conversionMode owes c0, none, arg⟩

theorem next_converted {mode : PrintMode} {prec : Option Nat} {arg : Nat} {c : UInt8} {owes : Bool}
    (takes : mode.takes c = takesArg c) (isMode : nextPrintMode mode c = conversionMode owes c) :
    PrintPlace.next ⟨mode, prec, arg⟩ c = convertedPlace owes c (arg + (takesArg c).toNat) := by
  have noPrecision := conversionMode_ne_precision owes c
  rw [← isMode] at noPrecision
  rw [PrintPlace.next_of_ne noPrecision, isMode, takes, convertedPlace]

theorem converts_conversionMode (owes : Bool) (c d : UInt8) :
    (conversionMode owes c).converts d = false := by
  rw [conversionMode]
  cases owes <;> split_ifs <;> rfl

theorem convertedPlace_next (c0 c : UInt8) (owes : Bool) (arg : Nat) :
    (convertedPlace owes c0 arg).next c = (convertedPlace false c0 arg).next c := by
  cases owes with
  | false => rfl
  | true =>
    rw [convertedPlace, convertedPlace, conversionMode, conversionMode]
    split_ifs <;> rfl

theorem prints_owed_iff (args : Nat → VaArg) (c0 : UInt8) (arg : Nat) (rest : CString) :
    Prints args (convertedPlace true c0 arg) rest ↔
      rest ≠ [] ∧ Prints args (convertedPlace false c0 arg) rest := by
  cases rest with
  | nil =>
    rw [prints_nil_iff, convertedPlace, conversionMode]
    refine iff_of_false (not_not.mpr ?_) (fun both => both.1 rfl)
    dsimp only
    split_ifs <;> decide
  | cons c rest =>
    rw [prints_cons_of_not_converts (converts_conversionMode true c0 c.val),
      prints_cons_of_not_converts (converts_conversionMode false c0 c.val),
      convertedPlace_next]
    exact (and_iff_right (List.cons_ne_nil c rest)).symm

section Runs

variable {level : Nat} {mem : Nat → UInt8} {args : Nat → VaArg}

theorem prints_secondModifier_iff {i second : Nat} {c1 : Byte} {rest : CString}
    (stored : StoredAt mem i rest) (arg : Nat)
    (isSecond : second = if c1.val = code 'l' ∧ isIntSpec (mem i) then 2 else 0) :
    second ≤ rest.length + 1 ∧
      (Prints args ⟨if c1.val = code 'l' then .longLong else textMode c1.val, none, arg⟩
          rest ↔
        Prints args ⟨.text, none, arg + (second != 0).toNat⟩ ((c1 :: rest).drop second)) := by
  by_cases isLong : c1.val = code 'l'
  · rw [if_pos isLong]
    cases rest with
    | nil =>
      have ends : mem i = 0 := stored
      have notSpec : ¬ isIntSpec 0 = true := by decide
      rw [ends, if_neg (fun both => notSpec both.2)] at isSecond
      rw [isSecond, List.drop_zero, prints_nil_iff, prints_cons_of_not_converts rfl,
        next_text, prints_nil_iff, isLong]
      exact ⟨Nat.zero_le _, iff_of_true (by decide : ¬ PrintMode.longLong.RunsOver)
        (by decide : ¬ (textMode (code 'l')).RunsOver)⟩
    | cons c2 rest =>
      rw [stored.1] at isSecond
      rw [prints_cons_of_not_converts rfl, next_longLong, List.length_cons]
      by_cases isSpec : isIntSpec c2.val = true
      · rw [if_pos ⟨isLong, isSpec⟩] at isSecond
        rw [isSecond, if_pos isSpec, isSpec]
        exact ⟨by omega, Iff.rfl⟩
      · rw [if_neg (fun both => isSpec both.2)] at isSecond
        rw [isSecond, if_neg isSpec, List.drop_zero, prints_cons_of_not_converts rfl,
          next_text, isLong, Bool.eq_false_iff.mpr isSpec,
          show textMode (code 'l') = .text by decide, prints_cons_of_not_converts rfl, next_text]
        exact ⟨Nat.zero_le _, Iff.rfl⟩
  · rw [if_neg (fun both => isLong both.1)] at isSecond
    rw [isSecond, if_neg isLong, List.drop_zero, prints_cons_of_not_converts rfl, next_text]
    exact ⟨Nat.zero_le _, Iff.rfl⟩

/-- The bytes of the modifier are bytes of the format, and the automaton is
behind them where `vprintf` is. -/
theorem prints_modifier_iff {i : Nat} {rest : CString} (c0 : UInt8)
    (stored : StoredAt mem i rest) (arg : Nat) :
    modifier c0 (mem i) (mem (i + 1)) ≤ rest.length ∧
      (Prints args (convertedPlace false c0 arg) rest ↔
        Prints args ⟨.text, none, arg + (modifier c0 (mem i) (mem (i + 1)) != 0).toNat⟩
          (rest.drop (modifier c0 (mem i) (mem (i + 1))))) := by
  rw [modifier, convertedPlace, conversionMode]
  by_cases isLong : c0 = code 'l'
  · rw [if_pos isLong, if_pos isLong, cond_false]
    cases rest with
    | nil =>
      have ends : mem i = 0 := stored
      have notSpec : ¬ isIntSpec 0 = true := by decide
      have notLong : (0 : UInt8) ≠ code 'l' := by decide
      rw [ends, if_neg notSpec, if_neg (fun both => notLong both.1), List.drop_zero,
        prints_nil_iff, prints_nil_iff]
      exact ⟨le_refl 0, iff_of_true (by decide : ¬ PrintMode.long.RunsOver)
        (by decide : ¬ PrintMode.text.RunsOver)⟩
    | cons c1 rest =>
      obtain ⟨here, stored⟩ := stored
      rw [here, prints_cons_of_not_converts rfl, next_long, longMode, List.length_cons]
      by_cases isSpec : isIntSpec c1.val = true
      · rw [if_pos isSpec, if_pos isSpec, List.drop_one, List.tail_cons, isSpec]
        exact ⟨by omega, Iff.rfl⟩
      · rw [if_neg isSpec, if_neg isSpec, Bool.eq_false_iff.mpr isSpec]
        exact prints_secondModifier_iff stored arg rfl
  · rw [if_neg isLong, if_neg isLong]
    exact ⟨Nat.zero_le _, Iff.rfl⟩

theorem printText_takes (c0 c1 c2 : UInt8) (width prec : Int) (arg : VaArg) :
    (printText c0 c1 c2 width prec arg).2.toNat =
      (takesArg c0).toNat + (modifier c0 c1 c2 != 0).toNat := by
  by_cases isLong : c0 = code 'l'
  · have notSpec : ¬ isIntSpec c0 = true := by
      rw [isLong]
      decide
    have noneTaken : takesArg c0 = false := by
      rw [isLong]
      decide
    rw [printText, if_neg notSpec, noneTaken, isLong, modifier, if_pos rfl]
    split_ifs <;> first | rfl | contradiction
  · have isModifier : modifier c0 c1 c2 = 0 := if_neg isLong
    rw [printText, isModifier, if_neg Nat.zero_ne_one, if_neg (Nat.zero_ne_add_one 1), takesArg]
    split_ifs with isInt isPtr isChar isStr isDouble
    · simp [isInt]
    · simp [isPtr]
    · simp [isChar]
    · simp [isStr]
    · simp [isDouble]
    · simp [isInt, isPtr, isChar, isStr, isDouble]
    · simp [isInt, isPtr, isChar, isStr, isDouble]

theorem StoredAt.drop {i : Nat} {s : CString} (stored : StoredAt mem i s)
    (n : Nat) (inside : n ≤ s.length) : StoredAt mem (i + n) (s.drop n) := by
  induction n generalizing i s with
  | zero => exact stored
  | succ n ih =>
    cases s with
    | nil => exact absurd inside (Nat.not_succ_le_zero n)
    | cons c s =>
      rw [show i + (n + 1) = i + 1 + n by omega]
      exact ih stored.2 (Nat.le_of_succ_le_succ inside)

/-- The second byte ahead does not matter where the first is the terminator. -/
theorem modifier_lookahead (c0 c1 c2 : UInt8) (skipped : Prop) [Decidable skipped] :
    modifier c0 c1 (if skipped ∧ c1 = 0 then 0 else c2) = modifier c0 c1 c2 := by
  by_cases ends : skipped ∧ c1 = 0
  · have notLong : (0 : UInt8) ≠ code 'l' := by decide
    have noneBehind (c2 : UInt8) : ¬ ((0 : UInt8) = code 'l' ∧ isIntSpec c2 = true) :=
      fun both => notLong both.1
    rw [if_pos ends, ends.2, modifier, modifier, if_neg (noneBehind _), if_neg (noneBehind _)]
  · rw [if_neg ends]

theorem PrintScan.convert_i (scan : PrintScan) (mem : Nat → UInt8) (args : Nat → VaArg)
    (j width : Nat) (prec : Int) :
    (scan.convert mem args j width prec).i =
      j + 1 + modifier (mem j) (mem (j + 1)) (mem (j + 1 + 1)) := by
  rw [PrintScan.convert]
  dsimp only
  rw [modifier_lookahead]
  exact Nat.add_right_comm j _ 1

theorem PrintScan.convert_arg (scan : PrintScan) (mem : Nat → UInt8) (args : Nat → VaArg)
    (j width : Nat) (prec : Int) :
    (scan.convert mem args j width prec).arg =
      scan.arg + (takesArg (mem j)).toNat +
        (modifier (mem j) (mem (j + 1)) (mem (j + 1 + 1)) != 0).toNat := by
  rw [PrintScan.convert]
  dsimp only
  rw [printText_takes, modifier_lookahead, Nat.add_assoc]

/-- The run from one state of `vprintf`. -/
def ReadsTo (level : Nat) (mem : Nat → UInt8) (args : Nat → VaArg)
    (last : Nat) (scan : PrintScan) : Prop :=
  StaysWithin (vprintfStep level mem args) (PrintScan.reads mem) last scan

theorem readsTo_step {scan next : PrintScan} {last : Nat}
    (isNext : vprintfStep level mem args scan = some next) :
    ReadsTo level mem args last scan ↔
      (∀ i ∈ scan.reads mem, i ≤ last) ∧ ReadsTo level mem args last next := staysWithin_step isNext

/-- What is to be shown of the formats shorter than `n`. -/
def ShortTexts (level : Nat) (mem : Nat → UInt8) (args : Nat → VaArg) (last n : Nat) : Prop :=
  ∀ {scan : PrintScan} {rest : CString}, rest.length < n →
    scan.phase = .text → StoredAt mem scan.i rest →
    scan.i + rest.length = last →
    (ReadsTo level mem args last scan ↔ Prints args ⟨.text, none, scan.arg⟩ rest)

variable {last n : Nat} {scan : PrintScan} {rest : CString} {j width : Nat} {prec : Int}

theorem not_readsTo_overrun (isPhase : scan.phase = .overrun) :
    ¬ ReadsTo level mem args last scan := by
  have halts : vprintfStep level mem args scan = none := by rw [vprintfStep, isPhase]
  rw [ReadsTo, staysWithin_halt halts, PrintScan.reads, isPhase]
  exact List.cons_ne_nil last [] ∘ Eq.symm

theorem readsTo_conversion_iff {c0 : Byte} (texts : ShortTexts level mem args last n)
    (short : rest.length < n) (isPhase : scan.phase = .conversion j width prec)
    (stored : StoredAt mem j (c0 :: rest)) (ends : j + 1 + rest.length = last) :
    ReadsTo level mem args last scan ↔
      (c0.val = code 'f' → (args scan.arg).DoubleFits prec) ∧
        Prints args
          (convertedPlace (j ≠ scan.i) c0.val (scan.arg + (takesArg c0.val).toNat)) rest := by
  obtain ⟨here, stored⟩ := stored
  obtain ⟨inside, isMode⟩ :=
    @prints_modifier_iff mem args _ _ c0.val stored (scan.arg + (takesArg c0.val).toNat)
  have isNext : vprintfStep level mem args scan = some (scan.convert mem args j width prec) := by
    rw [vprintfStep, isPhase]
  have isPlace := scan.convert_i mem args j width prec
  have isArg := scan.convert_arg mem args j width prec
  rw [here] at isPlace isArg
  rw [readsTo_step isNext]
  by_cases fits : c0.val = code 'f' → (args scan.arg).DoubleFits prec
  · have isText : (scan.convert mem args j width prec).phase = .text := by
      rw [PrintScan.convert, here]
      exact if_neg fun overruns => overruns.2 (fits overruns.1)
    have behind : ReadsTo level mem args last (scan.convert mem args j width prec) ↔
        Prints args (convertedPlace false c0.val (scan.arg + (takesArg c0.val).toNat)) rest := by
      rw [isMode, ← isArg]
      refine texts ?_ isText ?_ ?_
      · rw [List.length_drop]
        omega
      · rw [isPlace]
        exact stored.drop _ inside
      · rw [isPlace, List.length_drop]
        omega
    rw [behind, PrintScan.reads, isPhase, and_iff_right fits]
    dsimp only
    by_cases noWidth : j = scan.i
    · rw [if_pos noWidth, decide_eq_false (not_not.mpr noWidth)]
      exact and_iff_right (fun i isRead => absurd isRead List.not_mem_nil)
    · rw [if_neg noWidth, decide_eq_true noWidth, prints_owed_iff]
      refine and_congr_left fun _ => ?_
      rw [← List.length_pos_iff]
      simp only [List.forall_mem_cons]
      constructor
      · rintro ⟨-, -, isInside, -⟩
        omega
      · intro notEmpty
        exact ⟨by omega, by omega, by omega, by simp⟩
  · have isOverrun : (scan.convert mem args j width prec).phase = .overrun := by
      rw [PrintScan.convert, here]
      exact if_pos (Classical.not_imp.mp fits)
    exact iff_of_false (fun both => not_readsTo_overrun isOverrun both.2) (fun both => fits both.1)

theorem readsTo_next_iff {next : PrintScan} (isNext : vprintfStep level mem args scan = some next)
    (isRead : scan.reads mem = [j]) (inside : j ≤ last) :
    ReadsTo level mem args last scan ↔ ReadsTo level mem args last next := by
  rw [readsTo_step isNext, isRead, List.forall_mem_singleton]
  exact and_iff_right inside

/-- The terminator where a conversion is looked for: two bytes behind it are
read. -/
theorem not_readsTo_conversion (isPhase : scan.phase = .conversion j width prec)
    (isBehind : scan.i < j) (isEnd : j = last) :
    ¬ ReadsTo level mem args last scan := by
  rintro ⟨inside, -⟩
  have isInside := inside scan .refl (j + 1)
  rw [PrintScan.reads, isPhase] at isInside
  dsimp only at isInside
  rw [if_neg isBehind.ne'] at isInside
  have notBehind := isInside (by simp)
  omega

theorem readsTo_precision_iff {digits : Nat} (texts : ShortTexts level mem args last n)
    (short : rest.length ≤ n) (isPhase : scan.phase = .precision j width digits)
    (isBehind : scan.i < j) (stored : StoredAt mem j rest) (ends : j + rest.length = last) :
    ReadsTo level mem args last scan ↔ Prints args ⟨.precision, some digits, scan.arg⟩ rest := by
  have isRead : scan.reads mem = [j] := by rw [PrintScan.reads, isPhase]
  have isNext := vprintfStep.eq_def level mem args scan
  rw [isPhase] at isNext
  dsimp only at isNext
  induction rest generalizing scan j digits with
  | nil =>
    have isEnd : mem j = 0 := stored
    rw [isEnd, if_neg (by decide)] at isNext
    rw [readsTo_next_iff isNext isRead (by omega), prints_nil_iff]
    exact iff_of_false (not_readsTo_conversion rfl isBehind ends)
      (not_not.mpr (by decide : PrintMode.precision.RunsOver))
  | cons c rest ih =>
    rw [List.length_cons] at short ends
    rw [stored.1] at isNext
    have isConverts : PrintMode.converts .precision c.val = !isDigitCode c.val := rfl
    have isTakes : PrintMode.takes .precision c.val =
        (!isDigitCode c.val && takesArg c.val) := rfl
    by_cases moreDigits : isDigitCode c.val = true
    · rw [if_pos moreDigits] at isNext
      rw [moreDigits, Bool.not_true] at isConverts isTakes
      have isPlace : PrintPlace.next ⟨.precision, some digits, scan.arg⟩ c.val =
          ⟨.precision, some (digits * 10 + (c.val.toNat - 48)), scan.arg⟩ := by
        rw [PrintPlace.next, nextPrintMode, if_pos moreDigits, if_pos rfl, isTakes]
        rfl
      rw [readsTo_next_iff isNext isRead (by omega), prints_cons_of_not_converts isConverts, isPlace]
      exact ih (by omega) rfl (Nat.lt_succ_of_lt isBehind) stored.2 (by omega) rfl rfl
    · rw [if_neg moreDigits] at isNext
      have isMode : nextPrintMode .precision c.val = conversionMode true c.val :=
        if_neg moreDigits
      rw [Bool.eq_false_iff.mpr moreDigits, Bool.not_false] at isConverts isTakes
      rw [readsTo_next_iff isNext isRead (by omega),
        readsTo_conversion_iff texts short rfl stored (by omega), decide_eq_true isBehind.ne',
        prints_cons_iff, next_converted isTakes isMode,
        forall_prop_of_true isConverts]
      rfl

section Directive

variable (noWidth : Prop) [Decidable noWidth] (c : UInt8)

theorem nextPrintMode_directive :
    nextPrintMode (if noWidth then .percent else .width) c =
      if isDigitCode c then .width
      else if c = code '.' then .precision
      else conversionMode (¬ noWidth) c := by
  by_cases isFirst : noWidth
  · rw [if_pos isFirst, decide_eq_false (not_not.mpr isFirst)]
    rfl
  · rw [if_neg isFirst, decide_eq_true isFirst]
    rfl

theorem converts_directive :
    (if noWidth then PrintMode.percent else .width).converts c =
      (!isDigitCode c && c != code '.') := by
  split_ifs <;> rfl

theorem takes_directive :
    (if noWidth then PrintMode.percent else .width).takes c =
      ((!isDigitCode c && c != code '.') && takesArg c) := by
  split_ifs <;> rfl

end Directive

theorem readsTo_width_iff (texts : ShortTexts level mem args last n)
    (short : rest.length ≤ n) (isPhase : scan.phase = .width j width)
    (notAhead : scan.i ≤ j) (goesOn : j = scan.i → rest ≠ [])
    (stored : StoredAt mem j rest) (ends : j + rest.length = last) :
    ReadsTo level mem args last scan ↔
      Prints args ⟨if j = scan.i then .percent else .width, none, scan.arg⟩ rest := by
  have isRead : scan.reads mem = [j] := by rw [PrintScan.reads, isPhase]
  have isNext := vprintfStep.eq_def level mem args scan
  rw [isPhase] at isNext
  dsimp only at isNext
  induction rest generalizing scan j width with
  | nil =>
    have isBehind : scan.i < j := lt_of_le_of_ne notAhead fun same => goesOn same.symm rfl
    have isEnd : mem j = 0 := stored
    rw [isEnd, if_neg (by decide), if_neg (by decide)] at isNext
    rw [readsTo_next_iff isNext isRead (by omega), if_neg isBehind.ne', prints_nil_iff]
    exact iff_of_false (not_readsTo_conversion rfl isBehind ends)
      (not_not.mpr (by decide : PrintMode.width.RunsOver))
  | cons c rest ih =>
    rw [List.length_cons] at short ends
    have isMode := nextPrintMode_directive (j = scan.i) c.val
    have isConverts := converts_directive (j = scan.i) c.val
    have isTakes := takes_directive (j = scan.i) c.val
    rw [stored.1] at isNext
    by_cases moreDigits : isDigitCode c.val = true
    · rw [if_pos moreDigits] at isNext isMode
      rw [moreDigits, Bool.not_true, Bool.false_and] at isConverts isTakes
      have isBehind : j + 1 ≠ scan.i := by omega
      have behind := @ih
        { scan with
          phase := .width (j + 1) (width * 10 + (c.val.toNat - 48)) }
        _ _ (by omega) rfl (Nat.le_succ_of_le notAhead)
        (fun same => absurd same isBehind) stored.2 (by omega) rfl rfl
      rw [if_neg isBehind] at behind
      rw [readsTo_next_iff isNext isRead (by omega), prints_cons_of_not_converts isConverts,
        PrintPlace.next, isMode, if_neg (by decide), isTakes]
      exact behind
    · rw [if_neg moreDigits] at isNext isMode
      rw [Bool.eq_false_iff.mpr moreDigits, Bool.not_false, Bool.true_and] at isConverts isTakes
      by_cases isPoint : c.val = code '.'
      · rw [if_pos isPoint] at isNext isMode
        rw [isPoint, bne_self_eq_false] at isConverts isTakes
        rw [readsTo_next_iff isNext isRead (by omega),
          prints_cons_of_not_converts (by rw [isPoint]; exact isConverts),
          PrintPlace.next, isMode, if_pos rfl, isPoint, isTakes]
        exact readsTo_precision_iff texts (by omega) rfl
          (Nat.lt_succ_of_le notAhead) stored.2 (by omega)
      · rw [if_neg isPoint] at isNext isMode
        rw [bne_iff_ne.mpr isPoint] at isConverts isTakes
        rw [readsTo_next_iff isNext isRead (by omega),
          readsTo_conversion_iff texts short rfl stored (by omega), prints_cons_iff,
          next_converted isTakes isMode, forall_prop_of_true isConverts]
        rfl

theorem PrintScan.indent_same (c0 : UInt8) (scan : PrintScan) :
    (scan.indent level c0).i = scan.i ∧
      (scan.indent level c0).phase = scan.phase ∧ (scan.indent level c0).arg = scan.arg := by
  rw [PrintScan.indent]
  split_ifs <;> exact ⟨rfl, rfl, rfl⟩

theorem readsTo_percent_iff (texts : ShortTexts level mem args last n)
    (short : rest.length ≤ n) (isPhase : scan.phase = .percent)
    (stored : StoredAt mem scan.i rest) (ends : scan.i + rest.length = last) :
    ReadsTo level mem args last scan ↔ Prints args ⟨.percent, none, scan.arg⟩ rest := by
  have isNext := vprintfStep.eq_def level mem args scan
  rw [isPhase] at isNext
  dsimp only at isNext
  cases rest with
  | nil =>
    have isEnd : mem scan.i = 0 := stored
    rw [isEnd, if_pos rfl] at isNext
    rw [ReadsTo, staysWithin_halt isNext, PrintScan.reads, isPhase]
    dsimp only
    rw [if_pos isEnd, ← ends, prints_nil_iff]
    exact iff_of_true rfl (by decide : ¬ PrintMode.percent.RunsOver)
  | cons c rest =>
    have notEnd : mem scan.i ≠ 0 := by
      rw [stored.1]
      exact c.property
    rw [if_neg notEnd] at isNext
    obtain ⟨isPlace, -, isArg⟩ := @PrintScan.indent_same level (mem scan.i) scan
    have isWidth := @readsTo_width_iff _ _ _ _ _
      { scan.indent level (mem scan.i) with phase := .width scan.i 0 } _ _ _
      texts short rfl isPlace.le
      (fun _ => List.cons_ne_nil c rest) stored ends
    rw [if_pos isPlace.symm, isArg] at isWidth
    rw [readsTo_step isNext, isWidth, PrintScan.reads, isPhase]
    dsimp only
    rw [if_neg notEnd]
    rw [List.length_cons] at ends
    refine and_iff_right ?_
    split_ifs with isEnd
    · simp only [List.forall_mem_cons]
      exact ⟨by omega, by omega, by simp⟩
    · have longer : 0 < rest.length := by
        rw [List.length_pos_iff]
        rintro rfl
        exact isEnd stored.2
      simp only [List.forall_mem_cons]
      exact ⟨by omega, by omega, by omega, by simp⟩

theorem shortTexts (n : Nat) : ShortTexts level mem args last n := by
  induction n with
  | zero =>
    intro scan rest short
    exact absurd short (Nat.not_lt_zero _)
  | succ n ih =>
    intro scan rest short isPhase stored ends
    have isRead : scan.reads mem = [scan.i] := by rw [PrintScan.reads, isPhase]
    have isNext := vprintfStep.eq_def level mem args scan
    rw [isPhase] at isNext
    dsimp only at isNext
    cases rest with
    | nil =>
      have isEnd : mem scan.i = 0 := stored
      rw [isEnd, if_pos rfl] at isNext
      rw [ReadsTo, staysWithin_halt isNext, isRead, ← ends, prints_nil_iff]
      exact iff_of_true rfl (by decide : ¬ PrintMode.text.RunsOver)
    | cons c rest =>
      rw [List.length_cons] at short ends
      have ends : scan.i + 1 + rest.length = last := by omega
      obtain ⟨isPlace, samePhase, isArg⟩ := @PrintScan.indent_same level c.val scan
      rw [stored.1, if_neg c.property, isPlace, samePhase, isArg] at isNext
      rw [prints_cons_of_not_converts rfl, next_text, textMode]
      by_cases isPercent : c.val = code '%'
      · rw [if_pos isPercent] at isNext ⊢
        rw [readsTo_next_iff isNext isRead (by omega)]
        exact readsTo_percent_iff ih (by omega) rfl stored.2 ends
      · rw [if_neg isPercent] at isNext ⊢
        rw [readsTo_next_iff isNext isRead (by omega)]
        exact ih (by omega) isPhase stored.2 ends

/-- `vprintf` reads its format to the end and no further, unless the format
ends in a directive with a width or a precision, or right behind one, or a
number does not fit into the buffer of `printdouble`. -/
theorem vprintf_within_iff {fmt : CString} (stored : StoredAt mem 0 fmt) :
    StaysWithin (vprintfStep level mem args) (PrintScan.reads mem) fmt.length
        .start ↔
      ¬ (printMode .text fmt).RunsOver ∧ DoublesFit args .start fmt :=
  shortTexts (fmt.length + 1) (Nat.lt_succ_self _) rfl stored (Nat.zero_add _)

end Runs

/-- Both functions stop at the terminator of the format and read nothing behind
it, and `vprintf` does not overrun a buffer on the way; what `xvsnprintf`
writes, its terminator included, lies within its buffer, without gaps, and it
returns the number of the bytes before the terminator. -/
structure ScansSafely (level size : Nat) (mem : Nat → UInt8)
    (args : Nat → VaArg) (last : Nat) : Prop where
  vprintf : StaysWithin (vprintfStep level mem args) (PrintScan.reads mem) last .start
  xvsnprintf : StaysWithin (xvsnprintfStep size mem args) FormatScan.reads last .start
  written : ∃ final ∈ eval (xvsnprintfStep size mem args) .start,
    (∀ write ∈ final.sink.finish, write.1 < size) ∧
      final.sink.finish.map Prod.fst = List.range (final.sink.outpos + 1)

theorem scansSafely_iff (level size : Nat) (positive : 1 ≤ size) (fmt : CString)
    (mem : Nat → UInt8) (stored : StoredAt mem 0 fmt) (args : Nat → VaArg) :
    ScansSafely level size mem args fmt.length ↔
      endsInDirective fmt = false ∧ ¬ (printMode .text fmt).RunsOver ∧
        DoublesFit args .start fmt := by
  have isXvsnprintf := @xvsnprintf_within_iff size _ args .start _ stored
  rw [show FormatScan.start.p = 0 from rfl, Nat.zero_add] at isXvsnprintf
  constructor
  · intro safe
    exact ⟨isXvsnprintf.mp safe.xvsnprintf, (vprintf_within_iff stored).mp safe.vprintf⟩
  · rintro ⟨notDirective, prints⟩
    have within := isXvsnprintf.mpr notDirective
    obtain ⟨final, isFinal, -⟩ := within.halts
    have fits := xvsnprintf_fits positive isFinal
    refine ⟨(vprintf_within_iff stored).mpr prints, within, final, isFinal, fits.finish_inside, ?_⟩
    rw [Sink.finish, List.map_append, fits.places, List.range_succ]
    rfl

def formatBytes (fmt : CString) (i : Nat) : UInt8 := (bytes fmt).getD i 0

def zeroArg : VaArg :=
  ⟨0, [], fun _ => [], ⟨false, 0, fun _ => code '0'⟩⟩

def fixedPoint : CString := [ascii '%', ascii '5', ascii '.', ascii '2', ascii 'f', ascii ' ']

def widthAtEnd : CString := [ascii '%', ascii '5', ascii 'd']

/-- More digits than `printdouble` has room for. -/
def manyDigits : CString :=
  [ascii '%', ascii '.', ascii '9', ascii '9', ascii 'f', ascii ' ']

theorem fixedPoint_scansSafely : ScansSafely 0 16 (formatBytes fixedPoint) (fun _ => zeroArg) 6 :=
  (scansSafely_iff 0 16 (by decide) fixedPoint (formatBytes fixedPoint)
    ⟨rfl, rfl, rfl, rfl, rfl, rfl, rfl⟩ (fun _ => zeroArg)).mpr
    ⟨by decide, by decide, by decide⟩

/-- `xvsnprintf` takes the terminator behind a `%` for the conversion and goes
on behind it; `vprintf` looks behind the terminator of `%5d`, and for `%.99f` it
overruns the buffer of `printdouble`. -/
theorem formats_read_behind_terminator :
    ¬ StaysWithin (xvsnprintfStep 16 (formatBytes [ascii '%'])
        (fun _ => zeroArg)) FormatScan.reads 1 .start ∧
      ¬ StaysWithin (vprintfStep 0 (formatBytes widthAtEnd)
        (fun _ => zeroArg)) (PrintScan.reads (formatBytes widthAtEnd)) 3
        .start ∧
      ¬ StaysWithin (vprintfStep 0 (formatBytes manyDigits)
        (fun _ => zeroArg)) (PrintScan.reads (formatBytes manyDigits)) 6
        .start := by
  have percent : StoredAt (formatBytes [ascii '%']) 0 [ascii '%'] := ⟨rfl, rfl⟩
  have width : StoredAt (formatBytes widthAtEnd) 0 widthAtEnd := ⟨rfl, rfl, rfl, rfl⟩
  have digits : StoredAt (formatBytes manyDigits) 0 manyDigits :=
    ⟨rfl, rfl, rfl, rfl, rfl, rfl, rfl⟩
  refine ⟨?_, ?_, ?_⟩
  · intro within
    exact absurd ((@xvsnprintf_within_iff _ _ _ .start _ percent).mp within) (by decide)
  · intro within
    exact absurd ((vprintf_within_iff width).mp within).1 (by decide)
  · intro within
    exact absurd ((vprintf_within_iff digits).mp within).2 (by decide)

end LlmRuntime.Stdlib
