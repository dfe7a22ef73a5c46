import LlmRuntime.Library.MachineInt
import LlmRuntime.Library.Scanner
import LlmRuntime.Stdlib.Strings

/-!
# The cursor of `xvsnprintf`

The format is memory here, and the loop a machine that reads one byte of it at a
time.  On the formats that do not end within a directive it writes what the
`xvsnprintf` on lists gives.
-/

namespace LlmRuntime.Stdlib

open MachineInt Scanner StateTransition

/-- The bytes of a string from place `i` on, and its terminator. -/
def StoredAt (mem : Nat → UInt8) : Nat → CString → Prop
  | i, [] => mem i = 0
  | i, c :: s => mem i = c.val ∧ StoredAt mem (i + 1) s

def bytes (s : CString) : List UInt8 := s.map Subtype.val

def code (c : Char) : UInt8 := (ascii c).val

def isDigitCode (c : UInt8) : Bool := 48 ≤ c.toNat && c.toNat ≤ 57

/-- A `double` as `printdouble` takes it apart: `(long long)d` of its magnitude
and the bytes that the loop over the fraction makes. -/
structure Double where
  negative : Bool
  intpart : UInt64
  fraction : Nat → UInt8

/-- What `va_arg` finds at one place: the word, the string behind it if it is a
pointer, and the number if it is a `double`, with the text that `ftoa` leaves in
its buffer (it asks for room before each byte). -/
structure VaArg where
  word : UInt64
  str : CString
  ftoa : Int → List UInt8
  double : Double

def VaArg.int (arg : VaArg) : Int := int32 arg.word.toNat

def VaArg.uint (arg : VaArg) : Nat := arg.word.toNat % 2 ^ 32

def VaArg.string (arg : VaArg) : CString :=
  if arg.word = 0 then literal "(null)" else arg.str

/-- The bytes a conversion has to write, and whether it takes an argument. -/
def conversionText (precision : Int) (spec : UInt8) (arg : VaArg) : List UInt8 × Bool :=
  if spec = code '%' then ([code '%'], false)
  else if spec = code 'd' then
    ((if arg.int < 0 then [code '-'] else []) ++ bytes (utoaDec arg.int.natAbs), true)
  else if spec = code 's' then (bytes arg.string, true)
  else if spec = code 'c' then ([arg.word.toUInt8], true)
  else if spec = code 'f' then (arg.ftoa (if 0 ≤ precision then precision else 6), true)
  else if spec = code 'x' ∨ spec = code 'X' then (bytes (utoaHex (spec = code 'X') arg.uint), true)
  else ([code '%', spec], false)

/-- `outpos`, and the writes to `out` with their places. -/
structure Sink where
  outpos : Nat
  writes : List (Nat × UInt8)

/-- Write a byte if one is left for the terminator. -/
def Sink.put (size : Nat) (sink : Sink) (c : UInt8) : Sink :=
  if sink.outpos + 1 < size then
    { outpos := sink.outpos + 1
      writes := sink.writes ++ [(sink.outpos, c)] }
  else sink

def Sink.puts (size : Nat) (sink : Sink) (text : List UInt8) : Sink :=
  text.foldl (Sink.put size) sink

/-- The writes together with the terminator at the end of the function. -/
def Sink.finish (sink : Sink) : List (Nat × UInt8) := sink.writes ++ [(sink.outpos, 0)]

/-- The bytes stand one behind the other, with room for the terminator. -/
structure Sink.Fits (size : Nat) (sink : Sink) : Prop where
  room : sink.outpos < size
  places : sink.writes.map Prod.fst = List.range sink.outpos

theorem Sink.Fits.put {size : Nat} {sink : Sink} (fits : sink.Fits size)
    (c : UInt8) : (sink.put size c).Fits size := by
  rw [Sink.put]
  split_ifs with room
  · refine ⟨room, ?_⟩
    rw [List.map_append, fits.places, List.range_succ]
    rfl
  · exact fits

theorem Sink.Fits.puts {size : Nat} {sink : Sink} (fits : sink.Fits size)
    (text : List UInt8) : (sink.puts size text).Fits size := by
  induction text generalizing sink with
  | nil => exact fits
  | cons c text ih => exact ih (fits.put c)

theorem Sink.Fits.finish_inside {size : Nat} {sink : Sink}
    (fits : sink.Fits size) : ∀ write ∈ sink.finish, write.1 < size := by
  have room := fits.room
  intro write isWrite
  rcases List.mem_append.mp isWrite with before | isLast
  · have isPlace : write.1 ∈ sink.writes.map Prod.fst := List.mem_map_of_mem before
    rw [fits.places, List.mem_range] at isPlace
    omega
  · rw [List.mem_singleton.mp isLast]
    exact room

structure FormatScan where
  mode : FormatMode
  p : Nat
  arg : Nat
  sink : Sink

def FormatScan.start : FormatScan :=
  ⟨.text, 0, 0, ⟨0, []⟩⟩

/-- Every turn looks at the byte under the cursor. -/
def FormatScan.reads (scan : FormatScan) : List Nat := [scan.p]

/-- The byte under the cursor ends a directive. -/
def FormatScan.convert (size : Nat) (args : Nat → VaArg) (precision : Int) (spec : UInt8)
    (scan : FormatScan) : FormatScan :=
  let (text, takes) := conversionText precision spec (args scan.arg)
  { mode := .text
    p := scan.p + 1
    arg := scan.arg + takes.toNat
    sink := scan.sink.puts size text }

/-- One byte of the format in `xvsnprintf`; it halts at the terminator if that
stands outside of a directive. -/
def xvsnprintfStep (size : Nat) (mem : Nat → UInt8) (args : Nat → VaArg)
    (scan : FormatScan) : Option FormatScan :=
  let c := mem scan.p
  match scan.mode with
  | .text =>
    if c = 0 then none
    else if c = code '%' then some { scan with mode := .directive, p := scan.p + 1 }
    else some { scan with p := scan.p + 1, sink := scan.sink.put size c }
  | .directive =>
    if c = code '.' then some { scan with mode := .precision 0, p := scan.p + 1 }
    else some (scan.convert size args (-1) c)
  | .precision v =>
    if isDigitCode c then
      some { scan with
        mode := .precision (v * 10 + (c.toNat - 48))
        p := scan.p + 1 }
    else some (scan.convert size args (int32 v) c)

def nextMode : FormatMode → UInt8 → FormatMode
  | .text, c => if c = code '%' then .directive else .text
  | .directive, c => if c = code '.' then .precision 0 else .text
  | .precision v, c => if isDigitCode c then .precision (v * 10 + (c.toNat - 48)) else .text

def inDirective : FormatMode → Bool
  | .text => false
  | .directive => true
  | .precision _ => true

/-- The format ends within a directive, before its conversion. -/
def endsInDirective (fmt : CString) : Bool := inDirective ((bytes fmt).foldl nextMode .text)

section Runs

variable {size : Nat} {mem : Nat → UInt8} {args : Nat → VaArg}

theorem xvsnprintfStep_text_halts {scan : FormatScan} (isText : scan.mode = .text)
    (ends : mem scan.p = 0) : xvsnprintfStep size mem args scan = none := by
  rw [xvsnprintfStep.eq_def, isText]
  dsimp only
  rw [if_pos ends]

theorem xvsnprintfStep_next {scan : FormatScan}
    (goesOn : inDirective scan.mode = true ∨ mem scan.p ≠ 0) :
    ∃ next, xvsnprintfStep size mem args scan = some next ∧
      next.p = scan.p + 1 ∧ next.mode = nextMode scan.mode (mem scan.p) := by
  obtain ⟨mode, p, arg, sink⟩ := scan
  cases mode with
  | text =>
    have notEnd : mem p ≠ 0 := goesOn.resolve_left Bool.false_ne_true
    rw [xvsnprintfStep, nextMode]
    dsimp only
    rw [if_neg notEnd]
    split_ifs <;> exact ⟨_, rfl, rfl, rfl⟩
  | directive | precision =>
    rw [xvsnprintfStep, nextMode]
    dsimp only
    split_ifs <;> exact ⟨_, rfl, rfl, rfl⟩

theorem xvsnprintf_within_iff
    {scan : FormatScan} {rest : CString} (stored : StoredAt mem scan.p rest) :
    StaysWithin (xvsnprintfStep size mem args) FormatScan.reads
        (scan.p + rest.length) scan ↔
      inDirective ((bytes rest).foldl nextMode scan.mode) = false := by
  induction rest generalizing scan with
  | nil =>
    rw [List.length_nil, Nat.add_zero, bytes, List.map_nil, List.foldl_nil]
    cases isDirective : inDirective scan.mode with
    | false =>
      have isText : scan.mode = .text := by
        cases isMode : scan.mode with
        | text => rfl
        | directive | precision =>
          rw [isMode] at isDirective
          cases isDirective
      rw [staysWithin_halt (xvsnprintfStep_text_halts isText stored)]
      exact iff_of_true rfl rfl
    | true =>
      obtain ⟨next, isNext, behind, -⟩ := @xvsnprintfStep_next size _ args _ (Or.inl isDirective)
      rw [staysWithin_step isNext]
      refine iff_of_false ?_ Bool.true_eq_false.mp
      rintro ⟨-, inside, -⟩
      have isInside := inside next .refl next.p (List.mem_singleton_self _)
      omega
  | cons c rest ih =>
    obtain ⟨here, stored⟩ := stored
    have notEnd : mem scan.p ≠ 0 := by
      rw [here]
      exact c.property
    obtain ⟨next, isNext, behind, isMode⟩ := @xvsnprintfStep_next size _ args _ (Or.inr notEnd)
    rw [← behind] at stored
    rw [staysWithin_step isNext, List.length_cons, Nat.add_comm _ 1,
      ← Nat.add_assoc, ← behind, ih stored, isMode, here]
    refine and_iff_right ?_
    intro i isRead
    rw [List.mem_singleton.mp isRead]
    omega

theorem xvsnprintfStep_fits {scan next : FormatScan}
    (isNext : xvsnprintfStep size mem args scan = some next)
    (fits : scan.sink.Fits size) : next.sink.Fits size := by
  obtain ⟨mode, p, arg, sink⟩ := scan
  cases mode with
  | text =>
    rw [xvsnprintfStep] at isNext
    dsimp only at isNext
    split_ifs at isNext
    · rw [← Option.some.inj isNext]
      exact fits
    · rw [← Option.some.inj isNext]
      exact fits.put _
  | directive | precision =>
    rw [xvsnprintfStep] at isNext
    dsimp only at isNext
    split_ifs at isNext
    · rw [← Option.some.inj isNext]
      exact fits
    · rw [← Option.some.inj isNext]
      exact fits.puts _

/-- Whatever the format is, `xvsnprintf` writes inside its buffer. -/
theorem xvsnprintf_fits (positive : 1 ≤ size) {final : FormatScan}
    (isFinal : final ∈ eval (xvsnprintfStep size mem args) .start) :
    final.sink.Fits size :=
  eval_invariant (fun _ _ isNext fits => xvsnprintfStep_fits isNext fits) ⟨positive, rfl⟩ isFinal

/-- The precision of a directive as `xvsnprintf` keeps it. -/
def precisionValue : Option Nat → Int
  | none => -1
  | some v => int32 v

def VaArg.Holds (arg : VaArg) : FormatArg → Prop
  | .str none => arg.word = 0
  | .str (some s) => arg.word ≠ 0 ∧ arg.str = s
  | .int v => arg.int = v
  | .uint v => arg.uint = v
  | .char c => arg.word.toUInt8 = c.val
  | .double ftoa => ∀ precision : Option Nat,
      arg.ftoa (if 0 ≤ precisionValue precision then precisionValue precision
        else 6) = bytes (ftoa (precision.getD 6))

def Holding (args : Nat → VaArg) : Nat → List FormatArg → Prop
  | _, [] => True
  | i, arg :: rest => (args i).Holds arg ∧ Holding args (i + 1) rest

theorem val_eq_code_iff (c : Byte) (letter : Char) : c.val = code letter ↔ c = ascii letter :=
  Subtype.ext_iff.symm

theorem VaArg.Holds.string_eq {arg : VaArg} {s : Option CString}
    (holds : arg.Holds (.str s)) : arg.string = s.getD (literal "(null)") := by
  cases s with
  | none => exact if_pos holds
  | some s => rw [VaArg.string, if_neg holds.1, holds.2, Option.getD_some]

theorem conversionText_of_render {precision : Option Nat} {spec : Byte}
    {listed rest : List FormatArg} {s : CString} {i : Nat} (holding : Holding args i listed)
    (isRendered : render precision spec listed = some (s, rest)) :
    ∃ takes, conversionText (precisionValue precision) spec.val (args i) =
        (bytes s, takes) ∧ Holding args (i + takes.toNat) rest := by
  unfold render at isRendered
  unfold conversionText
  simp only [val_eq_code_iff]
  split_ifs at isRendered with isPercent isInt isStr isChar isDouble isHex
  · cases isRendered
    rw [if_pos isPercent]
    exact ⟨false, rfl, holding⟩
  · rw [if_neg isPercent, if_pos isInt]
    split at isRendered
    · cases isRendered
      obtain ⟨isValue, holding⟩ := holding
      refine ⟨true, ?_, holding⟩
      rw [show (args i).int = _ from isValue, bytes, bytes, List.map_append]
      split_ifs <;> rfl
    · cases isRendered
  · rw [if_neg isPercent, if_neg isInt, if_pos isStr]
    split at isRendered
    · cases isRendered
      obtain ⟨isString, holding⟩ := holding
      exact ⟨true, by rw [isString.string_eq], holding⟩
    · cases isRendered
  · rw [if_neg isPercent, if_neg isInt, if_neg isStr, if_pos isChar]
    split at isRendered
    · cases isRendered
      obtain ⟨isChar, holding⟩ := holding
      exact ⟨true, by rw [show (args i).word.toUInt8 = _ from isChar]; rfl, holding⟩
    · cases isRendered
  · rw [if_neg isPercent, if_neg isInt, if_neg isStr, if_neg isChar, if_pos isDouble]
    split at isRendered
    · cases isRendered
      obtain ⟨isText, holding⟩ := holding
      exact ⟨true, by rw [isText precision], holding⟩
    · cases isRendered
  · rw [if_neg isPercent, if_neg isInt, if_neg isStr, if_neg isChar, if_neg isDouble, if_pos isHex]
    split at isRendered
    · cases isRendered
      obtain ⟨isValue, holding⟩ := holding
      exact ⟨true, by rw [show (args i).uint = _ from isValue], holding⟩
    · cases isRendered
  · cases isRendered
    rw [if_neg isPercent, if_neg isInt, if_neg isStr, if_neg isChar, if_neg isDouble, if_neg isHex]
    exact ⟨false, rfl, holding⟩

/-- The output so far, as the text that it is. -/
structure Sink.Text (sink : Sink) (out : CString) : Prop where
  outpos : sink.outpos = out.length
  written : sink.writes.map Prod.snd = bytes out

theorem Sink.Text.puts {sink : Sink} {out : CString} (text : sink.Text out)
    (s : CString) : (sink.puts size (bytes s)).Text (emit size out s) := by
  induction s generalizing sink out with
  | nil =>
    rw [emit, List.take_nil, List.append_nil]
    exact text
  | cons c s ih =>
    have one : (sink.put size c.val).Text (emit size out [c]) := by
      rw [Sink.put, emit, text.outpos]
      split_ifs with room
      · rw [List.take_of_length_le (by rw [List.length_singleton]; omega)]
        refine ⟨by rw [List.length_append, List.length_singleton], ?_⟩
        rw [List.map_append, text.written, bytes, bytes, List.map_append]
        rfl
      · rw [show size - 1 - out.length = 0 by omega, List.take_zero, List.append_nil]
        exact text
    have both := ih one
    rw [emit_emit] at both
    exact both

def Writes (size : Nat) (mem : Nat → UInt8) (args : Nat → VaArg)
    (scan : FormatScan) (written : CString) : Prop :=
  ∃ final ∈ eval (xvsnprintfStep size mem args) scan, final.sink.Text written

theorem Writes.step {scan next : FormatScan} {written : CString}
    (behind : Writes size mem args next written)
    (isNext : xvsnprintfStep size mem args scan = some next) :
    Writes size mem args scan written := by
  rw [Writes, reaches_eval (Relation.ReflTransGen.single isNext)]
  exact behind

/-- The run of the machine along the loop on lists. -/
theorem writes_of_formatLoop {mode : FormatMode} {rest : CString} {listed : List FormatArg}
    {out written : CString} {p arg : Nat} {sink : Sink}
    (isWritten : formatLoop size mode rest listed out = some written) (stored : StoredAt mem p rest)
    (holding : Holding args arg listed) (text : sink.Text out) :
    Writes size mem args ⟨mode, p, arg, sink⟩ written := by
  fun_induction formatLoop size mode rest listed out generalizing p arg sink with
  | case1 listed out =>
    rw [← Option.some.inj isWritten]
    exact ⟨_, mem_eval.mpr ⟨.refl, xvsnprintfStep_text_halts rfl stored⟩, text⟩
  | case2 rest listed out ih =>
    refine (ih isWritten stored.2 holding text).step ?_
    rw [xvsnprintfStep]
    dsimp only
    rw [stored.1, if_neg (ascii '%').property, code, if_pos rfl]
  | case3 c rest listed out isText ih =>
    refine (ih isWritten stored.2 holding (text.puts [c])).step ?_
    rw [xvsnprintfStep]
    dsimp only
    rw [stored.1, if_neg c.property, if_neg (mt (val_eq_code_iff c _).mp isText)]
    rfl
  | case4 listed out => cases isWritten
  | case5 rest listed out ih =>
    refine (ih isWritten stored.2 holding text).step ?_
    rw [xvsnprintfStep]
    dsimp only
    rw [stored.1, code, if_pos rfl]
  | case6 c rest listed out noPoint notRendered => cases isWritten
  | case7 c rest listed out noPoint s left isRendered ih =>
    obtain ⟨takes, isText, holding⟩ := conversionText_of_render holding isRendered
    refine (ih isWritten stored.2 holding (text.puts s)).step ?_
    rw [xvsnprintfStep]
    dsimp only
    rw [stored.1, if_neg (mt (val_eq_code_iff c _).mp noPoint),
      FormatScan.convert, ← precisionValue, isText]
  | case8 v listed out => cases isWritten
  | case9 v c rest listed out moreDigits ih =>
    refine (ih isWritten stored.2 holding text).step ?_
    rw [xvsnprintfStep]
    dsimp only
    rw [stored.1, if_pos (show isDigitCode c.val from moreDigits)]
    rfl
  | case10 v c rest listed out noDigit notRendered => cases isWritten
  | case11 v c rest listed out noDigit s left isRendered ih =>
    obtain ⟨takes, isText, holding⟩ := conversionText_of_render holding isRendered
    refine (ih isWritten stored.2 holding (text.puts s)).step ?_
    rw [xvsnprintfStep]
    dsimp only
    rw [stored.1, if_neg (show ¬ isDigitCode c.val from noDigit),
      FormatScan.convert, ← precisionValue, isText]

/-- What the function on lists returns is what the machine writes. -/
theorem xvsnprintf_writes {fmt written : CString} {listed : List FormatArg} (positive : 1 ≤ size)
    (stored : StoredAt mem 0 fmt) (holding : Holding args 0 listed)
    (isWritten : xvsnprintf size fmt listed = some written) :
    Writes size mem args .start written := by
  rw [xvsnprintf, if_neg (by omega)] at isWritten
  exact writes_of_formatLoop isWritten stored holding ⟨rfl, rfl⟩

theorem xvsnprintf_writes_name :
    Writes 8 (fun k => [37, 115].getD k 0)
      (fun _ => ⟨1, literal "a", fun _ => [], ⟨false, 0, fun _ => code '0'⟩⟩)
      .start (literal "a") :=
  @xvsnprintf_writes _ _ _ (literal "%s") _ [.str (literal "a")] (by decide) ⟨rfl, rfl, rfl⟩
    ⟨⟨by decide, rfl⟩, trivial⟩ (by decide +kernel)

end Runs

end LlmRuntime.Stdlib
