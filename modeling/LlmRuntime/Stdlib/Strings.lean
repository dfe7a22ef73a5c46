import LlmRuntime.Stdlib.Bsearch

/-!
# The string functions of the user library

A C string is the list of the bytes before its terminator, so none of them is
zero.
-/

namespace LlmRuntime.Stdlib

/-- A byte that does not end a string. -/
abbrev Byte := { b : UInt8 // b ≠ 0 }

abbrev CString := List Byte

theorem one_ne_nul : (1 : UInt8) ≠ 0 := by
  decide

def byte (n : UInt8) : Byte :=
  if isNul : n = 0 then ⟨1, one_ne_nul⟩ else ⟨n, isNul⟩

def ascii (c : Char) : Byte := byte c.toNat.toUInt8

def literal (s : String) : CString := s.toList.map ascii

def Byte.toNat (b : Byte) : Nat := b.val.toNat

theorem Byte.toNat_pos (b : Byte) : 0 < b.toNat := by
  rw [Byte.toNat, Nat.pos_iff_ne_zero]
  intro isZero
  exact b.property (UInt8.toNat_inj.mp isZero)

theorem Byte.toNat_lt (b : Byte) : b.toNat < 256 := b.val.toNat_lt

theorem Byte.toNat_inj {b c : Byte} (same : b.toNat = c.toNat) : b = c :=
  Subtype.ext (UInt8.toNat_inj.mp same)

/-- The difference at the first place where the strings differ; the terminator
counts as zero. -/
def strcmp : CString → CString → Int
  | [], [] => 0
  | [], d :: _ => -(d.toNat : Int)
  | c :: _, [] => c.toNat
  | c :: p, d :: q => if c = d then strcmp p q else (c.toNat : Int) - d.toNat

theorem strcmp_swap (p q : CString) : strcmp q p = -strcmp p q := by
  induction p generalizing q with
  | nil =>
    cases q with
    | nil => rfl
    | cons d q => rw [strcmp, strcmp, neg_neg]
  | cons c p ih =>
    cases q with
    | nil => rw [strcmp, strcmp]
    | cons d q =>
      rw [strcmp, strcmp]
      by_cases sameByte : c = d
      · rw [if_pos sameByte, if_pos sameByte.symm, ih]
      · rw [if_neg sameByte, if_neg (Ne.symm sameByte), neg_sub]

theorem strcmp_eq_zero_iff (p q : CString) : strcmp p q = 0 ↔ p = q := by
  induction p generalizing q with
  | nil =>
    cases q with
    | nil => exact iff_of_true rfl rfl
    | cons d q =>
      have isPositive := d.toNat_pos
      rw [strcmp]
      exact iff_of_false (by omega) (List.cons_ne_nil d q).symm
  | cons c p ih =>
    cases q with
    | nil =>
      have isPositive := c.toNat_pos
      rw [strcmp]
      exact iff_of_false (by omega) (List.cons_ne_nil c p)
    | cons d q =>
      rw [strcmp]
      by_cases sameByte : c = d
      · rw [if_pos sameByte, ih, sameByte, List.cons_inj_right]
      · rw [if_neg sameByte]
        refine iff_of_false ?_ ?_
        · intro isZero
          exact sameByte (Byte.toNat_inj (by omega))
        · intro same
          exact sameByte (List.cons.inj same).1

theorem strcmp_transitive (p q r : CString) (first : strcmp p q ≤ 0) (second : strcmp q r ≤ 0) :
    strcmp p r ≤ 0 := by
  induction p generalizing q r with
  | nil =>
    cases r with
    | nil => exact le_refl 0
    | cons e r =>
      rw [strcmp]
      omega
  | cons c p ih =>
    have cPositive := c.toNat_pos
    cases q with
    | nil =>
      rw [strcmp] at first
      omega
    | cons d q =>
      have dPositive := d.toNat_pos
      cases r with
      | nil =>
        rw [strcmp] at second
        omega
      | cons e r =>
        rw [strcmp] at first second ⊢
        by_cases sameFirst : c = d
        · rw [if_pos sameFirst] at first
          by_cases sameSecond : d = e
          · rw [if_pos sameSecond] at second
            rw [if_pos (sameFirst.trans sameSecond)]
            exact ih q r first second
          · rw [if_neg sameSecond] at second
            rw [sameFirst, if_neg sameSecond]
            exact second
        · rw [if_neg sameFirst] at first
          have isBelow : c.toNat < d.toNat := by
            have different : c.toNat ≠ d.toNat := fun same => sameFirst (Byte.toNat_inj same)
            omega
          have notAbove : d.toNat ≤ e.toNat := by
            by_cases sameSecond : d = e
            · rw [sameSecond]
            · rw [if_neg sameSecond] at second
              omega
          have different : c ≠ e := by
            rintro rfl
            omega
          rw [if_neg different]
          omega

/-- The digit `d` of `utoa_dec` and `utoa_hex`. -/
def digit (uppercase : Bool) (d : Nat) : Byte :=
  if d < 10 then byte (48 + d).toUInt8
  else byte ((if uppercase then 65 else 97) + (d - 10)).toUInt8

/-- The digits of a number, highest first. -/
def utoa (base : Nat) (uppercase : Bool) (val : Nat) : CString :=
  if val = 0 then [ascii '0']
  else (Nat.digits base val).reverse.map (digit uppercase)

def utoaDec (val : Nat) : CString := utoa 10 false val

def utoaHex (uppercase : Bool) (val : Nat) : CString := utoa 16 uppercase val

/-- An argument of `xvsnprintf`: a pointer to a string, which may be null, a
number, a character, or a `double`, as the text `ftoa` gives for each
precision. -/
inductive FormatArg where
  | str (s : Option CString)
  | int (v : Int)
  | uint (v : Nat)
  | char (c : Byte)
  | double (ftoa : Nat → CString)

/-- Where `xvsnprintf` stands in its format. -/
inductive FormatMode where
  | text
  | directive
  | precision (v : Nat)

def isDigit (c : Byte) : Bool := 48 ≤ c.toNat && c.toNat ≤ 57

/-- What a conversion writes, and the arguments it leaves; `none` if the next
argument is not of its kind. -/
def render (precision : Option Nat) (spec : Byte) (args : List FormatArg) :
    Option (CString × List FormatArg) :=
  if spec = ascii '%' then some ([ascii '%'], args)
  else if spec = ascii 'd' then
    match args with
    | .int v :: rest => some ((if v < 0 then [ascii '-'] else []) ++ utoaDec v.natAbs, rest)
    | _ => none
  else if spec = ascii 's' then
    match args with
    | .str s :: rest => some (s.getD (literal "(null)"), rest)
    | _ => none
  else if spec = ascii 'c' then
    match args with
    | .char c :: rest => some ([c], rest)
    | _ => none
  else if spec = ascii 'f' then
    match args with
    | .double ftoa :: rest => some (ftoa (precision.getD 6), rest)
    | _ => none
  else if spec = ascii 'x' ∨ spec = ascii 'X' then
    match args with
    | .uint v :: rest => some (utoaHex (spec = ascii 'X') v, rest)
    | _ => none
  else some ([ascii '%', spec], args)

/-- Write as long as a byte is left for the terminator. -/
def emit (size : Nat) (out s : CString) : CString := out ++ s.take (size - 1 - out.length)

/-- The loop of `xvsnprintf`.  A format that ends within a directive is read
behind its terminator. -/
def formatLoop (size : Nat) :
    FormatMode → CString → List FormatArg → CString → Option CString
  | .text, [], _, out => some out
  | .text, c :: p, args, out =>
    if c = ascii '%' then formatLoop size .directive p args out
    else formatLoop size .text p args (emit size out [c])
  | .directive, [], _, _ => none
  | .directive, c :: p, args, out =>
    if c = ascii '.' then formatLoop size (.precision 0) p args out
    else
      match render none c args with
      | none => none
      | some (s, rest) => formatLoop size .text p rest (emit size out s)
  | .precision _, [], _, _ => none
  | .precision v, c :: p, args, out =>
    if isDigit c then formatLoop size (.precision (v * 10 + (c.toNat - 48))) p args out
    else
      match render (some v) c args with
      | none => none
      | some (s, rest) => formatLoop size .text p rest (emit size out s)

def xvsnprintf (size : Nat) (fmt : CString) (args : List FormatArg) : Option CString :=
  if size = 0 then some [] else formatLoop size .text fmt args []

def xsprintf (fmt : CString) (args : List FormatArg) : Option CString := xvsnprintf 1024 fmt args

theorem emit_emit (size : Nat) (out s t : CString) :
    emit size (emit size out s) t = emit size out (s ++ t) := by
  simp only [emit, List.length_append, List.length_take, List.append_assoc, List.take_append]
  congr 3
  omega

/-- Two strings one behind the other, cut where the size ends. -/
theorem xsprintf_twoStrings (p q : CString) :
    xsprintf (literal "%s%s") [.str (some p), .str (some q)] = some ((p ++ q).take 1023) := by
  have isFormat : literal "%s%s" = [ascii '%', ascii 's', ascii '%', ascii 's'] := by decide
  have isString : ∀ s rest, render none (ascii 's') (.str (some s) :: rest) = some (s, rest) := by
    intro s rest
    rw [render, if_neg (by decide), if_neg (by decide), if_pos rfl]
    rfl
  have noPoint : ascii 's' ≠ ascii '.' := by decide
  rw [xsprintf, xvsnprintf, if_neg (by decide), isFormat]
  simp only [formatLoop, isString, if_neg noPoint, if_true, emit_emit]
  rw [emit, List.nil_append, List.length_nil]

/-- What `xsscanf` stores: a number, the digits of a `double` around its point,
a string, or a character. -/
inductive Scanned where
  | int (v : Int)
  | double (negative : Bool) (whole fraction : CString)
  | str (s : CString)
  | char (c : UInt8)
  | uint (v : Nat)

def xisspace (c : Byte) : Bool :=
  c.toNat = 32 || c.toNat = 12 || c.toNat = 10 || c.toNat = 13 || c.toNat = 9 || c.toNat = 11

def hexDigit? (c : Byte) : Option Nat :=
  if isDigit c then some (c.toNat - 48)
  else if 97 ≤ c.toNat ∧ c.toNat ≤ 102 then some (10 + (c.toNat - 97))
  else if 65 ≤ c.toNat ∧ c.toNat ≤ 70 then some (10 + (c.toNat - 65))
  else none

def scanSign (ps : CString) : Bool × CString :=
  match ps with
  | c :: rest => if c = ascii '-' then (true, rest) else (false, ps)
  | [] => (false, [])

/-- One conversion on the input, and the input behind it; `none` if it does not
match. -/
def conversion (spec : Byte) (ps : CString) : Option (Scanned × CString) :=
  if spec = ascii 'd' then
    let (negative, unsigned) := scanSign ps
    let digits := unsigned.takeWhile isDigit
    if digits = [] then none
    else
      let val : Nat := digits.foldl (fun val c => val * 10 + (c.toNat - 48)) 0
      some (.int (if negative then -(val : Int) else val), unsigned.dropWhile isDigit)
  else if spec = ascii 'f' then
    let (negative, unsigned) := scanSign ps
    let whole := unsigned.takeWhile isDigit
    if whole = [] then none
    else
      match unsigned.dropWhile isDigit with
      | [] => some (.double negative whole [], [])
      | c :: rest =>
        if c = ascii '.' then
          some (.double negative whole (rest.takeWhile isDigit), rest.dropWhile isDigit)
        else some (.double negative whole [], c :: rest)
  else if spec = ascii 's' then
    some (.str (ps.takeWhile fun c => !xisspace c), ps.dropWhile fun c => !xisspace c)
  else if spec = ascii 'c' then
    match ps with
    | [] => some (.char 0, [])
    | c :: rest => some (.char c.val, rest)
  else if spec = ascii 'x' ∨ spec = ascii 'X' then
    let digits := ps.takeWhile fun c => (hexDigit? c).isSome
    if digits = [] then none
    else
      let val := (digits.filterMap hexDigit?).foldl (fun val d => (val * 16 + d) % 2 ^ 32) 0
      some (.uint val, ps.dropWhile fun c => (hexDigit? c).isSome)
  else none

/-- The length modifier, looked for before the width. -/
def skipModifier : CString → CString
  | [] => []
  | [c] => if c = ascii 'h' then [] else [c]
  | c :: d :: rest =>
    if c = ascii 'h' then if d = ascii 'h' then rest else d :: rest
    else c :: d :: rest

theorem length_skipModifier_le (pf : CString) : (skipModifier pf).length ≤ pf.length := by
  fun_cases skipModifier pf
  all_goals simp only [List.length_cons, List.length_nil]
  all_goals omega

theorem skipModifier_of_ne {c : Byte} (notModifier : c ≠ ascii 'h') (rest : CString) :
    skipModifier (c :: rest) = c :: rest := by
  cases rest with
  | nil | cons => rw [skipModifier, if_neg notModifier]

theorem length_behindSpec_lt {spec : Byte} {pf behind : CString}
    (isSpec : (skipModifier pf).dropWhile isDigit = spec :: behind) :
    behind.length < pf.length := by
  have notLonger := List.length_dropWhile_le isDigit (skipModifier pf)
  have alsoNotLonger := length_skipModifier_le pf
  rw [isSpec, List.length_cons] at notLonger
  omega

/-- The loop of `xsscanf`: the values stored so far. -/
def scanLoop (pf ps : CString) (assigned : List Scanned) : List Scanned :=
  match pf with
  | [] => assigned
  | c :: pf' =>
    if c = ascii '%' then
      match _isSpec : (skipModifier pf').dropWhile isDigit with
      | [] => assigned
      | spec :: behind =>
        match conversion spec (ps.dropWhile xisspace) with
        | none => assigned
        | some (value, rest) =>
          scanLoop (behind.dropWhile (· = ascii ' ')) rest (assigned ++ [value])
    else
      match ps with
      | [] => assigned
      | d :: ps' =>
        if c = d then scanLoop (pf'.dropWhile (· = ascii ' ')) ps' assigned
        else assigned
termination_by pf.length
decreasing_by
  · have isBehind := length_behindSpec_lt _isSpec
    have notLonger := List.length_dropWhile_le (fun c => decide (c = ascii ' ')) behind
    simp only [List.length_cons]
    omega
  · have notLonger := List.length_dropWhile_le (fun c => decide (c = ascii ' ')) pf'
    simp only [List.length_cons]
    omega

/-- The values that `xsscanf` stores; it returns how many they are. -/
def xsscanf (s fmt : CString) : List Scanned := scanLoop fmt s []

/-- A length modifier behind the width is not skipped: it is taken for the
conversion, which there is not. -/
theorem scanLoop_modifier_behind_width (width behind ps : CString) (assigned : List Scanned)
    (isWidth : ∀ c ∈ width, isDigit c) (notEmpty : width ≠ []) :
    scanLoop (ascii '%' :: (width ++ ascii 'h' :: behind)) ps assigned = assigned := by
  have notSkipped : skipModifier (width ++ ascii 'h' :: behind) = width ++ ascii 'h' :: behind := by
    cases width with
    | nil => exact absurd rfl notEmpty
    | cons c rest =>
      have notModifier : c ≠ ascii 'h' := by
        rintro rfl
        exact absurd (isWidth _ List.mem_cons_self) (by decide)
      rw [List.cons_append, skipModifier_of_ne notModifier]
  have isSpec : (width ++ ascii 'h' :: behind).dropWhile isDigit = ascii 'h' :: behind := by
    rw [List.dropWhile_append_of_pos isWidth, List.dropWhile_cons_of_neg (by decide)]
  have noConversion : ∀ ps, conversion (ascii 'h') ps = none := by
    intro ps
    rw [conversion.eq_def, if_neg (by decide), if_neg (by decide),
      if_neg (by decide), if_neg (by decide), if_neg (by decide)]
  rw [scanLoop.eq_def]
  dsimp only
  rw [if_pos rfl]
  split
  · rfl
  · rename_i spec rest isFound
    rw [notSkipped, isSpec] at isFound
    rw [← (List.cons.inj isFound).1, noConversion]

theorem scanLoop_literal {c : Byte} {pf : CString} (isLiteral : c ≠ ascii '%')
    (noSpace : pf.head? ≠ some (ascii ' '))
    (ends : ∀ ps assigned, scanLoop pf ps assigned = assigned) (ps : CString)
    (assigned : List Scanned) :
    scanLoop (c :: pf) ps assigned = assigned := by
  rw [scanLoop.eq_def]
  dsimp only
  rw [if_neg isLiteral]
  have notDropped : pf.dropWhile (· = ascii ' ') = pf := by
    cases pf with
    | nil => rfl
    | cons d rest =>
      refine List.dropWhile_cons_of_neg ?_
      intro isSpace
      exact noSpace (congrArg some (of_decide_eq_true isSpace))
  cases ps with
  | nil => rfl
  | cons d ps =>
    dsimp only
    split_ifs
    · rw [notDropped, ends]
    · rfl

end LlmRuntime.Stdlib
