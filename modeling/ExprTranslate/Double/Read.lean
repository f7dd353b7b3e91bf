import ExprTranslate.Double.Parts
import ExprTranslate.Text.Quoted
/-!
# Reading a numeral as a double

A numeral is read whole, as the nearest double, a tie going to the even
significand. Accepted are:

* `inf`, `infinity` (either with a sign) and `nan`, in any case;
* decimal numerals: an optional sign, digits with at most one point and at
  least one digit, an optional exponent `e` or `E` with optional sign and
  digits;
* hexadecimal numerals: a sign, `0x` or `0X`, hex digits with at most one
  point, and a binary exponent `p` or `P`, which is required;
* underscores, each between two digits (or after the `0x` prefix), also in
  the exponent.

A numeral whose value rounds beyond the largest double is out of range, and
reads as an infinity of its sign; one that rounds below the least subnormal
reads as a zero of its sign. Exponent digits count only while the exponent
is below 10000, which is far outside the range either way.
-/

namespace ExprTranslate.Double

/-- Why a numeral is refused: it is no numeral, or its value is beyond the largest double. -/
inductive ReadError
  | invalid
  | range (nearest : Float)

/-- The lowercase of an ASCII letter; other characters stay. -/
def asciiLower (c : Char) : Char :=
  if 'A' ≤ c ∧ c ≤ 'Z' then Char.ofNat (c.toNat + 32) else c

/-- How many leading characters of `cs` spell the start of `word`, ignoring ASCII case. -/
def commonPrefixLen : List Char → List Char → Nat
  | c :: cs, w :: ws => if asciiLower c = w then commonPrefixLen cs ws + 1 else 0
  | _, _ => 0

/-- The infinity spelled at the start of `cs`, with the number of characters it takes:
`inf` or `infinity` in any case; a longer prefix of `infinity` takes only `inf`. -/
def infinityPrefix (neg : Bool) (signLen : Nat) (cs : List Char) : Option (Float × Nat) :=
  let n := commonPrefixLen cs "infinity".toList
  let n := if 3 < n ∧ n < 8 then 3 else n
  if n = 3 ∨ n = 8 then some (infinity neg, signLen + n) else none

/-- The special value spelled at the start of a numeral, with the number of characters it
takes: a signed infinity or `nan`. A sign before `nan` is not allowed. -/
def specialPrefix : List Char → Option (Float × Nat)
  | [] => none
  | c :: cs =>
    if c = '+' then infinityPrefix false 1 cs
    else if c = '-' then infinityPrefix true 1 cs
    else if c = 'i' ∨ c = 'I' then infinityPrefix false 0 (c :: cs)
    else if (c = 'n' ∨ c = 'N') ∧ commonPrefixLen (c :: cs) "nan".toList = 3 then some (nan, 3)
    else none

/-- The value of a digit in base 10 or 16. -/
def digitValue (hex : Bool) (c : Char) : Option Nat :=
  if '0' ≤ c ∧ c ≤ '9' then some (c.toNat - 48)
  else if hex ∧ 'a' ≤ asciiLower c ∧ asciiLower c ≤ 'f' then some ((asciiLower c).toNat - 87)
  else none

/-- What has been read of a numeral's digits. -/
structure Digits where
  mant : Nat := 0
  fracDigits : Nat := 0
  sawDot : Bool := false
  sawDigits : Bool := false
  underscores : Bool := false
  taken : Nat := 0

/-- Reads digits, underscores and at most one point; stops at anything else. -/
def readDigits (hex : Bool) : Digits → List Char → Digits × List Char
  | d, [] => (d, [])
  | d, c :: cs =>
    if c = '_' then readDigits hex { d with underscores := true, taken := d.taken + 1 } cs
    else if c = '.' then
      if d.sawDot then (d, c :: cs)
      else readDigits hex { d with sawDot := true, taken := d.taken + 1 } cs
    else match digitValue hex c with
      | some v =>
        readDigits hex
          { d with mant := d.mant * (if hex then 16 else 10) + v, sawDigits := true,
                   fracDigits := if d.sawDot then d.fracDigits + 1 else d.fracDigits,
                   taken := d.taken + 1 } cs
      | none => (d, c :: cs)

/-- Reads the digits of an exponent: the value (digits count while it is below 10000), whether
an underscore was seen, and how many characters were taken. -/
def readExpDigits : Nat → Bool → Nat → List Char → Nat × Bool × Nat × List Char
  | e, u, n, [] => (e, u, n, [])
  | e, u, n, c :: cs =>
    if c = '_' then readExpDigits e true (n + 1) cs
    else if '0' ≤ c ∧ c ≤ '9' then
      readExpDigits (if e < 10000 then e * 10 + (c.toNat - 48) else e) u (n + 1) cs
    else (e, u, n, c :: cs)

/-- The exponent part of a numeral after its mark: sign and digits, as value, whether an
underscore was seen, and characters taken; `none` without a digit. -/
def readExponent (cs : List Char) : Option (Int × Bool × Nat) :=
  let (sign, signLen, rest) : Int × Nat × List Char :=
    match cs with
    | '+' :: r => (1, 1, r)
    | '-' :: r => (-1, 1, r)
    | _ => (1, 0, cs)
  match rest with
  | c :: _ =>
    if '0' ≤ c ∧ c ≤ '9' then
      let (e, u, n, _) := readExpDigits 0 false 0 rest
      some (sign * e, u, signLen + n)
    else none
  | [] => none

/-- Whether underscores stand only between digits, or after a base prefix, of the numeral
text read so far. -/
def underscoresOk (cs : List Char) : Bool :=
  let body := match cs with
    | c :: r => if c = '+' ∨ c = '-' then r else cs
    | [] => []
  let (start, rest, hex) : Char × List Char × Bool :=
    match body with
    | '0' :: b :: r =>
      if asciiLower b = 'b' ∨ asciiLower b = 'o' ∨ asciiLower b = 'x' then ('0', r, asciiLower b = 'x')
      else ('^', body, false)
    | _ => ('^', body, false)
  let rec check : Char → List Char → Bool
    | saw, [] => saw ≠ '_'
    | saw, c :: cs =>
      if ('0' ≤ c ∧ c ≤ '9') ∨ (hex ∧ 'a' ≤ asciiLower c ∧ asciiLower c ≤ 'f') then check '0' cs
      else if c = '_' then saw = '0' && check '_' cs
      else saw ≠ '_' && check '!' cs
  check start rest

/-- A numeral read as sign, base, integer mantissa and exponent: the value is
`mant · 10^exp`, or `mant · 2^exp` for a hexadecimal numeral. -/
structure Scanned where
  neg : Bool
  hex : Bool
  mant : Nat
  exp : Int
  taken : Nat

/-- Reads the longest numeral at the start of `cs`, or `none` if none starts there. -/
def scanNumeral (cs : List Char) : Option Scanned :=
  let (neg, signLen, rest) : Bool × Nat × List Char :=
    match cs with
    | '+' :: r => (false, 1, r)
    | '-' :: r => (true, 1, r)
    | _ => (false, 0, cs)
  let (hex, prefixLen, body) : Bool × Nat × List Char :=
    match rest with
    | '0' :: x :: r => if asciiLower x = 'x' ∧ r ≠ [] then (true, 2, r) else (false, 0, rest)
    | _ => (false, 0, rest)
  let (d, after) := readDigits hex {} body
  if !d.sawDigits then none
  else
    let expMark := if hex then 'p' else 'e'
    let expPart : Option (Int × Bool × Nat) :=
      match after with
      | c :: r => if asciiLower c = expMark then (readExponent r).map fun (e, u, n) => (e, u, n + 1)
                  else if hex then none else some (0, false, 0)
      | [] => if hex then none else some (0, false, 0)
    match expPart with
    | none => none
    | some (e, u, n) =>
      let taken := signLen + prefixLen + d.taken + n
      if (d.underscores || u) && !underscoresOk (cs.take taken) then none
      else
        let scale : Int := if hex then 4 * d.fracDigits else d.fracDigits
        some { neg, hex, mant := d.mant, exp := e - scale, taken }

/-- The number of decimal digits of a positive number. -/
def decimalLength (n : Nat) : Nat := (toString n).length

/-- The nearest double to `± num / den`, or an out-of-range error. -/
def roundQuotient (neg : Bool) (num den : Nat) : Except ReadError Float :=
  match nearest num den with
  | some (m, e) => .ok (ofParts neg m e)
  | none => .error (.range (infinity neg))

/-- The double nearest to a scanned numeral. Values far beyond either end of the range are
settled by their length alone. -/
def Scanned.value (s : Scanned) : Except ReadError Float :=
  if s.mant = 0 then .ok (zero s.neg)
  else if s.hex then
    let top : Int := s.mant.log2 + 1 + s.exp
    if 1100 < top then .error (.range (infinity s.neg))
    else if top < -1200 then .ok (zero s.neg)
    else if 0 ≤ s.exp then roundQuotient s.neg (s.mant * Nat.pow 2 s.exp.toNat) 1
    else roundQuotient s.neg s.mant (Nat.pow 2 (-s.exp).toNat)
  else
    let point : Int := decimalLength s.mant + s.exp
    if 310 < point then .error (.range (infinity s.neg))
    else if point < -330 then .ok (zero s.neg)
    else if 0 ≤ s.exp then roundQuotient s.neg (s.mant * Nat.pow 10 s.exp.toNat) 1
    else roundQuotient s.neg s.mant (Nat.pow 10 (-s.exp).toNat)

/-- Reads a whole text as a numeral. -/
def read (s : String) : Except ReadError Float :=
  let cs := s.toList
  match specialPrefix cs with
  | some (v, n) => if n = cs.length then .ok v else .error .invalid
  | none =>
    match scanNumeral cs with
    | none => .error .invalid
    | some sc => if sc.taken = cs.length then sc.value else .error .invalid

/-- The message for a refused numeral, as the reader reports it. -/
def ReadError.message (input : String) : ReadError → String
  | .invalid => "strconv.ParseFloat: parsing " ++ Text.quote input ++ ": invalid syntax"
  | .range _ => "strconv.ParseFloat: parsing " ++ Text.quote input ++ ": value out of range"

/-- Reads a numeral, taking an out-of-range one as the infinity of its sign. -/
def readLenient (s : String) : Option Float :=
  match read s with
  | .ok v => some v
  | .error (.range v) => some v
  | .error .invalid => none

end ExprTranslate.Double
