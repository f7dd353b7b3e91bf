import ExprTranslate.Text.Printable
/-!
# Quoted texts

A text is quoted between double quotes. A quote and a backslash are preceded
by a backslash; printable characters stand as they are; the seven controls
with a letter escape are written `\a \b \f \n \r \t \v`; other characters
below U+0020 and U+007F are written `\x` and two hex digits, the rest of
the basic plane `\u` and four, and the characters beyond it `\U` and eight.
Hex digits are lowercase.
-/

namespace ExprTranslate.Text

/-- Whether a character stands as itself in a quoted text. -/
def isPrintable (c : Char) : Bool :=
  let n := c.toNat
  if n < 0x80 then 0x20 ≤ n ∧ n < 0x7F else printable.contains c

/-- The lowercase hex digit of a number below 16. -/
def hexDigit (n : Nat) : Char :=
  if n < 10 then Char.ofNat (48 + n) else Char.ofNat (87 + n)

/-- The `width` lowest hex digits of `n`, most significant first. -/
def hexDigits (n width : Nat) : List Char :=
  (List.range width).reverse.map fun i => hexDigit (n / Nat.pow 16 i % 16)

/-- The written form of one character inside a quoted text. -/
def escapeChar (c : Char) : List Char :=
  let n := c.toNat
  if c = '"' ∨ c = '\\' then ['\\', c]
  else if isPrintable c then [c]
  else if n = 7 then ['\\', 'a']
  else if n = 8 then ['\\', 'b']
  else if n = 12 then ['\\', 'f']
  else if n = 10 then ['\\', 'n']
  else if n = 13 then ['\\', 'r']
  else if n = 9 then ['\\', 't']
  else if n = 11 then ['\\', 'v']
  else if n < 0x20 ∨ n = 0x7F then '\\' :: 'x' :: hexDigits n 2
  else if n < 0x10000 then '\\' :: 'u' :: hexDigits n 4
  else '\\' :: 'U' :: hexDigits n 8

/-- A text between double quotes, with escapes. -/
def quote (s : String) : String :=
  String.ofList ('"' :: s.toList.flatMap escapeChar ++ ['"'])

end ExprTranslate.Text
