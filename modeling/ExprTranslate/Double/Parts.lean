/-!
# Binary parts of a double

A finite double is `± m · 2^e` with an integer significand `m < 2^53` and an
exponent `-1074 ≤ e ≤ 971`; `m ≥ 2^52` unless `e = -1074` (the subnormals).
This module takes a `Float` apart into these parts, and builds the double
nearest to a positive rational, a tie going to the even significand, as
IEEE 754 rounds by default.

* `Parts`, `Parts.ofFloat`: the three kinds of double;
* `nearest`: correctly rounded significand and exponent of `num / den`,
  `none` when the rounded value reaches `2^1024`;
* `ofParts`: the double with given sign, significand and exponent.
-/

namespace ExprTranslate.Double

/-- What a double is: a signed finite value `m · 2^e`, a signed infinity, or not a number. -/
inductive Parts
  | finite (neg : Bool) (m : Nat) (e : Int)
  | infinite (neg : Bool)
  | nan
  deriving DecidableEq, Repr

/-- The parts of a double, read off its 64 bits: sign, 11 exponent bits, 52 fraction bits. -/
def Parts.ofFloat (x : Float) : Parts :=
  let b : Nat := x.toBits.toNat
  let neg : Bool := b / Nat.pow 2 63 = 1
  let biased : Nat := b / Nat.pow 2 52 % Nat.pow 2 11
  let frac : Nat := b % Nat.pow 2 52
  if biased = Nat.pow 2 11 - 1 then
    if frac = 0 then .infinite neg else .nan
  else if biased = 0 then .finite neg frac (-1074)
  else .finite neg (frac + Nat.pow 2 52) ((biased : Int) - 1075)

/-- `num / den` rounded to an integer, a tie going to the even neighbour. -/
def roundHalfEven (num den : Nat) : Nat :=
  let q := num / den
  let r := num % den
  if 2 * r < den then q
  else if den < 2 * r then q + 1
  else if q % 2 = 0 then q else q + 1

/-- Whether `num / den ≥ 2^k`, decided in integers. -/
def atLeastPow2 (num den : Nat) (k : Int) : Bool :=
  if 0 ≤ k then den * Nat.pow 2 k.toNat ≤ num else den ≤ num * Nat.pow 2 (-k).toNat

/-- The exponent of the leading bit of `num / den`: the `k` with `2^k ≤ num / den < 2^(k+1)`.
The difference of the bit lengths is that exponent or one more. -/
def leadingExp (num den : Nat) : Int :=
  let c : Int := (num.log2 : Int) - den.log2
  if atLeastPow2 num den c then c else c - 1

/-- The finite double nearest to `num / den > 0`, as significand and exponent: the last bit
kept is the one of weight `2^(leadingExp - 52)`, or `2^-1074` for the subnormals. `none` when
the rounded value is `2^1024` or more. -/
def nearest (num den : Nat) : Option (Nat × Int) :=
  let lead := leadingExp num den
  if 1024 ≤ lead then none
  else
    let low : Int := max (lead - 52) (-1074)
    let q :=
      if 0 ≤ low then roundHalfEven num (den * Nat.pow 2 low.toNat)
      else roundHalfEven (num * Nat.pow 2 (-low).toNat) den
    let (q, low) := if q = Nat.pow 2 53 then (Nat.pow 2 52, low + 1) else (q, low)
    if 971 < low then none else some (q, low)

/-- The double `± m · 2^e`, for parts as `nearest` gives them: a significand below `2^52`
is a subnormal, whose exponent field is zero. -/
def ofParts (neg : Bool) (m : Nat) (e : Int) : Float :=
  let magnitude := if m < Nat.pow 2 52 then m else (e + 1075).toNat * Nat.pow 2 52 + (m - Nat.pow 2 52)
  Float.ofBits (UInt64.ofNat (if neg then magnitude + Nat.pow 2 63 else magnitude))

/-- A signed infinity. -/
def infinity (neg : Bool) : Float :=
  Float.ofBits (UInt64.ofNat (if neg then 0xFFF0000000000000 else 0x7FF0000000000000))

/-- A signed zero. -/
def zero (neg : Bool) : Float :=
  Float.ofBits (UInt64.ofNat (if neg then Nat.pow 2 63 else 0))

/-- Not a number, with the quiet bit set. -/
def nan : Float := Float.ofBits 0x7FF8000000000001

end ExprTranslate.Double
