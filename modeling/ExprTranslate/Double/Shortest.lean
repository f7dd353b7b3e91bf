import ExprTranslate.Double.Parts
/-!
# Shortest decimal of a double

Every positive finite double `v = m · 2^e` is the rounding of every real in an
interval around it: half way to each neighbouring double, the ends included
when `m` is even (a tie then rounds back to `v`). The shortest decimal of `v`
is the decimal with the fewest significant digits in that interval, and of
two such the nearer to `v`; an exact tie goes to the even last digit.

For `n = 1, 2, …` the decimals with `n` significant digits form a grid of
spacing `10^(p - n + 1)`, where `10^p ≤ v < 10^(p+1)`; if any point of that
grid lies in the interval then one of the two grid points around `v` does.
So `shortest` tries the two neighbours of `v` on each grid in turn, in exact
integer arithmetic. Seventeen digits always suffice.
-/

namespace ExprTranslate.Double

/-- A decimal `digits · 10^exp`; `digits` has no trailing zero unless it is zero. -/
structure Decimal where
  digits : Nat
  exp : Int
  deriving DecidableEq, Repr

/-- `a · 10^k`, as a pair numerator and denominator. -/
def scaled (a : Nat) (k : Int) : Nat × Nat :=
  if 0 ≤ k then (a * Nat.pow 10 k.toNat, 1) else (a, Nat.pow 10 (-k).toNat)

/-- Compares the rationals `a / b` and `c / d`. -/
def ratCompare (a b c d : Nat) : Ordering := compare (a * d) (c * b)

/-- Whether `10^k ≤ num / den`. -/
def atLeastPow10 (num den : Nat) (k : Int) : Bool :=
  let (p, q) := scaled 1 k
  ratCompare p q num den != .gt

/-- The decimal exponent of `num / den > 0`: the `p` with `10^p ≤ num / den < 10^(p+1)`.
The estimate from the bit lengths is off by at most two, and the search corrects it. -/
def decimalExp (num den : Nat) : Int :=
  let est : Int := ((leadingExp num den) * 30103).fdiv 100000
  let rec down : Nat → Int → Int
    | 0, k => k
    | fuel + 1, k => if atLeastPow10 num den k then k else down fuel (k - 1)
  let rec up : Nat → Int → Int
    | 0, k => k
    | fuel + 1, k => if atLeastPow10 num den (k + 1) then up fuel (k + 1) else k
  up 4 (down 4 (est + 1))

/-- Drops trailing zeros from the digits, raising the exponent. -/
def Decimal.normalize (d : Decimal) : Decimal :=
  let rec strip : Nat → Nat → Int → Decimal
    | 0, a, k => ⟨a, k⟩
    | fuel + 1, a, k => if a ≠ 0 ∧ a % 10 = 0 then strip fuel (a / 10) (k + 1) else ⟨a, k⟩
  strip (Nat.log2 d.digits + 1) d.digits d.exp

/-- The rounding interval of the positive double `m · 2^e`, as numerators over one common
denominator: `(low, value, high, den)`. The gap below is half the gap above when `m` is the
least normal significand of its binade. -/
def interval (m : Nat) (e : Int) : Nat × Nat × Nat × Nat :=
  let lowGap := if m = Nat.pow 2 52 ∧ -1074 < e then 1 else 2
  let (lo, v, hi) := (4 * m - lowGap, 4 * m, 4 * m + 2)
  if 0 ≤ e then
    let s := Nat.pow 2 e.toNat
    (lo * s, v * s, hi * s, 4)
  else (lo, v, hi, 4 * Nat.pow 2 (-e).toNat)

/-- The two grid neighbours of `v = num / den` on the grid of spacing `10^k`, each if it lies
in the interval `[lo, hi]` (ends included when `closed`), the nearer first; an exact tie puts
the even one first. -/
def gridHits (lo v hi den : Nat) (closed : Bool) (k : Int) : List Decimal :=
  let (sn, sd) := scaled 1 k
  -- `a · 10^k ≤ num / den` in integers: `a · sn · den ≤ num · sd`
  let below := v * sd / (sn * den)
  let inside (a : Nat) : Bool :=
    let c := ratCompare (a * sn) sd lo den
    let d := ratCompare (a * sn) sd hi den
    (c == .gt || (closed && c == .eq)) && (d == .lt || (closed && d == .eq))
  let down := if inside below then [below] else []
  let up := if inside (below + 1) then [below + 1] else []
  let hits := match down, up with
    | [a], [b] =>
      -- distances `v - a·10^k` and `(a+1)·10^k - v`, scaled by `den · sd`
      let dDown := v * sd - a * sn * den
      let dUp := b * sn * den - v * sd
      if dDown < dUp then [a, b]
      else if dUp < dDown then [b, a]
      else if a % 2 = 0 then [a, b] else [b, a]
    | _, _ => down ++ up
  hits.map fun a => (⟨a, k⟩ : Decimal).normalize

/-- The shortest decimal in the rounding interval of the positive double `m · 2^e`, nearest
to it among the shortest. -/
def shortest (m : Nat) (e : Int) : Decimal :=
  let (lo, v, hi, den) := interval m e
  let p := decimalExp v den
  let closed := m % 2 = 0
  let rec search : Nat → Nat → Decimal
    | 0, _ => ⟨m, 0⟩
    | fuel + 1, n =>
      match gridHits lo v hi den closed (p - n + 1) with
      | d :: _ => d
      | [] => search fuel (n + 1)
  search 17 1

end ExprTranslate.Double
