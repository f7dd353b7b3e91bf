import ExprTranslate.Double.Shortest
/-!
# The text of a double

A double is written with the digits of its shortest decimal (see `shortest`).
`TextForm` holds the decisions of a format that are not arithmetic: where
positional notation gives way to exponent notation, how the exponent is
written, and the words for the infinities and for not-a-number. `general` is
the form of every number this library prints.
-/

namespace ExprTranslate.Double

/-- The choices of a number format beside its digits. -/
structure TextForm where
  /-- Exponent notation is used for decimal exponents below this one, -/
  sciBelow : Int
  /-- and for those from this one on. -/
  sciFrom : Int
  /-- The least number of exponent digits, zeros padding on the left. -/
  expDigits : Nat
  /-- The mark between digits and exponent. -/
  expMark : String
  /-- A non-negative exponent has a plus sign. -/
  expPlus : Bool
  posInf : String
  negInf : String
  nan : String

/-- Positional for decimal exponents from -4 to 5 (so `123456` and `0.0001`), exponent
notation with a sign and at least two digits otherwise (`1.234567e+06`, `1e-05`);
`+Inf`, `-Inf`, `NaN`; a negative zero keeps its sign. -/
def general : TextForm :=
  { sciBelow := -4, sciFrom := 6, expDigits := 2, expMark := "e", expPlus := true,
    posInf := "+Inf", negInf := "-Inf", nan := "NaN" }

/-- The decimal digits of a natural number. -/
def natDigits (n : Nat) : String := toString n

/-- Pads on the left with `c` to at least `width` characters. -/
def padLeft (s : String) (width : Nat) (c : Char) : String :=
  String.ofList (List.replicate (width - s.length) c) ++ s

/-- A non-zero decimal in the form `f`: digits `ds` with the decimal point after the first `dp`
of them (`dp` may be negative or beyond the digits). -/
def positional (ds : String) (dp : Int) : String :=
  let n : Int := ds.length
  if dp ≤ 0 then
    "0." ++ String.ofList (List.replicate (-dp).toNat '0') ++ ds
  else if n ≤ dp then
    ds ++ String.ofList (List.replicate (dp - n).toNat '0')
  else
    String.ofList (ds.toList.take dp.toNat) ++ "." ++ String.ofList (ds.toList.drop dp.toNat)

/-- A non-zero decimal in exponent notation: first digit, the others after a point, then
the exponent. -/
def scientific (f : TextForm) (ds : String) (x : Int) : String :=
  let mant := match ds.toList with
    | [] => "0"
    | [c] => String.singleton c
    | c :: rest => String.singleton c ++ "." ++ String.ofList rest
  let sign := if x < 0 then "-" else if f.expPlus then "+" else ""
  mant ++ f.expMark ++ sign ++ padLeft (natDigits x.natAbs) f.expDigits '0'

/-- The text of a positive decimal in the form `f`. -/
def Decimal.render (f : TextForm) (d : Decimal) : String :=
  let ds := natDigits d.digits
  let dp : Int := ds.length + d.exp
  let x := dp - 1
  if x < f.sciBelow ∨ f.sciFrom ≤ x then scientific f ds x else positional ds dp

/-- The text of a double in the form `f`. -/
def render (f : TextForm) (x : Float) : String :=
  match Parts.ofFloat x with
  | .nan => f.nan
  | .infinite neg => if neg then f.negInf else f.posInf
  | .finite neg m e =>
    let body := if m = 0 then "0" else (shortest m e).render f
    if neg then "-" ++ body else body

/-- The text of a double in the `general` form. -/
def text (x : Float) : String := render general x

end ExprTranslate.Double
