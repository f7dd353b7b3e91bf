import ExprTranslate.Token.Lexicon
/-!
# Three-address code

An instruction `op left right dest` stores `left op right` in `dest`. Its
operands are places: a numeral (one or more ASCII digits), a temporary
(`T` followed by a numeral without leading zero, such as `T1` or `T10`), or
any other name, which stands for a variable. Temporaries are handed out as
`T1`, `T2`, … in order.
-/

namespace ExprTranslate

/-- One instruction: `dest := left op right`. -/
structure Instr where
  op : Char
  left : String
  right : String
  dest : String
  deriving DecidableEq, Repr, Inhabited

/-- The text of an instruction: its four parts separated by spaces. -/
def Instr.render (i : Instr) : String :=
  String.singleton i.op ++ " " ++ i.left ++ " " ++ i.right ++ " " ++ i.dest

/-- The text of a code sequence, one instruction a line, each ending with a line feed. -/
def renderCode (code : List Instr) : String := String.join (code.map fun i => i.render ++ "\n")

/-- The place of zero, which an addition may drop. -/
def additiveIdentity : String := "0"

/-- The place of one, which a multiplication may drop. -/
def multiplicativeIdentity : String := "1"

/-- Whether a place is a numeral. -/
def isNumeral (p : String) : Bool := Lexicon.isNumeral p

/-- Whether a place is a temporary: `T` and a numeral that does not start with `0`. -/
def isTemporary (p : String) : Bool :=
  match p.toList with
  | 'T' :: d :: rest => d ≠ '0' && isNumeral (String.ofList (d :: rest))
  | _ => false

/-- The name of the `n`-th temporary. -/
def temporary (n : Nat) : String := "T" ++ toString n

/-- The first `n` temporaries. -/
def temporaries (n : Nat) : List String := (List.range n).map fun i => temporary (i + 1)

end ExprTranslate
