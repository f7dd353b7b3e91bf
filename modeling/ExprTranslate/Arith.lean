import ExprTranslate.Double.Read
/-!
# Arithmetics

Translating computes values while it parses, and generated code computes them
again when it runs. Both are written over an `Arith`: a carrier with zero,
one, the four operations, negation, and a reader for numerals. `Arith.float`
is double arithmetic, the one the program uses; statements about what code
computes can pick an exact one.
-/

namespace ExprTranslate

/-- The operations a computation over `α` needs. -/
structure Arith (α : Type) where
  zero : α
  one : α
  add : α → α → α
  sub : α → α → α
  mul : α → α → α
  div : α → α → α
  neg : α → α
  /-- The value of a numeral, or why it is refused. -/
  numeral : String → Except Double.ReadError α

/-- Double arithmetic, numerals read as the nearest double. -/
def Arith.float : Arith Float where
  zero := 0
  one := 1
  add := (· + ·)
  sub := (· - ·)
  mul := (· * ·)
  div := (· / ·)
  neg := (- ·)
  numeral := Double.read

/-- Values of names: the first pair with a name gives its value. -/
abbrev Bindings (α : Type) := List (String × α)

/-- The value bound to a name. -/
def Bindings.lookup {α : Type} (b : Bindings α) (name : String) : Option α :=
  (List.find? (fun p => p.1 == name) b).map (·.2)

end ExprTranslate
