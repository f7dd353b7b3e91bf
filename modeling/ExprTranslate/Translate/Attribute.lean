import ExprTranslate.Grammar.Basic
import ExprTranslate.Span
/-!
# Attribute records and groups

Each occurrence of a non-terminal in a parse gets an attribute record: its
kind, the span of tokens it covers, and what it synthesizes. Signs and
additive and multiplicative operators synthesize an operator; the other
kinds a value together with the place that holds it. Each attribute is set
once.

Expanding a production makes a group of fresh records, one per non-terminal
of its right-hand side, owned by the record of its left-hand side; the
production's semantic action reads the group and writes the owner. Records
and groups are numbered in the order they are made, and refer to each other
by these numbers.
-/

namespace ExprTranslate

/-- The attribute record of one occurrence of a non-terminal; `α` is the type of values. -/
structure Instance (α : Type) where
  kind : Kind
  span : Span
  op : Option Symbol := none
  /-- The value and the place holding it, once synthesized. -/
  attr : Option (α × String) := none

variable {α : Type}

namespace Instance

/-- A fresh record of a kind at a token position. -/
def fresh (k : Kind) (pos : Nat) : Instance α := { kind := k, span := Span.atPos pos }

/-- Whether a record has what its kind synthesizes. -/
def resolved (i : Instance α) : Bool := if i.kind.isOperator then i.op.isSome else i.attr.isSome

/-- The text `Kind(lo…hi)[Op]`, `Kind(lo…hi)[place=value]` or `Kind(lo…hi)[?]`. -/
def render (text : α → String) (i : Instance α) : String :=
  let tail := match i.op, i.attr with
    | some op, _ => "[" ++ op.name ++ "]"
    | none, some (v, p) => "[" ++ p ++ "=" ++ text v ++ "]"
    | none, none => "[?]"
  i.kind.name ++ i.span.render ++ tail

end Instance

/-- The records of an expanded production: its owner (the record of its left-hand side) and
its members, one per non-terminal of its right-hand side. The bottom group of a parse holds the
record of the start symbol and has no production and no owner. `popped` tells that the group
has left the attribute stack. -/
structure Group where
  prod : Production
  owner : Option Nat
  members : List Nat
  popped : Bool := false
  deriving Inhabited

/-- An entry of the symbol stack: a terminal; a non-terminal with its record; or a production's
action with its group. -/
inductive Entry
  | terminal (s : Symbol)
  | nonterminal (k : Kind) (inst : Nat)
  | action (id : Int) (grp : Nat)
  deriving DecidableEq, Repr

/-- The grammar symbol of an entry. -/
def Entry.sym : Entry → GSym
  | .terminal s => .terminal s
  | .nonterminal k _ => .nonterminal k
  | .action id _ => .action id

/-- The text of an entry, as its grammar symbol. -/
def Entry.render (e : Entry) : String := e.sym.render

end ExprTranslate
