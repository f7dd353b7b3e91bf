import ExprTranslate.Translate.State
/-!
# Semantic actions

The action of a production reads the records of its group and writes its
owner. Actions are found by production number, so another grammar that uses
the same numbers runs the same actions:

| production | action |
|---|---|
| 1 `Expr ➞ Sign Term ExprTail` | the sum of the signed term and the tail |
| 2 `Sign ➞ AddOp` | the operator of the `AddOp` |
| 3 `Sign ➞ ε`, 7 `AddOp ➞ +` | `+` |
| 8, 9, 10 | `-`, `*`, `/` |
| 4 `Term ➞ Factor TermTail` | the product of the factor and the tail |
| 5, 15 `Factor ➞ number`, `identifier` | the held literal |
| 6 `Factor ➞ ( Expr )` | the value and place of the `Expr` |
| 11 `ExprTail ➞ AddOp Term ExprTail` | as 1, with the `AddOp` for the sign |
| 12 `ExprTail ➞ ε` | `0` at place `0` |
| 13 `TermTail ➞ MulOp Factor TermTail` | as 4, with the `MulOp` |
| 14 `TermTail ➞ ε` | `1` at place `1` |

A sum `op term + tail` negates a subtracted term (emitting `0 - term`) and
then adds the tail, emitting the addition unless identity elimination is on
and the tail's place is `0`. A product `op factor * tail` inverts a divisor
(emitting `1 / factor`) and then multiplies by the tail, unless identity
elimination is on and the tail's place is `1`.
-/

namespace ExprTranslate

variable {α : Type}

/-- The record of the first member of a kind. -/
def member (g : Group) (k : Kind) : Run α Nat := do
  let s ← get
  match g.members.find? (fun i => (s.records[i]?.map (·.kind)) = some k) with
  | some i => pure i
  | none =>
    internal ("production " ++ toString g.prod.id ++ " has no attribute record for " ++ k.name)

/-- The operator synthesized by the member of a kind. -/
def operatorOf (g : Group) (k : Kind) : Run α Symbol := do
  let r ← getRecord (← member g k)
  match r.op with
  | some op => pure op
  | none => internal (k.name ++ " has no operator")

/-- Value and place synthesized by a record. -/
def operand (i : Nat) : Run α (α × String) := do
  let r ← getRecord i
  match r.attr with
  | some a => pure a
  | none => internal (r.kind.name ++ " has no value")

/-- Sets the operator of a record, once. -/
def setOperator (i : Nat) (op : Symbol) : Run α Unit := do
  let r ← getRecord i
  if r.op.isSome then internal ("operator of " ++ r.kind.name ++ " already set")
  else modifyRecord i fun r => { r with op := some op }

/-- Sets value and place of a record, once. -/
def synthesize (i : Nat) (v : α) (place : String) : Run α Unit := do
  let r ← getRecord i
  if r.attr.isSome then internal ("value of " ++ r.kind.name ++ " already set")
  else modifyRecord i fun r => { r with attr := some (v, place) }

/-- How a sum or a product joins its first operand to the rest: the operator that keeps the
operand and the one that inverts it, the instructions that invert and that join, the place of
the identity, which identity elimination does not join with, and what the operators are called
in errors. -/
structure Combine where
  keep : Symbol
  inverse : Symbol
  invert : Char
  combine : Char
  identity : String
  operators : String

/-- Sums keep by `+`, negate by `-` as `0 - x`, add, and drop the addition of `0`. -/
def Combine.sum : Combine := ⟨.plus, .minus, '-', '+', additiveIdentity, "an additive operator"⟩

/-- Products keep by `*`, invert by `/` as `1 / x`, multiply, and drop the multiplication by
`1`. -/
def Combine.product : Combine :=
  ⟨.times, .slash, '/', '*', multiplicativeIdentity, "a multiplicative operator"⟩

/-- `owner := (op first) ∘ rest`: the first operand kept or inverted as `op` says, then joined
to the rest, unless identity elimination is on and the rest is the identity. -/
def combine (cfg : Config α) (c : Combine) (invert : α → α) (join : α → α → α) (owner : Nat)
    (op : Symbol) (first rest : Nat) : Run α Unit := do
  let (fv, fp) ← operand first
  let (hv, hp) ← operand rest
  let (value, place) ←
    if op = c.keep then pure (fv, fp)
    else if op = c.inverse then do
      let p ← emit c.invert c.identity fp
      pure (invert fv, p)
    else internal (op.name ++ " is not " ++ c.operators)
  let value := join value hv
  let place ← if !cfg.optimize || hp != c.identity then emit c.combine place hp else pure place
  synthesize owner value place

/-- `owner := (op term) + tail`, for `op` plus or minus. -/
def sum (cfg : Config α) (owner : Nat) (op : Symbol) (term tail : Nat) : Run α Unit :=
  combine cfg .sum cfg.arith.neg cfg.arith.add owner op term tail

/-- `owner := (op factor) * tail`, for `op` times (the factor) or slash (its inverse). -/
def product (cfg : Config α) (owner : Nat) (op : Symbol) (factor tail : Nat) : Run α Unit :=
  combine cfg .product (cfg.arith.div cfg.arith.one) cfg.arith.mul owner op factor tail

/-- The sum of a group's `Term` and `ExprTail`, signed by `op`. -/
def sumOf (cfg : Config α) (g : Group) (owner : Nat) (op : Symbol) : Run α Unit := do
  let term ← member g .term
  let tail ← member g .exprTail
  sum cfg owner op term tail

/-- The product of a group's `Factor` and `TermTail`, joined by `op`. -/
def productOf (cfg : Config α) (g : Group) (owner : Nat) (op : Symbol) : Run α Unit := do
  let factor ← member g .factor
  let tail ← member g .termTail
  product cfg owner op factor tail

/-- The action with a number, on a group and its owner. -/
def action (cfg : Config α) (id : Int) (g : Group) (owner : Nat) : Run α Unit :=
  match id with
  | 1 => do sumOf cfg g owner (← operatorOf g .sign)
  | 2 => do setOperator owner (← operatorOf g .addOp)
  | 3 => setOperator owner .plus
  | 4 => productOf cfg g owner .times
  | 5 => do let lit ← take .number; synthesize owner lit.value lit.text
  | 6 => do
    let (v, p) ← operand (← member g .expr)
    synthesize owner v p
  | 7 => setOperator owner .plus
  | 8 => setOperator owner .minus
  | 9 => setOperator owner .times
  | 10 => setOperator owner .slash
  | 11 => do sumOf cfg g owner (← operatorOf g .addOp)
  | 12 => synthesize owner cfg.arith.zero additiveIdentity
  | 13 => do productOf cfg g owner (← operatorOf g .mulOp)
  | 14 => synthesize owner cfg.arith.one multiplicativeIdentity
  | 15 => do let lit ← take .identifier; synthesize owner lit.value lit.text
  | _ => throw (.internal ⟨id, "no semantic action"⟩)

/-- Runs the action of a group's production; an internal error without a production gets the
production's number. -/
def runAction (cfg : Config α) (g : Group) : Run α Unit := do
  let id := g.prod.id
  if id ≤ 0 ∨ 15 < id then throw (.internal ⟨id, "no semantic action"⟩)
  match g.owner with
  | none => throw (.internal ⟨id, "attribute group has no owner"⟩)
  | some owner =>
    tryCatch (action cfg id g owner) fun
      | .internal e => throw (.internal (if e.production = 0 then { e with production := id } else e))
      | e => throw e

end ExprTranslate
