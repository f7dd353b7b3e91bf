import ExprTranslate.Grammar.Table
/-!
# The expression grammar

Arithmetic expressions with an optional leading sign, left-associative
additive and multiplicative operators, parentheses, numbers and identifiers,
in a form without left recursion:

```
 1: Expr     ➞ Sign Term ExprTail        7: AddOp ➞ Plus
 2: Sign     ➞ AddOp                     8: AddOp ➞ Minus
 3: Sign     ➞ ε                         9: MulOp ➞ Times
11: ExprTail ➞ AddOp Term ExprTail      10: MulOp ➞ Slash
12: ExprTail ➞ ε                         5: Factor ➞ Number
 4: Term     ➞ Factor TermTail           6: Factor ➞ Lparen Expr Rparen
13: TermTail ➞ MulOp Factor TermTail    15: Factor ➞ Identifier
14: TermTail ➞ ε
```

The production numbers are also the numbers of the semantic actions. The
grammar is LL(1): its selection table has no conflict.
-/

namespace ExprTranslate

/-- The rules of the expression grammar, in order. -/
def expressionRules : List RuleSpec :=
  [ ⟨Kind.expr.code, [.kind .sign, .kind .term, .kind .exprTail], 1, false⟩,
    ⟨Kind.sign.code, [.kind .addOp], 2, false⟩,
    ⟨Kind.sign.code, [], 3, true⟩,
    ⟨Kind.exprTail.code, [.kind .addOp, .kind .term, .kind .exprTail], 11, false⟩,
    ⟨Kind.exprTail.code, [], 12, true⟩,
    ⟨Kind.term.code, [.kind .factor, .kind .termTail], 4, false⟩,
    ⟨Kind.termTail.code, [.kind .mulOp, .kind .factor, .kind .termTail], 13, false⟩,
    ⟨Kind.termTail.code, [], 14, true⟩,
    ⟨Kind.factor.code, [.terminal .number], 5, false⟩,
    ⟨Kind.factor.code, [.terminal .lparen, .kind .expr, .terminal .rparen], 6, false⟩,
    ⟨Kind.factor.code, [.terminal .identifier], 15, false⟩,
    ⟨Kind.addOp.code, [.terminal .plus], 7, false⟩,
    ⟨Kind.addOp.code, [.terminal .minus], 8, false⟩,
    ⟨Kind.mulOp.code, [.terminal .times], 9, false⟩,
    ⟨Kind.mulOp.code, [.terminal .slash], 10, false⟩ ]

/-- The expression grammar. -/
def expressionGrammar : Grammar :=
  match RawGrammar.build "expressions" expressionRules with
  | .ok g => g.kinds?.getD ⟨"expressions", .expr, []⟩
  | .error _ => ⟨"expressions", .expr, []⟩

/-- The selection table of the expression grammar. -/
def expressionTable : Table :=
  match Table.build expressionGrammar.analyze with
  | .ok t => t
  | .error _ => Table.empty expressionGrammar.analyze

end ExprTranslate
