import ExprTranslate.Grammar.Expressions
/-!
# The selection table of the expression grammar

The table that `Table.build` computes for the expression grammar, read off once: it holds
no conflict, and selects

| non-terminal | `+` `-` | `*` `/` | `(` number identifier | `)` end of input |
|---|---|---|---|---|
| `Expr` | 1 | | 1 | |
| `Sign` | 2 | | 3 (ε) | |
| `ExprTail` | 11 | | | 12 (ε) |
| `Term` | | | 4 | |
| `TermTail` | 14 (ε) | 13 | | 14 (ε) |
| `Factor` | | | 6, 5, 15 | |
| `AddOp` | 7, 8 | | | |
| `MulOp` | | 9, 10 | | |

`select_expressionTable` states the table as `predict`. Every other lookahead, the symbols
that name no token included, selects nothing.
-/

namespace ExprTranslate

namespace Production

/-- `1: Expr ➞ Sign Term ExprTail` -/
def exprRule : Production := ⟨1, .expr, [.nonterminal .sign, .nonterminal .term, .nonterminal .exprTail]⟩
/-- `2: Sign ➞ AddOp` -/
def signAddOp : Production := ⟨2, .sign, [.nonterminal .addOp]⟩
/-- `3: Sign ➞ ε` -/
def signNone : Production := ⟨3, .sign, [.terminal .empty]⟩
/-- `4: Term ➞ Factor TermTail` -/
def termRule : Production := ⟨4, .term, [.nonterminal .factor, .nonterminal .termTail]⟩
/-- `5: Factor ➞ Number` -/
def factorNumber : Production := ⟨5, .factor, [.terminal .number]⟩
/-- `6: Factor ➞ Lparen Expr Rparen` -/
def factorParens : Production :=
  ⟨6, .factor, [.terminal .lparen, .nonterminal .expr, .terminal .rparen]⟩
/-- `7: AddOp ➞ Plus` -/
def addOpPlus : Production := ⟨7, .addOp, [.terminal .plus]⟩
/-- `8: AddOp ➞ Minus` -/
def addOpMinus : Production := ⟨8, .addOp, [.terminal .minus]⟩
/-- `9: MulOp ➞ Times` -/
def mulOpTimes : Production := ⟨9, .mulOp, [.terminal .times]⟩
/-- `10: MulOp ➞ Slash` -/
def mulOpSlash : Production := ⟨10, .mulOp, [.terminal .slash]⟩
/-- `11: ExprTail ➞ AddOp Term ExprTail` -/
def exprTailMore : Production :=
  ⟨11, .exprTail, [.nonterminal .addOp, .nonterminal .term, .nonterminal .exprTail]⟩
/-- `12: ExprTail ➞ ε` -/
def exprTailEnd : Production := ⟨12, .exprTail, [.terminal .empty]⟩
/-- `13: TermTail ➞ MulOp Factor TermTail` -/
def termTailMore : Production :=
  ⟨13, .termTail, [.nonterminal .mulOp, .nonterminal .factor, .nonterminal .termTail]⟩
/-- `14: TermTail ➞ ε` -/
def termTailEnd : Production := ⟨14, .termTail, [.terminal .empty]⟩
/-- `15: Factor ➞ Identifier` -/
def factorIdentifier : Production := ⟨15, .factor, [.terminal .identifier]⟩

end Production

open Production

/-- The productions of the expression grammar, in the order of its rules. -/
theorem expressionTable_rules : expressionTable.grammar.rules =
    [exprRule, signAddOp, signNone, exprTailMore, exprTailEnd, termRule, termTailMore, termTailEnd,
      factorNumber, factorParens, factorIdentifier, addOpPlus, addOpMinus, mulOpTimes,
      mulOpSlash] := by
  decide +kernel

/-- The expression grammar starts with `Expr`. -/
theorem expressionTable_start : expressionTable.grammar.start = .expr := by decide +kernel

/-- Building the table met no conflict. -/
theorem expressionTable_conflicts : expressionTable.conflicts = [] := by decide +kernel

/-- The production the expression grammar's table selects for a non-terminal and a
lookahead. -/
def predict : Kind → Symbol → Option Production
  | .expr, la =>
    if la = .plus ∨ la = .minus ∨ la = .lparen ∨ la = .number ∨ la = .identifier then some exprRule
    else none
  | .sign, la =>
    if la = .plus ∨ la = .minus then some signAddOp
    else if la = .lparen ∨ la = .number ∨ la = .identifier then some signNone else none
  | .exprTail, la =>
    if la = .plus ∨ la = .minus then some exprTailMore
    else if la = .rparen ∨ la = .endOfInput then some exprTailEnd else none
  | .term, la => if la = .lparen ∨ la = .number ∨ la = .identifier then some termRule else none
  | .termTail, la =>
    if la = .times ∨ la = .slash then some termTailMore
    else if la = .plus ∨ la = .minus ∨ la = .rparen ∨ la = .endOfInput then some termTailEnd
    else none
  | .factor, la =>
    if la = .number then some factorNumber
    else if la = .lparen then some factorParens
    else if la = .identifier then some factorIdentifier else none
  | .addOp, la => if la = .plus then some addOpPlus else if la = .minus then some addOpMinus else none
  | .mulOp, la => if la = .times then some mulOpTimes else if la = .slash then some mulOpSlash else none

/-- The table agrees with `predict` on the symbols that name tokens. -/
theorem select_known (k : Kind) : ∀ c : Fin 34,
    expressionTable.select k.code ⟨c⟩ = predict k ⟨c⟩ := by
  cases k <;> decide +kernel

/-- A lookahead that names no token selects nothing. -/
theorem predict_unknown (k : Kind) {la : Symbol} (h : ¬ la.IsKnown) : predict k la = none := by
  have ne : ∀ c : Int, 0 ≤ c → c < 34 → la ≠ ⟨c⟩ := fun c h0 h1 he => h (he ▸ ⟨h0, h1⟩)
  cases k <;> simp [predict, Symbol.plus, Symbol.minus, Symbol.times, Symbol.slash, Symbol.lparen,
    Symbol.rparen, Symbol.number, Symbol.identifier, Symbol.endOfInput, ne]

/-- **The selection table of the expression grammar is `predict`.** -/
theorem select_expressionTable (k : Kind) (la : Symbol) :
    expressionTable.select k.code la = predict k la := by
  by_cases hk : la.IsKnown
  · obtain ⟨c⟩ := la
    obtain ⟨h0, h1⟩ := hk
    have := select_known k ⟨c.toNat, by simp [Symbol.count] at h1; omega⟩
    simpa [Int.toNat_of_nonneg h0] using this
  · simp [Table.select, hk, predict_unknown k hk]

end ExprTranslate
