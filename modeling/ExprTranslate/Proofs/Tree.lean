import ExprTranslate.Proofs.Table
import ExprTranslate.Translate.Action
/-!
# Parse trees of the expression grammar

A `Tree k` derives a sequence of tokens from the non-terminal `k`, with one constructor for each
production of the expression grammar; its leaves are the tokens themselves, each with the
symbol its production asks for.

What the translator computes for a tree is read off the tree here, production by production,
as the semantic actions compute it:

* `Tree.op`: the operator a sign, additive or multiplicative operator stands for (`+` for a
  missing sign);
* `Tree.value`: the value, a term signed by its operator plus the rest of the sum, a factor (or
  its inverse) times the rest of the product; the end of a sum is `0`, of a product `1`;
* `Tree.gen`: the place that holds the value and the three-address code emitted, which depends
  on identity elimination and on how many temporaries came before.

`Tree.ast` is the expression a tree spells, read in the usual way: operators associate to the
left, and a leading sign applies to the first term.
-/

namespace ExprTranslate

/-- A parse tree of the expression grammar: one constructor for each production, named as the
production. -/
inductive Tree : Kind → Type
  | exprRule (sign : Tree .sign) (term : Tree .term) (tail : Tree .exprTail) : Tree .expr
  | signAddOp (op : Tree .addOp) : Tree .sign
  | signNone : Tree .sign
  | termRule (factor : Tree .factor) (tail : Tree .termTail) : Tree .term
  | factorNumber (tok : Token) (h : tok.symbol = .number) : Tree .factor
  | factorParens (lp : Token) (hl : lp.symbol = .lparen) (inner : Tree .expr) (rp : Token)
      (hr : rp.symbol = .rparen) : Tree .factor
  | addOpPlus (tok : Token) (h : tok.symbol = .plus) : Tree .addOp
  | addOpMinus (tok : Token) (h : tok.symbol = .minus) : Tree .addOp
  | mulOpTimes (tok : Token) (h : tok.symbol = .times) : Tree .mulOp
  | mulOpSlash (tok : Token) (h : tok.symbol = .slash) : Tree .mulOp
  | exprTailMore (op : Tree .addOp) (term : Tree .term) (tail : Tree .exprTail) : Tree .exprTail
  | exprTailEnd : Tree .exprTail
  | termTailMore (op : Tree .mulOp) (factor : Tree .factor) (tail : Tree .termTail) :
      Tree .termTail
  | termTailEnd : Tree .termTail
  | factorIdentifier (tok : Token) (h : tok.symbol = .identifier) : Tree .factor

namespace Tree

variable {α : Type} {k : Kind}

/-- The production at the root of a tree. -/
def rule : Tree k → Production
  | exprRule .. => .exprRule
  | signAddOp _ => .signAddOp
  | signNone => .signNone
  | termRule .. => .termRule
  | factorNumber .. => .factorNumber
  | factorParens .. => .factorParens
  | addOpPlus .. => .addOpPlus
  | addOpMinus .. => .addOpMinus
  | mulOpTimes .. => .mulOpTimes
  | mulOpSlash .. => .mulOpSlash
  | exprTailMore .. => .exprTailMore
  | exprTailEnd => .exprTailEnd
  | termTailMore .. => .termTailMore
  | termTailEnd => .termTailEnd
  | factorIdentifier .. => .factorIdentifier

/-- The tokens a tree derives, in order. -/
def tokens : {k : Kind} → Tree k → List Token
  | _, exprRule s t h => s.tokens ++ t.tokens ++ h.tokens
  | _, signAddOp a => a.tokens
  | _, signNone => []
  | _, termRule f h => f.tokens ++ h.tokens
  | _, factorNumber tok _ => [tok]
  | _, factorParens lp _ e rp _ => lp :: e.tokens ++ [rp]
  | _, addOpPlus tok _ | _, addOpMinus tok _ | _, mulOpTimes tok _ | _, mulOpSlash tok _ => [tok]
  | _, exprTailMore a t h => a.tokens ++ t.tokens ++ h.tokens
  | _, exprTailEnd => []
  | _, termTailMore m f h => m.tokens ++ f.tokens ++ h.tokens
  | _, termTailEnd => []
  | _, factorIdentifier tok _ => [tok]

/-- The symbols of the tokens a tree derives. -/
def symbols (t : Tree k) : List Symbol := t.tokens.map Token.symbol

/-- The number of productions in a tree. -/
def nodes : {k : Kind} → Tree k → Nat
  | _, exprRule s t h => s.nodes + t.nodes + h.nodes + 1
  | _, signAddOp a => a.nodes + 1
  | _, termRule f h => f.nodes + h.nodes + 1
  | _, factorParens _ _ e _ _ => e.nodes + 1
  | _, exprTailMore a t h => a.nodes + t.nodes + h.nodes + 1
  | _, termTailMore m f h => m.nodes + f.nodes + h.nodes + 1
  | _, _ => 1

/-- The operator a sign, an additive or a multiplicative operator stands for; a missing sign is
`+`. Other trees stand for no operator. -/
def op : {k : Kind} → Tree k → Symbol
  | _, signAddOp a => a.op
  | _, signNone => .plus
  | _, addOpPlus .. => .plus
  | _, addOpMinus .. => .minus
  | _, mulOpTimes .. => .times
  | _, mulOpSlash .. => .slash
  | _, _ => .error

/-! ### Values -/

/-- The value of a numeral: what the arithmetic reads, or zero for a numeral it refuses. -/
def numeralValue (A : Arith α) (s : String) : α :=
  match A.numeral s with
  | .ok v => v
  | .error _ => A.zero

/-- The value of an identifier: its binding, or one. -/
def nameValue (A : Arith α) (b : Bindings α) (s : String) : α := (b.lookup s).getD A.one

/-- The value the semantic actions give a tree: a term negated by `-` plus the rest of its sum,
a factor inverted by `/` times the rest of its product. -/
def value (A : Arith α) (b : Bindings α) : {k : Kind} → Tree k → α
  | _, exprRule s t h | _, exprTailMore s t h =>
    A.add (if s.op = .minus then A.neg (t.value A b) else t.value A b) (h.value A b)
  | _, exprTailEnd => A.zero
  | _, termRule f h => A.mul (f.value A b) (h.value A b)
  | _, termTailMore m f h =>
    A.mul (if m.op = .slash then A.div A.one (f.value A b) else f.value A b) (h.value A b)
  | _, termTailEnd => A.one
  | _, factorNumber tok _ => numeralValue A tok.lexeme
  | _, factorParens _ _ e _ _ => e.value A b
  | _, factorIdentifier tok _ => nameValue A b tok.lexeme
  | _, _ => A.zero

end Tree

/-! ### Code -/

/-- The place and code of `op first ∘ rest`, the operands' places given, after `n`
temporaries: the first operand inverted if `op` is the inverting operator, then joined to the
rest unless identity elimination drops the join. -/
def Combine.code (c : Combine) (opt : Bool) (op : Symbol) (first rest : String) (n : Nat) :
    String × List Instr :=
  let (p, inv, m) :=
    if op = c.inverse then
      (temporary (n + 1), [⟨c.invert, c.identity, first, temporary (n + 1)⟩], n + 1)
    else (first, [], n)
  if !opt || rest != c.identity then
    (temporary (m + 1), inv ++ [⟨c.combine, p, rest, temporary (m + 1)⟩])
  else (p, inv)

/-- The place and code of `op first ∘ rest` after `n` temporaries: the code of the first
operand, then of the rest, then of the combination. -/
def Combine.emit (c : Combine) (opt : Bool) (op : Symbol) (n : Nat) (first : String × List Instr)
    (rest : Nat → String × List Instr) : String × List Instr :=
  let r := rest (n + first.2.length)
  let (p, own) := c.code opt op first.1 r.1 (n + first.2.length + r.2.length)
  (p, first.2 ++ r.2 ++ own)

namespace Tree

variable {α : Type} {k : Kind}

/-- The place of a tree's value and the code its actions emit after `n` temporaries, with
identity elimination on (`opt`) or off. -/
def gen (opt : Bool) : {k : Kind} → Tree k → Nat → String × List Instr
  | _, exprRule s t h, n | _, exprTailMore s t h, n =>
    Combine.sum.emit opt s.op n (t.gen opt n) (h.gen opt)
  | _, exprTailEnd, _ => (additiveIdentity, [])
  | _, termRule f h, n => Combine.product.emit opt .times n (f.gen opt n) (h.gen opt)
  | _, termTailMore m f h, n => Combine.product.emit opt m.op n (f.gen opt n) (h.gen opt)
  | _, termTailEnd, _ => (multiplicativeIdentity, [])
  | _, factorNumber tok _, _ | _, factorIdentifier tok _, _ => (tok.lexeme, [])
  | _, factorParens _ _ e _ _, n => e.gen opt n
  | _, _, _ => ("", [])

/-- What a tree's record holds once its action has run: an operator for the operator kinds. -/
def synthOp (t : Tree k) : Option Symbol := if k.isOperator then some t.op else none

/-- What a tree's record holds once its action has run: a value and its place for the other
kinds, after `n` temporaries. -/
def synthAttr (cfg : Config α) (t : Tree k) (n : Nat) : Option (α × String) :=
  if k.isOperator then none else some (t.value cfg.arith cfg.bindings, (t.gen cfg.optimize n).1)

end Tree

/-! ### Shapes of trees -/

namespace Tree

variable {k : Kind}

/-- An operator tree is one token and one node. -/
theorem op_shape {k : Kind} (t : Tree k) (hk : k = .addOp ∨ k = .mulOp) :
    t.tokens.length = 1 ∧ t.nodes = 1 := by
  cases t <;> simp_all [tokens, nodes]

/-- Signs and additive operators stand for `+` or `-`. -/
theorem op_additive {k : Kind} (t : Tree k) (hk : k = .sign ∨ k = .addOp) :
    t.op = .plus ∨ t.op = .minus := by
  cases t with
  | signAddOp a => exact op_additive a (.inr rfl)
  | _ => simp_all [op]

/-- Multiplicative operators stand for `*` or `/`. -/
theorem op_multiplicative (t : Tree .mulOp) : t.op = .times ∨ t.op = .slash := by
  cases t <;> simp [op]

/-- Operator trees emit no code. -/
theorem gen_operator {k : Kind} (t : Tree k) (hk : k.isOperator = true) (opt : Bool) (n : Nat) :
    t.gen opt n = ("", []) := by
  cases t <;> simp_all [gen, Kind.isOperator]

/-- Factors, terms and expressions derive at least one token. -/
theorem tokens_ne_nil {k : Kind} (t : Tree k) (hk : k = .factor ∨ k = .term ∨ k = .expr) :
    t.tokens ≠ [] := by
  cases t with
  | exprRule s t h => simp [tokens, tokens_ne_nil t (.inr (.inl rfl))]
  | termRule f h => simp [tokens, tokens_ne_nil f (.inl rfl)]
  | _ => simp_all [tokens]

/-- No token of a tree is the end marker. -/
theorem endOfInput_not_mem {k : Kind} (t : Tree k) {tok : Token} (h : tok ∈ t.tokens) :
    tok.symbol ≠ .endOfInput := by
  induction t with
  | factorNumber _ hs | addOpPlus _ hs | addOpMinus _ hs | mulOpTimes _ hs | mulOpSlash _ hs
  | factorIdentifier _ hs =>
    simp only [tokens, List.mem_singleton] at h
    subst h
    rw [hs]
    decide
  | factorParens _ hl _ _ hr ih =>
    simp only [tokens, List.cons_append, List.mem_cons, List.mem_append, List.not_mem_nil,
      or_false] at h
    rcases h with rfl | h | rfl
    · rw [hl]; decide
    · exact ih h
    · rw [hr]; decide
  | exprRule _ _ _ ih₁ ih₂ ih₃ | exprTailMore _ _ _ ih₁ ih₂ ih₃ | termTailMore _ _ _ ih₁ ih₂ ih₃ =>
    simp only [tokens, List.mem_append] at h
    rcases h with (h | h) | h
    · exact ih₁ h
    · exact ih₂ h
    · exact ih₃ h
  | termRule _ _ ih₁ ih₂ =>
    simp only [tokens, List.mem_append] at h
    rcases h with h | h
    · exact ih₁ h
    · exact ih₂ h
  | signAddOp _ ih => exact ih h
  | signNone | exprTailEnd | termTailEnd => simp [tokens] at h

/-- The slack of the node count over three nodes a token. -/
def nodeSlack : Kind → Nat
  | .expr => 5
  | .sign | .exprTail | .term | .termTail => 2
  | .factor | .addOp | .mulOp => 0

/-- A tree has fewer than three nodes a token, up to a constant of its kind. -/
theorem nodes_le {k : Kind} (t : Tree k) : t.nodes + 1 ≤ 3 * t.tokens.length + nodeSlack k := by
  induction t with
  | signAddOp a _ => have := op_shape a (.inl rfl); simp_all [nodes, tokens, nodeSlack]
  | exprTailMore a t h _ iht iht' =>
    have := op_shape a (.inl rfl)
    simp_all [nodes, tokens, nodeSlack]; omega
  | termTailMore m f h _ ihf ihh =>
    have := op_shape m (.inr rfl)
    simp_all [nodes, tokens, nodeSlack]; omega
  | _ => simp_all [nodes, tokens, nodeSlack] <;> omega

end Tree

/-! ### The expression a tree spells -/

/-- Arithmetic expressions over numerals and names. -/
inductive Ast
  | number (lexeme : String)
  | name (lexeme : String)
  | neg (a : Ast)
  | add (a b : Ast)
  | sub (a b : Ast)
  | mul (a b : Ast)
  | div (a b : Ast)
  deriving DecidableEq, Repr

/-- The value of an expression: numerals are read, names looked up (one when unbound), and the
operations are the arithmetic's. -/
def Ast.eval {α : Type} (A : Arith α) (b : Bindings α) : Ast → α
  | number s => Tree.numeralValue A s
  | name s => Tree.nameValue A b s
  | neg a => A.neg (a.eval A b)
  | add a c => A.add (a.eval A b) (c.eval A b)
  | sub a c => A.sub (a.eval A b) (c.eval A b)
  | mul a c => A.mul (a.eval A b) (c.eval A b)
  | div a c => A.div (a.eval A b) (c.eval A b)

namespace Tree

variable {k : Kind}

mutual

/-- The expression an `Expr`, `Term` or `Factor` tree spells; the sign applies to the first
term only. -/
def ast : {k : Kind} → Tree k → Ast
  | _, exprRule s t h => h.extend (if s.op = .minus then .neg t.ast else t.ast)
  | _, termRule f h => h.extend f.ast
  | _, factorNumber tok _ => .number tok.lexeme
  | _, factorParens _ _ e _ _ => e.ast
  | _, factorIdentifier tok _ => .name tok.lexeme
  | _, _ => .number ""

/-- The expression a tail of a sum or product makes of the operand on its left: each operator
takes what is on its left as its first operand. -/
def extend : {k : Kind} → Tree k → Ast → Ast
  | _, exprTailMore a t h, left => h.extend (if a.op = .minus then .sub left t.ast else .add left t.ast)
  | _, termTailMore m f h, left => h.extend (if m.op = .slash then .div left f.ast else .mul left f.ast)
  | _, _, left => left

end

end Tree

end ExprTranslate
