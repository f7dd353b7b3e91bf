import ExprTranslate.Token.Symbol
/-!
# Grammars

A grammar over the token symbols has the eight non-terminals of arithmetic
expressions (`Kind`) and numbered productions. A right-hand side is a list
of grammar symbols: terminals, non-terminals, and action symbols, which mark
where a production's semantic action runs. The terminal `empty` stands for
the empty string: an ε-production has it as its only symbol.

A grammar is built from rule descriptions in order; `Grammar.build` refuses
a rule without symbols, an ε-rule with symbols, an empty list of rules, a
production number used twice, and a non-terminal used without a rule of its
own. The first rule's left-hand side is the start symbol.
-/

namespace ExprTranslate

/-- The non-terminals of the expression grammar. -/
inductive Kind
  | expr
  | sign
  | exprTail
  | term
  | termTail
  | factor
  | addOp
  | mulOp
  deriving DecidableEq, Repr, Inhabited

namespace Kind

/-- The kinds, in order. -/
def all : List Kind := [.expr, .sign, .exprTail, .term, .termTail, .factor, .addOp, .mulOp]

/-- The number of a kind, 0 to 7. -/
def code : Kind → Nat
  | .expr => 0
  | .sign => 1
  | .exprTail => 2
  | .term => 3
  | .termTail => 4
  | .factor => 5
  | .addOp => 6
  | .mulOp => 7

/-- The name of a kind. -/
def name : Kind → String
  | .expr => "Expr"
  | .sign => "Sign"
  | .exprTail => "ExprTail"
  | .term => "Term"
  | .termTail => "TermTail"
  | .factor => "Factor"
  | .addOp => "AddOp"
  | .mulOp => "MulOp"

/-- The kind with a number. -/
def ofCode? (n : Int) : Option Kind := if 0 ≤ n then all[n.toNat]? else none

/-- The kind with a name. -/
def ofName? (s : String) : Option Kind := all.find? (·.name == s)

/-- The name of a kind given by number; a number outside 0 to 7 prints as `Kind(n)`. -/
def nameOfCode (n : Int) : String :=
  match ofCode? n with
  | some k => k.name
  | none => "Kind(" ++ toString n ++ ")"

/-- Whether the kind stands for an operator: signs and additive and multiplicative operators
synthesize an operator, the other kinds a value. -/
def isOperator : Kind → Bool
  | .sign | .addOp | .mulOp => true
  | _ => false

end Kind

/-- A symbol of a grammar: a terminal, a non-terminal, or the action of a production. -/
inductive GSym
  | terminal (s : Symbol)
  | nonterminal (k : Kind)
  | action (id : Int)
  deriving DecidableEq, Repr, Inhabited

namespace GSym

/-- The class of a grammar symbol: 0 terminal, 1 non-terminal, 2 action. -/
def classCode : GSym → Nat
  | .terminal _ => 0
  | .nonterminal _ => 1
  | .action _ => 2

/-- Whether the symbol is the terminal for the empty string. -/
def isEpsilon : GSym → Bool
  | .terminal s => s = .empty
  | _ => false

/-- The text of a grammar symbol: a kind, `@id` for an action, `ε`, or a symbol name. -/
def render : GSym → String
  | .nonterminal k => k.name
  | .action id => "@" ++ toString id
  | .terminal s => if s = .empty then "ε" else s.name

/-- The number of the production an action symbol stands for, 0 for other symbols. -/
def actionId : GSym → Int
  | .action id => id
  | _ => 0

/-- The text of a grammar symbol with its class, whether it is `ε`, and its action number. -/
def describe (g : GSym) : String :=
  g.render ++ " class=" ++ toString g.classCode ++ " eps=" ++ toString g.isEpsilon ++
    " action=" ++ toString g.actionId

/-- The description of the non-terminal with a kind code; a code that names no kind is shown
as `Kind(n)`. -/
def describeKindCode (n : Int) : String :=
  match Kind.ofCode? n with
  | some k => (GSym.nonterminal k).describe
  | none => Kind.nameOfCode n ++ " class=1 eps=false action=0"

end GSym

/-- A numbered production `lhs ➞ rhs`. -/
structure Production where
  id : Int
  lhs : Kind
  rhs : List GSym
  deriving DecidableEq, Repr, Inhabited

namespace Production

/-- Whether the production derives only the empty string by its one symbol `ε`. -/
def isEpsilon (p : Production) : Bool :=
  match p.rhs with
  | [s] => s.isEpsilon
  | _ => false

/-- The non-terminals of the right-hand side, in order. -/
def nonTerminals (p : Production) : List Kind :=
  p.rhs.filterMap fun
    | .nonterminal k => some k
    | _ => none

/-- The text `id: lhs ➞ s₁ s₂ …`. -/
def render (p : Production) : String :=
  toString p.id ++ ": " ++ p.lhs.name ++ " ➞" ++ String.join (p.rhs.map (" " ++ ·.render))

end Production

/-- A grammar: a name, a start symbol and its productions in order. -/
structure Grammar where
  name : String
  start : Kind
  rules : List Production
  deriving Inhabited

/-- The production with a number. -/
def Grammar.rule? (g : Grammar) (id : Int) : Option Production := g.rules.find? (·.id == id)

/-! ### Building a grammar

The builder takes kinds by number, as the kind type of the source is any 8-bit number, of which
0 to 7 name kinds. It checks production numbers and that every non-terminal used has a rule of
its own, not that the numbers name kinds: a grammar with another number is built, and analysing
it fails at the first such number it reads. -/

/-- A symbol of a right-hand side as the builder takes it: a terminal, or a non-terminal given by
the number of its kind. -/
inductive SymSpec
  | terminal (s : Symbol)
  | nonterminal (code : Int)
  deriving DecidableEq, Repr, Inhabited

/-- The non-terminal of a kind. -/
def SymSpec.kind (k : Kind) : SymSpec := .nonterminal k.code

/-- A production as the builder keeps it: kinds by number. -/
structure RawProduction where
  id : Int
  lhs : Int
  rhs : List SymSpec
  deriving DecidableEq, Repr, Inhabited

/-- The numbers of the non-terminals of the right-hand side, in order. -/
def RawProduction.nonTerminals (p : RawProduction) : List Int :=
  p.rhs.filterMap fun
    | .nonterminal c => some c
    | .terminal _ => none

/-- A grammar as the builder returns it: its kinds by number, the first rule's left-hand side as
its start symbol. -/
structure RawGrammar where
  name : String
  start : Int
  rules : List RawProduction
  deriving Inhabited

/-- The description of one rule: the number of its left-hand side, its symbols, its number, and
whether it is meant as an ε-rule. -/
structure RuleSpec where
  lhs : Int
  rhs : List SymSpec
  id : Int
  epsilon : Bool := false

/-- Why a grammar cannot be built. -/
inductive BuildError
  | emptyRhs (id : Int) (lhs : Int)
  | epsilonWithSymbols (id : Int) (lhs : Int)
  | noProductions (name : String)
  | duplicateId (name : String) (id : Int)
  | undefined (name : String) (k : Int)

/-- The message of a build error. -/
def BuildError.message : BuildError → String
  | .emptyRhs id k =>
    "production " ++ toString id ++ " for " ++ Kind.nameOfCode k ++
      " has empty right hand side, use Epsilon"
  | .epsilonWithSymbols id k =>
    "ε-production " ++ toString id ++ " for " ++ Kind.nameOfCode k ++ " has symbols"
  | .noProductions n => "grammar " ++ n ++ " has no productions"
  | .duplicateId n id => "grammar " ++ n ++ ": duplicate production id " ++ toString id
  | .undefined n k => "grammar " ++ n ++ ": non-terminal " ++ Kind.nameOfCode k ++ " has no productions"

/-- The production a rule description makes, or why it makes none. -/
def RuleSpec.production (r : RuleSpec) : Except BuildError RawProduction :=
  if r.epsilon then
    if r.rhs.isEmpty then .ok ⟨r.id, r.lhs, [.terminal .empty]⟩
    else .error (.epsilonWithSymbols r.id r.lhs)
  else if r.rhs.isEmpty then .error (.emptyRhs r.id r.lhs)
  else .ok ⟨r.id, r.lhs, r.rhs⟩

/-- The first number used twice, in order. -/
def firstDuplicate : List Int → List Int → Option Int
  | _, [] => none
  | seen, id :: ids => if seen.contains id then some id else firstDuplicate (id :: seen) ids

/-- Builds a grammar from rule descriptions; the first error wins. -/
def RawGrammar.build (name : String) (specs : List RuleSpec) : Except BuildError RawGrammar :=
  match specs.mapM RuleSpec.production with
  | .error e => .error e
  | .ok [] => .error (.noProductions name)
  | .ok (p :: ps) =>
    let rules := p :: ps
    match firstDuplicate [] (rules.map (·.id)) with
    | some id => .error (.duplicateId name id)
    | none =>
      let defined := rules.map (·.lhs)
      match (rules.flatMap (·.nonTerminals)).find? (fun k => !defined.contains k) with
      | some k => .error (.undefined name k)
      | none => .ok ⟨name, p.lhs, rules⟩

/-- The grammar symbol a builder's symbol stands for, when its number names a kind. -/
def SymSpec.kind? : SymSpec → Option GSym
  | .terminal s => some (.terminal s)
  | .nonterminal c => (Kind.ofCode? c).map .nonterminal

/-- The production, when all its numbers name kinds. -/
def RawProduction.kinds? (p : RawProduction) : Option Production :=
  match Kind.ofCode? p.lhs, p.rhs.mapM SymSpec.kind? with
  | some lhs, some rhs => some ⟨p.id, lhs, rhs⟩
  | _, _ => none

/-- The grammar, when all its numbers name kinds. -/
def RawGrammar.kinds? (g : RawGrammar) : Option Grammar :=
  match Kind.ofCode? g.start, g.rules.mapM RawProduction.kinds? with
  | some start, some rules => some ⟨g.name, start, rules⟩
  | _, _ => none

end ExprTranslate
