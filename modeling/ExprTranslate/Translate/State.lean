import ExprTranslate.Translate.Attribute
import ExprTranslate.Translate.Error
import ExprTranslate.Grammar.Table
import ExprTranslate.Code.Basic
import ExprTranslate.Arith
/-!
# The state of the translator

The translator parses tokens with a selection table, a symbol stack and an
attribute stack (the stack of groups whose records are still being
synthesized), and translates while it parses: semantic actions compute
values and emit three-address code. Its state is one value, `State`; its
steps run in `Run`, which keeps the state reached when a step fails, so
that the code emitted before an error is not lost.

A matched number or identifier is held until the action of the production
that consumes it takes it. With identity elimination on, adding the place
`0` and multiplying by the place `1` emit no instruction.

Observed events (symbols popped, productions chosen, tokens matched,
actions executed) are recorded when the configuration asks for them.
-/

namespace ExprTranslate

/-- A matched number or identifier waiting for its action. -/
structure Literal (α : Type) where
  sym : Symbol
  text : String
  value : α

/-- What the translator is given besides its tokens. -/
structure Config (α : Type) where
  arith : Arith α
  table : Table
  optimize : Bool
  bindings : Bindings α
  /-- Whether events are recorded. -/
  observe : Bool := false

/-- What the translator reports as it runs. A popped symbol comes with the lookahead, the
cursor, and both stacks after the pop, top first; an executed action with its owner and the
records of the groups on the attribute stack, top first. -/
inductive Event (α : Type)
  | popped (e : Entry) (la : Token) (cursor : Nat) (stack : List Entry) (groups : List Nat)
  | chosen (p : Production)
  | matched (t : Token)
  | executed (p : Production) (owner : Instance α) (groups : List (List (Instance α)))

/-- The state of the translator. -/
structure State (α : Type) where
  tokens : Array Token
  cursor : Nat := 0
  steps : Nat := 0
  /-- The symbol stack, top first. -/
  syms : List Entry
  /-- The attribute stack, top first, as group numbers. -/
  groups : List Nat
  records : Array (Instance α)
  groupTable : Array Group
  held : Option (Literal α) := none
  code : Array Instr := #[]
  temps : Nat := 0
  events : Array (Event α) := #[]

/-- A step of the translator: it may fail, keeping the state it reached. -/
abbrev Run (α : Type) := ExceptT TranslateError (StateM (State α))

variable {α : Type}

/-- Fails with an internal error not yet tied to a production. -/
def internal {β : Type} (msg : String) : Run α β := throw (.internal ⟨0, msg⟩)

/-- The record with a number. -/
def getRecord (i : Nat) : Run α (Instance α) := do
  match (← get).records[i]? with
  | some r => pure r
  | none => internal "missing attribute record"

/-- Changes the record with a number. -/
def modifyRecord (i : Nat) (f : Instance α → Instance α) : Run α Unit :=
  modify fun s => { s with records := s.records.modify i f }

/-- The group with a number. -/
def getGroup (g : Nat) : Run α Group := do
  match (← get).groupTable[g]? with
  | some grp => pure grp
  | none => internal "missing attribute group"

/-- Changes the group with a number. -/
def modifyGroup (g : Nat) (f : Group → Group) : Run α Unit :=
  modify fun s => { s with groupTable := s.groupTable.modify g f }

/-- Records an event, made from the state, if the configuration asks for events. -/
def note (cfg : Config α) (e : State α → Event α) : Run α Unit :=
  if cfg.observe then modify fun s => { s with events := s.events.push (e s) } else pure ()

/-- The lookahead token: the token at the cursor, or the last one past the end. -/
def State.lookahead (s : State α) : Token :=
  match s.tokens[s.cursor]? with
  | some t => t
  | none => s.tokens.back?.getD (Token.endMarker 0)

/-- The group on top of the attribute stack. -/
def State.topGroup (s : State α) : Option Nat := s.groups.head?

/-- The sizes of the symbol stack and of the attribute stack. -/
def State.depth (s : State α) : Nat × Nat := (s.syms.length, s.groups.length)

/-- Appends an instruction with a fresh temporary as destination, and gives the temporary. -/
def emit (op : Char) (left right : String) : Run α String :=
  modifyGet fun s =>
    let dest := temporary (s.temps + 1)
    (dest, { s with temps := s.temps + 1, code := s.code.push ⟨op, left, right, dest⟩ })

/-- Holds a matched number or identifier for the next leaf action: a number is read, an
identifier takes its bound value or one. -/
def hold (cfg : Config α) (tok : Token) (pos : Nat) : Run α Unit := do
  if let some lit := (← get).held then
    internal ("literal " ++ Text.quote lit.text ++ " has not been consumed")
  else
    let value ←
      if tok.symbol = .number then
        match cfg.arith.numeral tok.lexeme with
        | .ok v => pure v
        | .error e => throw (.numeral tok.line pos tok.lexeme e)
      else if tok.symbol = .identifier then
        pure ((cfg.bindings.lookup tok.lexeme).getD cfg.arith.one)
      else internal ("cannot hold " ++ tok.render)
    modify fun s => { s with held := some ⟨tok.symbol, tok.lexeme, value⟩ }

/-- Takes the held literal, which has to be of the given symbol. -/
def take (sym : Symbol) : Run α (Literal α) := do
  match (← get).held with
  | none => internal ("no " ++ sym.name ++ " literal held")
  | some lit =>
    modify fun s => { s with held := none }
    if lit.sym = sym then pure lit
    else internal ("expected " ++ sym.name ++ " literal, holding " ++ lit.sym.name)

end ExprTranslate
