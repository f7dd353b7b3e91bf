/-!
# Symbols and categories of tokens

A symbol names what a word of the input is: one of the thirteen keywords, an
operator, a delimiter, a number, an identifier, the end of input, or an
unrecognized word; one more symbol, `empty`, stands for the empty string in
grammars. Symbols are numbered 0 to 33; a symbol is kept as its number, so
that a token may also carry a number outside that range, which names no
symbol and belongs to the error category.

Each symbol belongs to a category: keywords 1 to 13, operators 14 to 24,
delimiters 25 to 29, numbers 30, identifiers 31, and errors for all else.
-/

namespace ExprTranslate

/-- A token symbol, by number. -/
structure Symbol where
  code : Int
  deriving DecidableEq, Repr, Hashable, Inhabited

namespace Symbol

def error : Symbol := ⟨0⟩
def beginSym : Symbol := ⟨1⟩
def callSym : Symbol := ⟨2⟩
def constSym : Symbol := ⟨3⟩
def doSym : Symbol := ⟨4⟩
def endSym : Symbol := ⟨5⟩
def ifSym : Symbol := ⟨6⟩
def oddSym : Symbol := ⟨7⟩
def procedureSym : Symbol := ⟨8⟩
def readSym : Symbol := ⟨9⟩
def thenSym : Symbol := ⟨10⟩
def varSym : Symbol := ⟨11⟩
def whileSym : Symbol := ⟨12⟩
def writeSym : Symbol := ⟨13⟩
def plus : Symbol := ⟨14⟩
def minus : Symbol := ⟨15⟩
def times : Symbol := ⟨16⟩
def slash : Symbol := ⟨17⟩
def eql : Symbol := ⟨18⟩
def neq : Symbol := ⟨19⟩
def leq : Symbol := ⟨20⟩
def lss : Symbol := ⟨21⟩
def geq : Symbol := ⟨22⟩
def gtr : Symbol := ⟨23⟩
def becomes : Symbol := ⟨24⟩
def lparen : Symbol := ⟨25⟩
def rparen : Symbol := ⟨26⟩
def comma : Symbol := ⟨27⟩
def semicolon : Symbol := ⟨28⟩
def period : Symbol := ⟨29⟩
def number : Symbol := ⟨30⟩
def identifier : Symbol := ⟨31⟩
def endOfInput : Symbol := ⟨32⟩
def empty : Symbol := ⟨33⟩

/-- How many symbols there are. -/
def count : Nat := 34

/-- The names of the symbols, in the order of their numbers. -/
def names : List String :=
  ["Error", "BeginSym", "CallSym", "ConstSym", "DoSym", "EndSym", "IfSym", "OddSym",
   "ProcedureSym", "ReadSym", "ThenSym", "VarSym", "WhileSym", "WriteSym",
   "Plus", "Minus", "Times", "Slash", "Eql", "Neq", "Leq", "Lss", "Geq", "Gtr", "Becomes",
   "Lparen", "Rparen", "Comma", "Semicolon", "Period",
   "Number", "Identifier", "EndOfInput", "Empty"]

/-- The symbols, in order. -/
def all : List Symbol := (List.range count).map fun (i : Nat) => (⟨i⟩ : Symbol)

/-- Whether the number names a symbol. -/
def IsKnown (s : Symbol) : Prop := 0 ≤ s.code ∧ s.code < count

instance (s : Symbol) : Decidable s.IsKnown := by unfold IsKnown; infer_instance

/-- The name of a symbol; a number outside the range prints as `Symbol(n)`. -/
def name (s : Symbol) : String :=
  match names[s.code.toNat]? with
  | some n => if 0 ≤ s.code then n else "Symbol(" ++ toString s.code ++ ")"
  | none => "Symbol(" ++ toString s.code ++ ")"

/-- The symbol with a given name. -/
def ofName? (n : String) : Option Symbol :=
  (names.idxOf? n).map fun (i : Nat) => (⟨i⟩ : Symbol)

end Symbol

/-- The category of a token. -/
inductive Category
  | error
  | keyword
  | operator
  | delimiter
  | number
  | identifier
  deriving DecidableEq, Repr, Inhabited

namespace Category

/-- The number of a category. -/
def code : Category → Int
  | .error => 0
  | .keyword => 1
  | .operator => 2
  | .delimiter => 3
  | .number => 4
  | .identifier => 5

/-- The name of a category. -/
def name : Category → String
  | .error => "Error"
  | .keyword => "Keyword"
  | .operator => "Operator"
  | .delimiter => "Delimiter"
  | .number => "Number"
  | .identifier => "Identifier"

/-- The name of a category given by number; a number outside 0 to 5 prints as
`Category(n)`. -/
def nameOfCode (n : Int) : String :=
  match ([Category.error, .keyword, .operator, .delimiter, .number, .identifier])[n.toNat]? with
  | some c => if 0 ≤ n then c.name else "Category(" ++ toString n ++ ")"
  | none => "Category(" ++ toString n ++ ")"

end Category

/-- The category a symbol belongs to. -/
def Symbol.category (s : Symbol) : Category :=
  if 1 ≤ s.code ∧ s.code ≤ 13 then .keyword
  else if 14 ≤ s.code ∧ s.code ≤ 24 then .operator
  else if 25 ≤ s.code ∧ s.code ≤ 29 then .delimiter
  else if s.code = 30 then .number
  else if s.code = 31 then .identifier
  else .error

end ExprTranslate
