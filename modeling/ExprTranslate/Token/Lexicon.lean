import ExprTranslate.Token.Basic
/-!
# The lexicon

The words of the language: thirteen keywords, eleven operators and five
delimiters, each with its symbol; numbers `[0-9]+`; identifiers
`[a-z][a-z0-9]*`. A word is classified whole: the first keyword, operator or
delimiter equal to it, else a number, else an identifier, else an error.

Before a line is split into words, every operator and delimiter in it is set
apart by a space on each side, the two-character operators `<=`, `>=` and
`:=` before their one-character prefixes; so `x:=1` reads as three words.
-/

namespace ExprTranslate.Lexicon

/-- The keywords, in order. -/
def keywords : List (String × Symbol) :=
  [("begin", .beginSym), ("call", .callSym), ("const", .constSym), ("do", .doSym),
   ("end", .endSym), ("if", .ifSym), ("odd", .oddSym), ("procedure", .procedureSym),
   ("read", .readSym), ("then", .thenSym), ("var", .varSym), ("while", .whileSym),
   ("write", .writeSym)]

/-- The operators, in order. -/
def operators : List (String × Symbol) :=
  [("+", .plus), ("-", .minus), ("*", .times), ("/", .slash), ("=", .eql), ("#", .neq),
   ("<=", .leq), ("<", .lss), (">=", .geq), (">", .gtr), (":=", .becomes)]

/-- The delimiters, in order. -/
def delimiters : List (String × Symbol) :=
  [("(", .lparen), (")", .rparen), (",", .comma), (";", .semicolon), (".", .period)]

/-- Whether a character is one of the one-character operators or delimiters. -/
def isSingle (c : Char) : Bool :=
  c = '+' || c = '-' || c = '*' || c = '/' || c = '=' || c = '#' || c = '<' || c = '>' ||
    c = '(' || c = ')' || c = ',' || c = ';' || c = '.'

/-- The characters of a lexeme set apart by spaces. -/
def spaced (lx : List Char) : List Char := ' ' :: lx ++ [' ']

/-- Sets every operator and delimiter apart by spaces, longest first. -/
def separate : List Char → List Char
  | [] => []
  | '<' :: '=' :: cs => spaced ['<', '='] ++ separate cs
  | '>' :: '=' :: cs => spaced ['>', '='] ++ separate cs
  | ':' :: '=' :: cs => spaced [':', '='] ++ separate cs
  | c :: cs => if isSingle c then spaced [c] ++ separate cs else c :: separate cs

/-- A line with its operators and delimiters set apart. -/
def normalize (line : String) : String := String.ofList (separate line.toList)

/-- Whether a word is a number: one or more ASCII digits. -/
def isNumeral (w : String) : Bool := !w.isEmpty && w.all fun c => '0' ≤ c && c ≤ '9'

/-- Whether a word is an identifier: a small ASCII letter, then small letters and digits. -/
def isIdentifier (w : String) : Bool :=
  match w.toList with
  | c :: cs =>
    ('a' ≤ c && c ≤ 'z') && cs.all fun c => ('a' ≤ c && c ≤ 'z') || ('0' ≤ c && c ≤ '9')
  | [] => false

/-- The symbol of a whole word. -/
def classify (w : String) : Symbol :=
  match (keywords ++ operators ++ delimiters).find? (·.1 == w) with
  | some (_, s) => s
  | none =>
    if isNumeral w then .number
    else if isIdentifier w then .identifier
    else .error

end ExprTranslate.Lexicon
