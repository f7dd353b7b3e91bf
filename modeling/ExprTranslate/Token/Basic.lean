import ExprTranslate.Token.Symbol
import ExprTranslate.Text.Quoted
/-!
# Tokens

A token is a word of the input with its symbol and the number of the line it
was read from. Its category follows from its symbol. The end of the input is
marked by a token with symbol `endOfInput`, an empty lexeme, and the number of
lines read as its line.
-/

namespace ExprTranslate

/-- A word of the input, classified. -/
structure Token where
  lexeme : String
  symbol : Symbol
  line : Int
  deriving DecidableEq, Repr, Inhabited

namespace Token

/-- The category of a token, which its symbol determines. -/
def category (t : Token) : Category := t.symbol.category

/-- The token that marks the end of an input of `lines` lines. -/
def endMarker (lines : Int) : Token := ⟨"", .endOfInput, lines⟩

/-- Whether the token stands for an unrecognized word. -/
def isError (t : Token) : Bool := t.symbol = .error

/-- The short form of a token: `<EndOfInput>` for the end marker, otherwise the symbol and
the quoted lexeme in angle brackets. -/
def render (t : Token) : String :=
  if t.symbol = .endOfInput then "<EndOfInput>"
  else "<" ++ t.symbol.name ++ " " ++ Text.quote t.lexeme ++ ">"

end Token

end ExprTranslate
