import ExprTranslate.Token.Basic
/-!
# The token report

One line per token: its text padded to twelve characters, its category padded
to eleven, and its symbol, separated by single spaces. The end marker shows
as `<EndOfInput>`. Padding counts characters, not bytes.
-/

namespace ExprTranslate

/-- Pads on the right with spaces to at least `width` characters. -/
def padRight (s : String) (width : Nat) : String :=
  s ++ String.ofList (List.replicate (width - s.length) ' ')

/-- The report line of a token, with its line feed. -/
def Token.reportLine (t : Token) : String :=
  let text := if t.symbol = .endOfInput then t.render else t.lexeme
  padRight text 12 ++ " " ++ padRight t.category.name 11 ++ " " ++ t.symbol.name ++ "\n"

/-- The report of a list of tokens. -/
def report (ts : List Token) : String := String.join (ts.map Token.reportLine)

end ExprTranslate
