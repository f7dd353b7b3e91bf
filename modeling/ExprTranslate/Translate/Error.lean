import ExprTranslate.Grammar.Basic
import ExprTranslate.Token.Basic
import ExprTranslate.Double.Read
/-!
# Errors of the translator

Translating stops at the first error:

* a syntax error: a terminal on the stack differs from the lookahead, or a
  non-terminal has no production for it; it names the position, the token
  found, the symbols that would have been accepted, and, when expanding, the
  non-terminal;
* a numeral the reader refuses, with its line and position;
* an internal error: an inconsistency of the translator, such as a missing
  attribute record or an attribute set twice, which no input reaches with
  the expression grammar, only with other grammars; it names the production
  whose action failed, 0 if none;
* a translator used a second time.
-/

namespace ExprTranslate

/-- A token that does not fit the grammar. -/
structure SyntaxError where
  pos : Nat
  found : Token
  expected : List Symbol
  expanding : Bool
  nonterm : Kind

/-- `syntax error in line L at token P: expected A | B, found F`, with the non-terminal when
expanding. -/
def SyntaxError.message (e : SyntaxError) : String :=
  let found :=
    if e.found.symbol = .endOfInput then "EndOfInput"
    else e.found.symbol.name ++ " " ++ Text.quote e.found.lexeme
  let msg := "syntax error in line " ++ toString e.found.line ++ " at token " ++
    toString (e.pos + 1) ++ ": expected " ++ " | ".intercalate (e.expected.map Symbol.name) ++
    ", found " ++ found
  if e.expanding then msg ++ " (no production for " ++ e.nonterm.name ++ ")" else msg

/-- An inconsistency of the translator, in the action of a production (0 if none). -/
structure InternalError where
  production : Int
  msg : String

/-- `internal error: msg`, or `internal error in action id: msg`. -/
def InternalError.message (e : InternalError) : String :=
  if e.production = 0 then "internal error: " ++ e.msg
  else "internal error in action " ++ toString e.production ++ ": " ++ e.msg

/-- Why translating failed. -/
inductive TranslateError
  | syntaxError (e : SyntaxError)
  | numeral (line : Int) (pos : Nat) (lexeme : String) (e : Double.ReadError)
  | internal (e : InternalError)
  | alreadyUsed

/-- The message of an error of the translator. -/
def TranslateError.message : TranslateError → String
  | .syntaxError e => e.message
  | .numeral line pos lexeme e =>
    "line " ++ toString line ++ ", token " ++ toString (pos + 1) ++ ": numeral " ++ lexeme ++ ": " ++
      e.message lexeme
  | .internal e => e.message
  | .alreadyUsed => "parser has already been used for a translation"

end ExprTranslate
