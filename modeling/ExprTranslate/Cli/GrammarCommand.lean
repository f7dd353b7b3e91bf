import ExprTranslate.Cli.Display
import ExprTranslate.Grammar.Expressions
import ExprTranslate.Grammar.Ebnf
import ExprTranslate.Text.Blank
/-!
# The command `grammar`

Without flags it shows three sections: the rules of the expression grammar
in order, a table of each non-terminal's nullability, FIRST and FOLLOW
sets, and the selection table, one line per entry. With `--ebnf` it shows
the EBNF description and confirms that it verifies.
-/

namespace ExprTranslate.Cli

/-- Symbol names separated by spaces. -/
def symbolList (ss : List Symbol) : String := " ".intercalate (ss.map Symbol.name)

/-- The rules, the sets and the selection table of a table-driven grammar. -/
def grammarReport (t : Table) : String :=
  let a := t.analysis
  sectionTitle "Rules" ++ String.join (t.grammar.rules.map (·.render ++ "\n")) ++
  sectionTitle "FIRST and FOLLOW" ++
  table (["non-terminal", "nullable", "FIRST", "FOLLOW"] ::
    Kind.all.map fun k => [k.name, toString (a.nullable k), symbolList (a.first k), symbolList (a.follow k)]) ++
  sectionTitle "Selection table" ++
  table (["non-terminal", "lookahead", "production"] ::
    t.each.map fun (k, s, p) => [k.name, s.name, p.render])

/-- Runs `grammar`. -/
def grammarCommand (ebnf : Bool) : Step Unit :=
  if ebnf then
    match Ebnf.check with
    | .error e => throw e
    | .ok g =>
      say (Text.trimBlanks Ebnf.description ++ "\n" ++
        Label.success.line (toString g.length ++ " productions, all reachable from " ++ Kind.expr.name))
  else say (grammarReport expressionTable)

end ExprTranslate.Cli
