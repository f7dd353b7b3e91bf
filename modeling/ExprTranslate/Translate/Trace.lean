import ExprTranslate.Translate.Engine
import ExprTranslate.Double.Text
/-!
# Trace lines

The events of the translator as text, one line each; stacks are listed from
the bottom up:

* `pop S la=<T> cursor=N depth=A/B stack=[…]`
* `expand id: Lhs ➞ …`
* `match <T>`
* `action id Owner span=(lo…hi) groups=[[…] […]]`
-/

namespace ExprTranslate

/-- The text of a record with a double value. -/
def Instance.text (i : Instance Float) : String := i.render Double.text

/-- The trace line of an event. -/
def Event.render : Event Float → String
  | .popped e la cursor stack groups =>
    "pop " ++ e.render ++ " la=" ++ la.render ++ " cursor=" ++ toString cursor ++ " depth=" ++
      toString stack.length ++ "/" ++ toString groups.length ++ " stack=[" ++
      " ".intercalate (stack.reverse.map Entry.render) ++ "]"
  | .chosen p => "expand " ++ p.render
  | .matched t => "match " ++ t.render
  | .executed p owner groups =>
    "action " ++ toString p.id ++ " " ++ owner.text ++ " span=" ++ owner.span.render ++
      " groups=[" ++
      " ".intercalate (groups.reverse.map fun g => "[" ++ " ".intercalate (g.map Instance.text) ++ "]") ++
      "]"

end ExprTranslate
