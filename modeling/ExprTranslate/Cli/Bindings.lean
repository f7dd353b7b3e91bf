import ExprTranslate.Token.Scanner
import ExprTranslate.Double.Read
import ExprTranslate.Arith
/-!
# Bindings on the command line

A binding `name=value` is split at its first `=`. The name must scan to one
identifier, and is taken as scanned, so lower-cased; the value, without
blanks around it, must read as a number. A later binding of a name replaces
an earlier one.
-/

namespace ExprTranslate.Cli

/-- The bindings with a name bound to a value, replacing an earlier binding of it. -/
def rebind (b : Bindings Float) (name : String) (v : Float) : Bindings Float :=
  (name, v) :: b.filter (·.1 != name)

/-- A name and a value as a binding, or why they are none. -/
def readBinding (name value : String) : Except String (String × Float) :=
  match scanAll [name] with
  | [t, _] =>
    if t.symbol = .identifier then
      let v := Text.trimBlanks value
      match Double.read v with
      | .ok x => .ok (t.lexeme, x)
      | .error e => .error ("binding " ++ Text.quote t.lexeme ++ ": " ++ e.message v)
    else .error ("binding " ++ Text.quote name ++ ": not an identifier")
  | _ => .error ("binding " ++ Text.quote name ++ ": not an identifier")

/-- The bindings of a list of `name=value` items, or the first problem. -/
def readBindings (items : List String) : Except String (Bindings Float) :=
  let step (b : Bindings Float) (item : String) : Except String (Bindings Float) :=
    match item.splitOn "=" with
    | name :: rest@(_ :: _) => (fun (n, v) => rebind b n v) <$> readBinding name ("=".intercalate rest)
    | _ => .error ("binding " ++ Text.quote item ++ ": expected name=value")
  items.foldlM step []

end ExprTranslate.Cli
