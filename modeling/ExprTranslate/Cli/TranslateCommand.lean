import ExprTranslate.Cli.Display
import ExprTranslate.Cli.World
import ExprTranslate.Cli.Bindings
import ExprTranslate.Translate.Engine
import ExprTranslate.Grammar.Expressions
import ExprTranslate.Code.Machine
import ExprTranslate.Double.Text
/-!
# The command `translate`

The inputs are the expression given with `-e`, or else the files named (a
file `-` is standard input), or else standard input. Every input is read
first; one that cannot be read stops the command with its error. Then each
input is scanned and translated, and, when asked, its code is run with the
same bindings and must compute the value synthesized while translating (a
value that is not a number never equals itself).

For each input the command shows its name, its unrecognized words, the code,
and then the value, the place that holds it and the number of temporaries,
or the error. It fails if some input failed.
-/

namespace ExprTranslate.Cli

/-- How expressions are translated: with identity elimination or not, and with bindings. -/
structure Settings where
  optimize : Bool
  bindings : Bindings Float

/-- The configuration of the translator with the expression table. -/
def Settings.config (s : Settings) : Config Float :=
  { arith := Arith.float, table := expressionTable, optimize := s.optimize, bindings := s.bindings }

/-- What translating one input gave: its name, its unrecognized words, the code, and the value
with its place and temporaries, or the error. -/
structure Outcome where
  name : String
  lexical : List String
  code : List Instr
  temporaries : Nat
  result : Except String (Float × String)

/-- Whether an input failed: it had unrecognized words or an error. -/
def Outcome.failed (o : Outcome) : Bool :=
  !o.lexical.isEmpty ||
    match o.result with
    | .ok _ => false
    | .error _ => true

/-- The message of a run of the translator that did not end normally. -/
def endingError : Ending Float → Option String
  | .success _ _ => none
  | .failure e => some e.message
  | .stepLimit => some "step budget exceeded"
  | .aborted m => some m

/-- The check of a synthesized value against a run of its code. -/
def checkRun (s : Settings) (code : List Instr) (v : Float) (place : String) : Except String (Float × String) :=
  match eval Arith.float code place s.bindings with
  | .error e => .error e.message
  | .ok x =>
    if x == v then .ok (v, place)
    else .error ("code computes " ++ Double.text x ++ ", translation synthesized " ++ Double.text v)

/-- Scans and translates the text of an input, running the code if asked. -/
def translateInput (s : Settings) (run : Bool) (name text : String) : Outcome :=
  let sc := ({} : Scanner).scanText text
  let t := translate s.config sc.tokens
  let result : Except String (Float × String) :=
    match t.ending with
    | .success v p => if run then checkRun s t.code v p else .ok (v, p)
    | e => .error ((endingError e).getD "")
  { name, lexical := sc.errors.toList.map (·.message), code := t.code, temporaries := t.temporaries, result }

/-- The lines shown for an input. -/
def Outcome.lines (o : Outcome) : String :=
  Label.info.render (o.name ++ "\n") ++ String.join (o.lexical.map Label.error.line) ++ renderCode o.code ++
    match o.result with
    | .error e => Label.error.line e ++ "FAILED\n"
    | .ok (v, p) =>
      if o.failed then "FAILED\n"
      else "value " ++ Double.text v ++ " in " ++ p ++ " (" ++ toString o.temporaries ++ " temporaries)\n" ++
        "SUCCEEDED\n"

/-- The texts of the sources, or the first error; standard input is read by the first source
that asks for it, and is empty for later ones. -/
def readAll (w : World) : Bool → List Source → Except String (List String)
  | _, [] => .ok []
  | taken, src :: rest => do
    let text ← if src = .stdin ∧ taken then pure "" else w.read src
    let more ← readAll w (taken || src = .stdin) rest
    pure (text :: more)

/-- The sources of the command: the expression, the files, or standard input. -/
def translateSources (expr : String) (args : List String) : List Source :=
  if !expr.isEmpty then [.given expr]
  else if args.isEmpty then [.stdin]
  else args.map Source.ofArg

/-- Runs `translate`. -/
def translateCommand (w : World) (s : Settings) (run : Bool) (expr : String) (args : List String) :
    Step Unit := do
  let sources := translateSources expr args
  match readAll w false sources with
  | .error e => throw e
  | .ok texts =>
    let outcomes := (sources.zip texts).map fun (src, text) => translateInput s run src.name text
    say (String.join (outcomes.map Outcome.lines))
    let failed := (outcomes.filter Outcome.failed).length
    if failed > 0 then
      throw (toString failed ++ " of " ++ toString outcomes.length ++ " translations failed")

end ExprTranslate.Cli
