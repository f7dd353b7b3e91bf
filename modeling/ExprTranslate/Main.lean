import ExprTranslate.Cli.Run
/-!
# The command-line program

Reads standard input (unless it is a terminal), looks up the paths named on
the command line, runs the command line and writes its output.
-/

open ExprTranslate.Cli

/-- What opening a path finds. -/
def probe (path : String) : IO Entry := do
  match ← (IO.FS.readFile path).toBaseIO with
  | .ok text => pure (.file text)
  | .error (.inappropriateType ..) => pure .directory
  | .error _ => pure .missing

/-- Runs the command line. -/
def main (args : List String) : IO UInt32 := do
  let input ← IO.getStdin
  let stdin ← if ← input.isTty then pure "" else input.readToEnd
  let entries ← args.mapM fun a => do pure (a, ← probe a)
  let w : World := { stdin, entry := fun p => ((entries.find? (·.1 == p)).map (·.2)).getD .missing }
  let r := run w args
  IO.print r.console.out
  IO.eprint r.console.err
  pure r.exit.toUInt32
