import ExprTranslate.Cli.Help
import ExprTranslate.Cli.TranslateCommand
import ExprTranslate.Cli.ScanCommand
import ExprTranslate.Cli.GrammarCommand
import ExprTranslate.Cli.Session
/-!
# Running the command line

A run finds the command, reads its flags (the command's own, those it
inherits, and its help flag), and then:

* shows the command's help if asked for with `-h`/`--help`, or if the
  command does nothing by itself (the program, `completion`);
* checks the number of arguments;
* runs the command.

Problems with the command line itself are shown with the early error label;
errors of a command that ran with the error label of the commands. Either
makes the exit code 1; otherwise it is 0.
-/

namespace ExprTranslate.Cli

/-- What a run leaves: the console output and the exit code. -/
structure Result where
  console : Console
  exit : Nat

/-- A text between backquotes if it can stand there, else quoted. -/
def backquoted (s : String) : String :=
  if s.any fun c => c.toNat = 0x60 ∨ c.toNat = 0xFEFF ∨ (c.toNat < 0x20 ∧ c ≠ '\t') ∨ c.toNat = 0x7F then Text.quote s
  else "`" ++ s ++ "`"

/-- Runs `help` for the words after it: the help of the command they name, or a complaint and
the program's usage on standard error. -/
def helpCommand (args : List String) : Step Unit :=
  match find args with
  | (c, _, none) => say c.helpText
  | (_, _, some _) =>
    complain ("Unknown help topic [" ++ " ".intercalate (args.map backquoted) ++ "]\n" ++ program.usage false)

/-- Runs a command with its flags and arguments. -/
def perform (w : World) (p : Parsed) : Task → Step Unit
  | .translate => do
    let bindings ← liftExcept (readBindings (p.texts "let"))
    translateCommand w ⟨!p.switch "no-optimize", bindings⟩ (p.switch "run") (p.text "expr") p.args
  | .scan => scanCommand w (p.text "expr") (p.switch "table") p.args
  | .grammar => grammarCommand (p.switch "ebnf")
  | .repl => do
    let bindings ← liftExcept (readBindings (p.texts "let"))
    replCommand w ⟨!p.switch "no-optimize", bindings⟩
  | .help => helpCommand p.args
  | .completion => pure ()
where
  /-- A result or an error as a step. -/
  liftExcept {β : Type} : Except String β → Step β
    | .ok b => pure b
    | .error e => throw e

/-- A run that stops at once with an early error. -/
def early (msg : String) : Result := ⟨{ out := Label.early.line msg }, 1⟩

/-- Runs the command line with its arguments. -/
def run (w : World) (args : List String) : Result :=
  match find args with
  | (_, _, some msg) => early msg
  | (c, rest, none) =>
    match parseFlags (c.known ++ [helpFlag c.name]) rest with
    | .error e => early e.message
    | .ok p =>
      match c.task with
      | none => ⟨{ out := c.helpText }, 0⟩
      | some task =>
        if p.switch "help" then ⟨{ out := c.helpText }, 0⟩
        else
          match c.checkArgs p.args with
          | some msg => early msg
          | none =>
            match (perform w p task).run {} with
            | (.ok (), console) => ⟨console, 0⟩
            | (.error msg, console) => ⟨{ console with out := console.out ++ Label.error.line msg }, 1⟩

end ExprTranslate.Cli
