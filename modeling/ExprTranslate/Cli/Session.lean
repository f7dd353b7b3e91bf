import ExprTranslate.Cli.TranslateCommand
import ExprTranslate.Cli.LineEditor
import ExprTranslate.Token.Report
/-!
# The command `repl`

The session reads lines from standard input through the line editor
(`typedLines`), which writes its bells to standard output as it reads. Each
line is trimmed; empty lines are skipped.

A line starting with `:` is a command: `:quit` or `:q` ends the session,
`:let name value` binds a name, `:opt on|off` switches identity elimination
and `:tokens` switches the token report. Any other line is an expression:
its code is shown and then its value, after the token report when that is
on. Errors are shown and the session goes on. At the end `Good bye!` goes to
standard error.
-/

namespace ExprTranslate.Cli

/-- The state of a session: the settings of the translator and whether tokens are shown. -/
structure Session where
  settings : Settings
  showTokens : Bool := false

/-- What a line gives: text to show and the session after it, or an error, or the end. -/
inductive Reply
  | shown (text : String) (next : Session)
  | failed (msg : String)
  | quit

/-- Runs a command of the session (the words after the colon). -/
def Session.command (s : Session) : List String → Reply
  | [] => .failed "missing command"
  | w :: args =>
    if w == "quit" ∨ w == "q" then .quit
    else if w == "let" then
      match args with
      | [name, value] =>
        match readBinding name value with
        | .error e => .failed e
        | .ok (n, v) =>
          .shown (n ++ " = " ++ Double.text v ++ "\n")
            { s with settings := { s.settings with bindings := rebind s.settings.bindings n v } }
      | _ => .failed "usage: :let <name> <value>"
    else if w == "opt" then
      match args with
      | [m] =>
        if m == "on" ∨ m == "off" then
          .shown ("identity elimination " ++ m ++ "\n") { s with settings := { s.settings with optimize := m == "on" } }
        else .failed "usage: :opt on|off"
      | _ => .failed "usage: :opt on|off"
    else if w == "tokens" then
      .shown ("printing tokens: " ++ toString (!s.showTokens) ++ "\n") { s with showTokens := !s.showTokens }
    else .failed ("unknown command :" ++ w)

/-- Evaluates one trimmed, non-empty line. The token report is shown even if the line then
fails. -/
def Session.eval (s : Session) (line : String) : String × Reply :=
  if line.startsWith ":" then ("", s.command (Text.words (line.drop 1).toString))
  else
    let sc := ({} : Scanner).scanLine line
    let shown := if s.showTokens then report sc.tokens else ""
    if !sc.errors.isEmpty then (shown, .failed ("; ".intercalate (sc.errors.toList.map (·.message))))
    else
      let t := translate s.settings.config sc.tokens
      match t.ending with
      | .success v _ => (shown, .shown (renderCode t.code ++ "= " ++ Double.text v ++ "\n") s)
      | e => (shown, .failed ((endingError e).getD ""))

/-- Runs a session over what it reads. -/
def Session.run (s : Session) : List Typed → String
  | [] => ""
  | t :: ts =>
    let rung := t.shown
    match t.line with
    | none => rung
    | some l =>
      let line := Text.trimBlanks l
      if line.isEmpty then rung ++ s.run ts
      else
        match s.eval line with
        | (pre, .shown text s') => rung ++ pre ++ text ++ s'.run ts
        | (pre, .failed msg) => rung ++ pre ++ Label.error.line msg ++ s.run ts
        | (pre, .quit) => rung ++ pre

/-- Runs `repl` with the bindings given on the command line. -/
def replCommand (w : World) (s : Settings) : Step Unit := do
  say (Label.info.line "Welcome to the sdt REPL")
  say ({ settings := s : Session }.run (typedLines w.stdin))
  complain "Good bye!\n"

end ExprTranslate.Cli
