import ExprTranslate.Cli.Flags
import ExprTranslate.Text.NameCase
/-!
# Commands

The program has the commands `grammar`, `repl`, `scan` and
`translate`, a `help` command and a `completion` command with one
subcommand per shell. A command is known by its path of names below the
program; the program itself has the empty path.

Finding the command of a command line walks down the tree: the arguments
are stripped of the flags the current command knows (and of the values of
flags that are no switches, or of flags it does not know), and if the first
word left names a child, that child is entered with the first argument
equal to the word removed. At the program itself, a word left that names no
command is an error, with the commands whose names are close to it (at most
two edits apart, or starting with it) suggested.
-/

namespace ExprTranslate.Cli

/-- What a command does when it runs. -/
inductive Task
  | translate
  | scan
  | grammar
  | repl
  | help
  | completion
  deriving DecidableEq, Repr

/-- How many arguments a command takes: any (at the program: no word naming no command),
none, or at most some number. -/
inductive Arity
  | any
  | none
  | atMost (n : Nat)
  deriving DecidableEq, Repr

/-- A command: its path of names, its usage line, its descriptions, what it accepts and does,
and its flags: those for itself and those it passes down to its subcommands. -/
structure Command where
  path : List String
  use : String
  short : String := ""
  long : String := ""
  examples : String := ""
  arity : Arity := .any
  task : Option Task := none
  flags : List Flag := []
  persistent : List Flag := []
  deriving Repr, Inhabited

namespace Command

/-- The name of a command: the first word of its usage line. -/
def name (c : Command) : String := (c.use.splitOn " ").headD c.use

/-- Whether a command does something when run (otherwise it shows its help). -/
def runnable (c : Command) : Bool := c.task.isSome

end Command

/-- The flags every command knows, passed down from the program. -/
def globalFlags : List Flag :=
  [{ name := "trace", kind := .text, usage := "trace level [Debug|Info|Error]", default := "Error" },
   { name := "no-optimize", kind := .switch, usage := "keep additions of 0 and multiplications by 1",
     default := "false" },
   { name := "let", kind := .texts, usage := "identifier values, e.g. a=3,b=0.5", default := "[]" }]

/-- The flag asking for a command's help. -/
def helpFlag (name : String) : Flag :=
  { name := "help", short := some 'h', kind := .switch, usage := "help for " ++ name, default := "false" }

/-- The text of the program's own help. -/
def programLong : String :=
  "sdt is a front end for arithmetic expressions:\n" ++
  "- scans input into keywords, operators, delimiters, numerals and identifiers,\n" ++
  "- parses it with an LL(1) table and translates it into three-address code,\n" ++
  "- eliminates additions of 0 and multiplications by 1 (unless --no-optimize)."

/-- The text of the help of `repl`. -/
def replLong : String :=
  "repl reads one expression per line and prints its three-address code.\n" ++
  "Commands:\n" ++
  "  :let <name> <value>   bind an identifier\n" ++
  "  :opt on|off           switch identity elimination\n" ++
  "  :tokens               switch printing of tokens\n" ++
  "  :quit                 leave (or <ctrl>D)"

/-- The command for one shell's completion script. -/
def shellCommand (shell : String) : Command :=
  { path := ["completion", shell], use := shell,
    short := "Generate the autocompletion script for " ++ shell, arity := .none, task := some .completion,
    flags := [{ name := "no-descriptions", kind := .switch, usage := "disable completion descriptions",
                default := "false" }] }

/-- The commands, each after its parent, children in the order they were added. -/
def commands : List Command :=
  [{ path := [], use := "sdt", short := "Translate arithmetic expressions into three-address code",
     long := programLong, persistent := globalFlags },
   { path := ["grammar"], use := "grammar", short := "Print the expression grammar and its selection table",
     arity := .none, task := some .grammar,
     flags := [{ name := "ebnf", kind := .switch, usage := "print and verify the EBNF description only",
                 default := "false" }] },
   { path := ["repl"], use := "repl", short := "Translate expressions interactively", long := replLong,
     arity := .none, task := some .repl },
   { path := ["scan"], use := "scan [file]", short := "Classify the words of the input",
     examples := "  echo \"begin x := 3 end .\" | sdt scan", arity := .atMost 1, task := some .scan,
     flags := [{ name := "expr", short := some 'e', kind := .text, usage := "scan this text instead of a file",
                 default := "" },
               { name := "table", kind := .switch, usage := "print the tokens as a table", default := "false" }] },
   { path := ["translate"], use := "translate [files…]", short := "Translate expressions into three-address code",
     examples := "  sdt translate -e \"(a+2)*b\" --let a=1,b=3\n  sdt translate one.expr two.expr",
     task := some .translate,
     flags := [{ name := "expr", short := some 'e', kind := .text,
                 usage := "translate this expression instead of files", default := "" },
               { name := "run", kind := .switch, usage := "run the generated code and compare its result",
                 default := "false" }] },
   { path := ["help"], use := "help [command]", short := "Help about any command",
     long := "Help provides help for any command in the application.\n" ++
       "Simply type sdt help [path to command] for full details.",
     task := some .help },
   { path := ["completion"], use := "completion",
     short := "Generate the autocompletion script for the specified shell",
     long := "Generate the autocompletion script for sdt for the specified shell.\n" ++
       "See each sub-command's help for details on how to use the generated script.\n",
     arity := .none },
   shellCommand "bash", shellCommand "zsh", shellCommand "fish", shellCommand "powershell"]

/-- The program itself. -/
def program : Command := commands.headD { path := [], use := "sdt" }

namespace Command

/-- The command with a path. -/
def atPath? (path : List String) : Option Command := commands.find? (·.path == path)

/-- The children of a command, in the order they were added. -/
def children (c : Command) : List Command :=
  commands.filter fun d => d.path.length = c.path.length + 1 ∧ d.path.take c.path.length = c.path

/-- The ancestors of a command, nearest first. -/
def ancestors (c : Command) : List Command :=
  ((List.range c.path.length).reverse.map fun n => c.path.take n).filterMap atPath?

/-- The flags a command inherits from its ancestors. -/
def inherited (c : Command) : List Flag := c.ancestors.flatMap (·.persistent)

/-- The flags a command knows before its help flag is added. -/
def known (c : Command) : List Flag := c.flags ++ c.persistent ++ c.inherited

/-- The words that name the command, from the program on. -/
def commandPath (c : Command) : String := " ".intercalate ("sdt" :: c.path)

/-- Whether a command is the help command of its parent. -/
def isHelp (c : Command) : Bool := c.path = ["help"]

/-- Whether a command is offered in lists and suggestions: it runs, or has a child that is
offered; the help command is not. -/
def available (c : Command) : Bool :=
  !c.isHelp && (c.runnable || c.children.any fun d => !d.isHelp && d.runnable)

/-- Whether some child is offered. -/
def hasAvailableChildren (c : Command) : Bool := c.children.any (·.available)

end Command

/-! ## Finding the command -/

/-- Whether a flag named `n` is known as a switch. -/
def isSwitch (flags : List Flag) (n : String) : Bool := (findLong flags n).any fun f => f.kind == .switch

/-- Whether a short flag named by the first character of `n` is known as a switch. -/
def isShortSwitch (flags : List Flag) (n : String) : Bool :=
  match n.toList with
  | c :: _ => (findShort flags c).any fun f => f.kind == .switch
  | [] => false

/-- Whether an argument is a flag that takes the next argument as its value: a long flag that
is not a known switch, or a one-letter short flag that is not a known switch, written without
`=`. -/
def takesValue (flags : List Flag) (s : String) : Bool :=
  if s.contains '=' then false
  else
    match s.toList with
    | '-' :: '-' :: name => !isSwitch flags (String.ofList name)
    | ['-', c] => c.toNat < 128 && !isShortSwitch flags c.toString
    | _ => false

/-- The words of a command line that are neither flags nor their values, after a flag that
takes its value from the next argument if `skip`. Such a flag with at most one argument after it
ends the words. -/
def wordsAfter (flags : List Flag) : Bool → List String → List String
  | _, [] => []
  | true, _ :: rest => wordsAfter flags false rest
  | false, s :: rest =>
    if s == "--" then []
    else if takesValue flags s then
      if rest.length ≤ 1 then [] else wordsAfter flags true rest
    else if s != "" && !s.startsWith "-" then s :: wordsAfter flags false rest
    else wordsAfter flags false rest

/-- The words of a command line that are neither flags nor their values. -/
def stripFlags (flags : List Flag) (args : List String) : List String := wordsAfter flags false args

/-- The arguments without the first one equal to `x`. -/
def dropFirst (x : String) : List String → List String
  | [] => []
  | y :: ys => if x == y then ys else y :: dropFirst x ys

/-- The command a command line names, from `c` on, and the arguments left for it. -/
def descend : Nat → Command → List String → Command × List String
  | 0, c, args => (c, args)
  | fuel + 1, c, args =>
    match stripFlags c.known args with
    | [] => (c, args)
    | next :: _ =>
      match c.children.find? (·.name == next) with
      | some d => descend fuel d (dropFirst next args)
      | none => (c, args)

/-- The bytes of a text, lower-cased. -/
def lowerBytes (s : String) : List UInt8 := (String.ofList (s.toList.map Text.nameLower)).toUTF8.toList

/-- The number of edits that turn one list of bytes into another, row by row: `prev` is the
row of the bytes before `a`. -/
def editRow (a : UInt8) (t : List UInt8) (prev : List Nat) (left : Nat) : List Nat :=
  match t, prev with
  | b :: bs, diag :: up :: ups =>
    let here := if a = b then diag else min (min up left) diag + 1
    here :: editRow a bs (up :: ups) here
  | _, _ => []

/-- The edit distance of two texts, without regard to case, counted in bytes. -/
def editDistance (s t : String) : Nat :=
  let s := lowerBytes s
  let t := lowerBytes t
  let first := List.range (t.length + 1)
  let last := (s.zip (List.range s.length)).foldl
    (fun row (a, i) => (i + 1) :: editRow a t row (i + 1)) first
  last.getLastD 0

/-- The commands offered for a word that names none. -/
def suggestions (c : Command) (typed : String) : List String :=
  (c.children.filter fun d =>
    d.available && (editDistance typed d.name ≤ 2 ||
      (String.ofList (d.name.toList.map Text.nameLower)).startsWith
        (String.ofList (typed.toList.map Text.nameLower)))).map (·.name)

/-- The message for a word that names no command. -/
def unknownCommand (typed : String) (c : Command) (offer : Bool) : String :=
  let found := if offer then suggestions c typed else []
  "unknown command " ++ Text.quote typed ++ " for " ++ Text.quote c.commandPath ++
    (if found.isEmpty then "" else "\n\nDid you mean this?\n" ++ String.join (found.map ("\t" ++ · ++ "\n")))

/-- The command a command line names and the arguments left for it, or why there is none. -/
def find (args : List String) : Command × List String × Option String :=
  let (c, rest) := descend (args.length + 1) program args
  let problem :=
    if c.arity = .any ∧ !c.children.isEmpty ∧ c.path.isEmpty then
      (stripFlags c.known rest).head?.map fun w => unknownCommand w c true
    else none
  (c, rest, problem)

/-- Why a command does not take its arguments. -/
def Command.checkArgs (c : Command) (args : List String) : Option String :=
  match c.arity, args with
  | .none, a :: _ => some (unknownCommand a c false)
  | .atMost n, _ =>
    if args.length > n then
      some ("accepts at most " ++ toString n ++ " arg(s), received " ++ toString args.length)
    else none
  | _, _ => none

end ExprTranslate.Cli
