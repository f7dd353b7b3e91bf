import ExprTranslate.Cli.Command
import ExprTranslate.Text.Blank
/-!
# Help texts

The help of a command is its long description (or else its short one),
a blank line, and its usage: the usage line, the subcommands, the examples,
its own flags and the flags it inherits, and a pointer to the help of the
subcommands. A flag is listed as

    -e, --expr string   translate this expression instead of files

with its short name if it has one, the kind of its value (none for a
switch), its description starting in one column for all flags of the list,
and its default unless that is the empty value. Flags are listed by name.
-/

namespace ExprTranslate.Cli

/-- The text without trailing blanks. -/
def trimEnd (s : String) : String := String.ofList (s.toList.reverse.dropWhile Text.isBlank).reverse

/-- The text padded with spaces to a number of characters. -/
def padTo (s : String) (n : Nat) : String := s ++ String.ofList (List.replicate (n - s.length) ' ')

/-- The name a flag's value is shown with. -/
def FlagKind.valueName : FlagKind → String
  | .switch => ""
  | .text => "string"
  | .texts => "strings"

/-- Whether a flag's default is the empty value of its kind. -/
def Flag.plainDefault (f : Flag) : Bool :=
  match f.kind with
  | .switch => f.default == "false"
  | .text => f.default.isEmpty
  | .texts => f.default == "[]" || f.default.isEmpty

/-- The part of a flag's listing before its description. -/
def Flag.head (f : Flag) : String :=
  let names := match f.short with
    | some c => "  -" ++ c.toString ++ ", --" ++ f.name
    | none => "      --" ++ f.name
  let v := f.kind.valueName
  if v.isEmpty then names else names ++ " " ++ v

/-- The description of a flag with its default. -/
def Flag.tail (f : Flag) : String :=
  f.usage ++
    if f.plainDefault then ""
    else if f.kind = .text then " (default " ++ Text.quote f.default ++ ")"
    else " (default " ++ f.default ++ ")"

/-- The flags in order of their names. -/
def byName (flags : List Flag) : List Flag := flags.mergeSort fun a b => a.name ≤ b.name

/-- The listing of flags, one a line, descriptions aligned. -/
def flagListing (flags : List Flag) : String :=
  let flags := byName flags
  let width := (flags.map (·.head.utf8ByteSize)).foldl max 0 + 1
  String.join <| flags.map fun f =>
    f.head ++ " " ++ String.ofList (List.replicate (width - f.head.utf8ByteSize) ' ') ++ " " ++ f.tail ++ "\n"

namespace Command

/-- The flags a command shows as its own, with or without its help flag. -/
def ownFlags (c : Command) (withHelp : Bool) : List Flag :=
  c.flags ++ (if withHelp then [helpFlag c.name] else []) ++ c.persistent

/-- The width the names of a command's siblings are padded to. -/
def namePadding (c : Command) : Nat :=
  let siblings := (atPath? c.path.dropLast).map children |>.getD []
  max 11 ((siblings.map (·.name.length)).foldl max 0)

/-- The usage line: the parent's path, the usage, and a mark that flags may follow. -/
def useLine (c : Command) (hasFlags : Bool) : String :=
  let line := if c.path.isEmpty then c.use else (" ".intercalate ("sdt" :: c.path.dropLast)) ++ " " ++ c.use
  if hasFlags ∧ !(line.splitOn "[flags]").length > 1 then line ++ " [flags]" else line

/-- The usage text of a command. -/
def usage (c : Command) (withHelp : Bool) : String :=
  let own := c.ownFlags withHelp
  let inh := c.inherited
  let subs := c.hasAvailableChildren
  let listed := (c.children.mergeSort fun a b => a.name ≤ b.name).filter fun d => d.available || d.name == "help"
  "Usage:" ++
  (if c.runnable then "\n  " ++ c.useLine (!(own ++ inh).isEmpty) else "") ++
  (if subs then "\n  " ++ c.commandPath ++ " [command]" else "") ++
  (if c.examples.isEmpty then "" else "\n\nExamples:\n" ++ c.examples) ++
  (if subs then
    "\n\nAvailable Commands:" ++ String.join (listed.map fun d => "\n  " ++ padTo d.name d.namePadding ++ " " ++ d.short)
   else "") ++
  (if own.isEmpty then "" else "\n\nFlags:\n" ++ trimEnd (flagListing own)) ++
  (if inh.isEmpty then "" else "\n\nGlobal Flags:\n" ++ trimEnd (flagListing inh)) ++
  (if subs then "\n\nUse \"" ++ c.commandPath ++ " [command] --help\" for more information about a command." else "") ++
  "\n"

/-- The help text of a command, which knows its help flag. -/
def helpText (c : Command) : String :=
  let head := if c.long.isEmpty then c.short else c.long
  (if head.isEmpty then "" else trimEnd head ++ "\n\n") ++
    (if c.runnable || !c.children.isEmpty then c.usage true else "")

end Command

end ExprTranslate.Cli
