/-!
# Console output

A run of the command line writes text to standard output and standard
error; `Console` collects both. Messages are shown with a label before them:

* the label of the info, error and success messages is framed by spaces,
  and one more space separates it from the message;
* the lines after the first line of a message are indented by the width of
  the label and three spaces;
* trailing line breaks of a message are dropped and one is written instead;
  a message on a line of its own gets one more.

A section title is a blank line, `# title` and another blank line. A table
pads every cell with spaces to the widest cell of its column, counted in
bytes of UTF-8, and joins the cells of a row with `" | "`.

Messages and tables are written through a markup layer with colors off:

* color tags (`<`, an optional `/`, letters and `_=,;`, then `>`) are removed
  from a text that holds an end tag `</>`, in one sweep from left to right;
  the text passes this step several times, once before the message is cut
  into lines, once per line, and five times (four for a message given with a
  format, and for a table) on the whole output;
* color codes `ESC [`, digits, `;` or `?` (at least one), `m` are removed in
  one sweep from every line of a message and from every cell of a table.

A sweep does not look again at what a removal joins together, so nested
markup loses one layer per sweep.
-/

namespace ExprTranslate.Cli

/-- The text written to standard output and to standard error. -/
structure Console where
  out : String := ""
  err : String := ""
  deriving Inhabited

/-- A step of a command: it writes to the console and may stop with an error message. -/
abbrev Step := ExceptT String (StateM Console)

/-- Writes to standard output. -/
def say (s : String) : Step Unit := modify fun c => { c with out := c.out ++ s }

/-- Writes to standard error. -/
def complain (s : String) : Step Unit := modify fun c => { c with err := c.err ++ s }

/-! ## Markup -/

/-- Removes, from left to right, every stretch at whose start `after` finds a match, given the
rest after the match; what a removal joins together is not looked at again. -/
def sweep (after : List Char → Option (List Char)) : List Char → List Char
  | [] => []
  | c :: cs =>
    match after (c :: cs) with
    | some r => if r.length < cs.length + 1 then sweep after r else c :: sweep after cs
    | none => c :: sweep after cs
  termination_by cs => cs.length

/-- Whether a character may stand in the name of a color tag. -/
def isTagChar (c : Char) : Bool :=
  ('a' ≤ c && c ≤ 'z') || ('A' ≤ c && c ≤ 'Z') || c == '_' || c == '=' || c == ',' || c == ';'

/-- The rest after the name of a color tag and its closing `>`. -/
def afterTagName : List Char → Option (List Char)
  | [] => none
  | c :: cs => if c == '>' then some cs else if isTagChar c then afterTagName cs else none

/-- The rest after a color tag: `<`, an optional `/`, a name, `>`. -/
def afterTag : List Char → Option (List Char)
  | '<' :: '/' :: cs => afterTagName cs
  | '<' :: cs => afterTagName cs
  | _ => none

/-- Whether a character may stand between the `[` and the `m` of a color code. -/
def isCodeChar (c : Char) : Bool := ('0' ≤ c && c ≤ '9') || c == ';' || c == '?'

/-- The rest after the parameters of a color code and its final `m`. -/
def afterCodeParams : List Char → Option (List Char)
  | [] => none
  | c :: cs => if c == 'm' then some cs else if isCodeChar c then afterCodeParams cs else none

/-- The rest after a color code: `ESC [`, at least one parameter character, `m`. -/
def afterCode : List Char → Option (List Char)
  | '\x1b' :: '[' :: c :: cs => if isCodeChar c then afterCodeParams cs else none
  | _ => none

/-- A text without its color tags, if it holds an end tag `</>`; otherwise the text itself. -/
def clearTags (s : String) : String :=
  if (s.splitOn "</>").length > 1 then String.ofList (sweep afterTag s.toList) else s

/-- A text without its color codes. -/
def clearCodes (s : String) : String := String.ofList (sweep afterCode s.toList)

/-- A step applied `n` times. -/
def repeatedly (f : String → String) : Nat → String → String
  | 0, s => s
  | n + 1, s => repeatedly f n (f s)

/-- A label shown before a message. -/
structure Label where
  text : String

namespace Label

/-- The label of informative messages. -/
def info : Label := ⟨"  >>"⟩

/-- The label of error messages. -/
def error : Label := ⟨" Error"⟩

/-- The label of success messages. -/
def success : Label := ⟨"    OK"⟩

/-- The label of errors found while reading the command line, before the labels are set up. -/
def early : Label := ⟨" ERROR "⟩

/-- The text with its trailing line breaks dropped. -/
def dropBreaks (s : String) : String := String.ofList (s.toList.reverse.dropWhile (· = '\n')).reverse

/-- A message written with the label, its markup cleared: the label before the first line, the
indentation before the others, and a line break at the end if the message ended with one. The
whole message loses its tags `before` times before it is cut into lines, and `after` times once
written. -/
def write (l : Label) (before after : Nat) (msg : String) : String :=
  let msg := repeatedly clearTags before msg
  let ends := msg.endsWith "\n"
  let body := if ends then dropBreaks msg else msg
  let indent := String.ofList (List.replicate (l.text.length + 2) ' ') ++ " "
  let lines := (body.splitOn "\n").map fun r => clearCodes (clearTags r)
  repeatedly clearTags after <|
    " " ++ l.text ++ "  " ++ lines.headD "" ++ String.join (lines.tail.map fun r => "\n" ++ indent ++ r) ++
      (if ends then "\n" else "")

/-- A message given with a format. -/
def render (l : Label) (msg : String) : String := l.write 2 4 msg

/-- A message on a line of its own: a line break follows the message as written, also after
the one a message that ends with line breaks keeps. -/
def line (l : Label) (msg : String) : String := l.write 1 5 msg ++ "\n"

end Label

/-- A section title. -/
def sectionTitle (title : String) : String := "\n# " ++ title ++ "\n\n"

/-- What a cell shows: its text without markup. -/
def cellText (s : String) : String := clearCodes (clearTags s)

/-- The width of a cell: the length in bytes of what it shows. -/
def cellWidth (s : String) : Nat := (cellText s).utf8ByteSize

/-- The width of each column: the widest cell in it. -/
def columnWidths (rows : List (List String)) : List Nat :=
  rows.foldl (fun ws row => merge ws (row.map cellWidth)) []
where
  /-- The wider of two widths, column by column. -/
  merge : List Nat → List Nat → List Nat
    | [], vs => vs
    | ws, [] => ws
    | w :: ws, v :: vs => max w v :: merge ws vs

/-- A cell padded to a width, and cleared of markup once more. -/
def padCell (s : String) (w : Nat) : String :=
  cellText (cellText s ++ String.ofList (List.replicate (w - cellWidth s) ' '))

/-- The lines of a table, each cell padded to its column's width; the whole table then loses its
tags four times. -/
def table (rows : List (List String)) : String :=
  let widths := columnWidths rows
  repeatedly clearTags 4 <| String.join <| rows.map fun row =>
    " | ".intercalate ((row.zip (widths.take row.length)).map fun (c, w) => padCell c w) ++ "\n"

end ExprTranslate.Cli
