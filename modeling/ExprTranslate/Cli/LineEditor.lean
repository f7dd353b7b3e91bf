import ExprTranslate.Text.Numeric
/-!
# The line editor of the session

The session reads its lines through a line editor, also when its input is
not a terminal. The editor turns the input into keys, and each key edits the
line, moves in the history of lines, or ends the line or the input.

Keys. The escape character starts a sequence: `ESC b`, `ESC f`, `ESC d` and
`ESC DEL` move or delete by words, `ESC O H` and `ESC O F` go to the start
and the end of the line, `ESC ESC` starts the sequence again, and `ESC` before
any other character is nothing but that character. `ESC [`, then digits (of
any script) and semicolons, then a final character is an arrow (`A` up, `B`
down, `C` right, `D` left), `H` or `F` (start, end), `3~` (delete), or
nothing at all.

Lines. Control characters are commands: `^A`/`^E` start and end of line,
`^B`/`^F` left and right, `^H` and `DEL` delete backwards, `^D` deletes
forwards (and ends the input on an empty line), `^K`/`^U` kill to the end or
the start, `^W` kills the word before the cursor (to a blank), `^Y` yanks what
was killed last, `^T` swaps two characters (on a line of one character it
only moves the cursor on, which may then stand past the end of the line, and
`^F` moves it further), `^P`/`^N` go up and down the
history, `^L` clears the screen, `^C` ends the input, `^G` does nothing, and
`^J`/`^M` end the line. A tab is completed to itself. Every other character
is inserted at the cursor. A NUL, like the end of the input, ends the input
if the line is empty, and ends the line otherwise.

The history holds the lines entered, without empty lines and without a line
entered again right after it was recalled unchanged. Moving in the history
shows a line as it was edited since the last line was entered. Going past
either end of the history, deleting backwards on an empty line and deleting
forwards at the end of the line ring the bell.
-/

namespace ExprTranslate.Cli

/-- A key as the editor reads it: a character (control characters are commands), or one of the
commands given by the escape key before a character. -/
inductive Key
  | char (c : Char)
  | wordBackward
  | wordForward
  | wordDelete
  | wordErase
  | swapMeta
  deriving DecidableEq, Repr

/-- What the terminal is in the middle of: plain characters, an escape, or an escape with a
bracket and the parameters read so far (last first). -/
inductive Reading
  | plain
  | escape
  | bracket (params : List Char)

/-- The command of an escape, bracket, parameters and final character, if it is one. -/
def bracketKey (params : List Char) (final : Char) : Option Char :=
  if final = 'D' then some '\x02'
  else if final = 'C' then some '\x06'
  else if final = 'A' then some '\x10'
  else if final = 'B' then some '\x0e'
  else if final = 'H' then some '\x01'
  else if final = 'F' then some '\x05'
  else if final = '~' && params == ['3'] then some '\x04'
  else none

/-- The keys of an input, read from where the terminal stands. -/
def keysFrom : Reading → List Char → List Key
  | _, [] => []
  | .plain, c :: cs => if c = '\x1b' then keysFrom .escape cs else .char c :: keysFrom .plain cs
  | .escape, c :: cs =>
    if c = '[' then keysFrom (.bracket []) cs
    else if c = 'b' then .wordBackward :: keysFrom .plain cs
    else if c = 'f' then .wordForward :: keysFrom .plain cs
    else if c = 'd' then .wordDelete :: keysFrom .plain cs
    else if c = '\x14' then .swapMeta :: keysFrom .plain cs
    else if c = '\x7f' then .wordErase :: keysFrom .plain cs
    else if c = '\x1b' then keysFrom .escape cs
    else if c = 'O' then
      match cs with
      | d :: rest =>
        if d = 'H' then .char '\x01' :: keysFrom .plain rest
        else if d = 'F' then .char '\x05' :: keysFrom .plain rest
        else .char 'O' :: keysFrom .plain (d :: rest)
      | [] => [.char 'O']
    else .char c :: keysFrom .plain cs
  | .bracket params, c :: cs =>
    if c = ';' || Text.isNumeric c then keysFrom (.bracket (c :: params)) cs
    else
      match bracketKey params.reverse c with
      | some k => .char k :: keysFrom .plain cs
      | none => keysFrom .plain cs
  termination_by _ cs => cs.length
  decreasing_by
    all_goals simp only [List.length_cons]
    all_goals omega

/-- The keys of an input. -/
def keysOf (input : String) : List Key := keysFrom .plain input.toList

/-! ## The line -/

/-- Whether a character ends a word: anything but an ASCII letter or digit. -/
def isWordBreak (c : Char) : Bool := !c.isAlphanum

/-- The line being edited: its characters, the cursor, and the text killed last. The cursor
is usually at most the length of the line; only `transpose` on a line of one character takes it
past the end. -/
structure LineBuffer where
  text : List Char := []
  cursor : Nat := 0
  killed : List Char := []

namespace LineBuffer

/-- The character at a position, or a blank outside the line. -/
def at' (b : LineBuffer) (i : Nat) : Char := b.text.getD i ' '

/-- Whether a word starts at position `i`: a character that is no word break after one that
is. -/
def wordStart (b : LineBuffer) (i : Nat) : Bool :=
  0 < i && !isWordBreak (b.at' i) && isWordBreak (b.at' (i - 1))

/-- Inserts characters at the cursor, which moves after them. -/
def insert (b : LineBuffer) (s : List Char) : LineBuffer :=
  { b with text := b.text.take b.cursor ++ s ++ b.text.drop b.cursor, cursor := b.cursor + s.length }

/-- Deletes the character before the cursor. -/
def backspace (b : LineBuffer) : LineBuffer :=
  if b.cursor = 0 then b
  else { b with text := b.text.take (b.cursor - 1) ++ b.text.drop b.cursor, cursor := b.cursor - 1 }

/-- Deletes the character under the cursor, if there is one. -/
def delete? (b : LineBuffer) : Option LineBuffer :=
  if b.cursor < b.text.length then some { b with text := b.text.take b.cursor ++ b.text.drop (b.cursor + 1) }
  else none

/-- Kills the text before the cursor. -/
def killFront (b : LineBuffer) : LineBuffer :=
  if b.cursor = 0 then b
  else { text := b.text.drop b.cursor, cursor := 0, killed := b.text.take b.cursor }

/-- Kills the text from the cursor on. -/
def kill (b : LineBuffer) : LineBuffer :=
  { b with text := b.text.take b.cursor, killed := b.text.drop b.cursor }

/-- Inserts the text killed last. -/
def yank (b : LineBuffer) : LineBuffer := if b.killed.isEmpty then b else b.insert b.killed

/-- The last position in `[lo, hi]` where a word starts, searching downwards. -/
def lastWordStart (b : LineBuffer) (lo : Nat) : Nat → Option Nat
  | 0 => none
  | i + 1 => if i + 1 < lo then none else if b.wordStart (i + 1) then some (i + 1) else b.lastWordStart lo i

/-- The first position from `i` on, below the end, where a word starts; `fuel` bounds the
search. -/
def nextWordStart (b : LineBuffer) : Nat → Nat → Option Nat
  | 0, _ => none
  | fuel + 1, i =>
    if b.text.length ≤ i then none else if b.wordStart i then some i else b.nextWordStart fuel (i + 1)

/-- Moves to the start of the word before the cursor, or to the start of the line. -/
def toPrevWord (b : LineBuffer) : LineBuffer :=
  if b.cursor = 0 then b else { b with cursor := (b.lastWordStart 1 (b.cursor - 1)).getD 0 }

/-- Moves to the start of the next word, or to the end of the line. -/
def toNextWord (b : LineBuffer) : LineBuffer :=
  { b with cursor := (b.nextWordStart b.text.length (b.cursor + 1)).getD b.text.length }

/-- Deletes from the cursor to the word break before the next word, or kills to the end. -/
def deleteWord (b : LineBuffer) : LineBuffer :=
  if b.text.length ≤ b.cursor then b
  else
    let first := b.cursor + ((b.text.drop b.cursor).takeWhile isWordBreak).length
    match b.nextWordStart b.text.length (first + 1) with
    | some i =>
      { b with text := b.text.take b.cursor ++ b.text.drop (i - 1),
               killed := (b.text.take (i - 1)).drop b.cursor }
    | none => b.kill

/-- The last position in `[1, i]` where a blank ends before a character that is not one. -/
def lastBlankEnd (b : LineBuffer) : Nat → Option Nat
  | 0 => none
  | i + 1 => if b.at' (i + 1) ≠ ' ' && b.at' i = ' ' then some (i + 1) else b.lastBlankEnd i

/-- Kills back to the start of the blank-separated word before the cursor, or clears the line
(keeping what was killed before) if no blank comes before it. -/
def eraseWord (b : LineBuffer) : LineBuffer :=
  if b.cursor = 0 then b
  else
    match b.lastBlankEnd (b.cursor - 1) with
    | some i => { text := b.text.take i ++ b.text.drop b.cursor, cursor := i,
                  killed := (b.text.take b.cursor).drop i }
    | none => { b with text := [], cursor := 0 }

/-- Swaps the character before the cursor with the one under it (the last two at the end of
the line) and moves on. On a line of one character there is nothing to swap, and the cursor
moves on all the same, past the end if it stood there. -/
def transpose (b : LineBuffer) : LineBuffer :=
  let n := b.text.length
  if n < 2 then { b with cursor := b.cursor + (if n = 1 then 1 else 0) }
  else
    let i := if b.cursor = 0 then 1 else if n ≤ b.cursor then n - 1 else b.cursor
    { b with text := b.text.take (i - 1) ++ [b.at' i, b.at' (i - 1)] ++ b.text.drop (i + 1), cursor := i + 1 }

/-- Replaces the line, with the cursor at its end. -/
def set (b : LineBuffer) (s : List Char) : LineBuffer := { b with text := s, cursor := s.length }

end LineBuffer

/-! ## The history -/

/-- A line of the history: as entered, and as edited while it was shown in `version`. -/
structure Recalled where
  entered : List Char
  edited : List Char := []
  version : Nat := 0

/-- The history: its lines, oldest first, the one shown, and the version, which grows each
time a line is entered. -/
structure History where
  lines : List Recalled := []
  current : Option Nat := none
  version : Nat := 0

namespace History

/-- How a line of the history shows: as edited in this version, or as entered. -/
def showing (h : History) (r : Recalled) : List Char := if r.version = h.version then r.edited else r.entered

/-- Adds a line at the end and shows it. -/
def push (h : History) (s : List Char) : History :=
  { h with lines := h.lines ++ [{ entered := s }], current := some h.lines.length }

/-- Records the text of the line shown: as entered if `commit`, else as edited. With no line
shown, the text is added. -/
def record (h : History) (s : List Char) (commit : Bool) : History :=
  match h.current with
  | none => h.push s
  | some i =>
    { h with lines := h.lines.modify i fun r =>
        if commit then { r with entered := s, version := h.version } else { r with edited := s, version := h.version } }

/-- The line before the one shown, now shown. -/
def prev? (h : History) : Option (History × List Char) :=
  match h.current with
  | some (i + 1) => (h.lines[i]?).map fun r => ({ h with current := some i }, h.showing r)
  | _ => none

/-- The line after the one shown, now shown. -/
def next? (h : History) : Option (History × List Char) :=
  match h.current with
  | some i => (h.lines[i + 1]?).map fun r => ({ h with current := some (i + 1) }, h.showing r)
  | none => none

/-- The history after a line is entered: a line recalled unchanged or an empty line only
clears the last line and starts a new version; otherwise the line (as edited, if it was
recalled) becomes the last line and a new empty one follows. -/
def enter (h : History) (s : List Char) : History :=
  let last := h.lines.length - 1
  let cleared : History :=
    { h with lines := h.lines.modify last fun r => { r with entered := [], edited := [] },
             current := some last, version := h.version + 1 }
  if 2 ≤ h.lines.length && (h.lines[last - 1]?).map (·.entered) == some s then cleared
  else if s.isEmpty && !h.lines.isEmpty then cleared
  else
    let (h, s) : History × List Char :=
      match h.current with
      | some i =>
        if i ≠ last then ({ h with current := some last }, ((h.lines[i]?).map (·.edited)).getD [])
        else (h, s)
      | none => ({ h with current := if h.lines.isEmpty then none else some last }, s)
    let h := h.record s true
    { h with version := h.version + 1 }.push []

end History

/-! ## The editor -/

/-- The line editor: the line and the history. -/
structure Editor where
  line : LineBuffer := {}
  history : History := {}

/-- What a key does: the editor goes on, perhaps having entered a line, or the input ends;
with what was written to the screen meanwhile. -/
inductive Pressed
  | edit (e : Editor) (shown : String)
  | enter (e : Editor) (line : String)
  | finish (shown : String)

/-- The bell. -/
def bell : String := "\x07"

/-- What clearing the screen writes. -/
def clearScreen : String := "\x1b[H"

namespace Editor

/-- The editor with a new line, recorded as edited in the history. -/
def withLine (e : Editor) (b : LineBuffer) : Editor :=
  { line := b, history := e.history.record b.text false }

/-- Enters the line. -/
def enterLine (e : Editor) : Pressed :=
  let data := e.line.text
  let h := e.history.enter data
  .enter { line := { e.line with text := [], cursor := 0 }, history := h.record [] false } (String.ofList data)

/-- What a key does. -/
def press (e : Editor) : Key → Pressed
  | .wordBackward => .edit (e.withLine e.line.toPrevWord) ""
  | .wordForward => .edit (e.withLine e.line.toNextWord) ""
  | .wordDelete => .edit (e.withLine e.line.deleteWord) ""
  | .wordErase => .edit (e.withLine e.line.eraseWord) ""
  | .swapMeta => .edit (e.withLine (e.line.insert [Char.ofNat 0xFFFD])) ""
  | .char c =>
    let b := e.line
    if c = '\x00' then if b.text.isEmpty then .finish "" else e.enterLine
    else if c = '\r' || c = '\n' then e.enterLine
    else if c = '\x01' then .edit (e.withLine { b with cursor := 0 }) ""
    else if c = '\x05' then .edit (e.withLine { b with cursor := b.text.length }) ""
    else if c = '\x02' then .edit (e.withLine { b with cursor := b.cursor - 1 }) ""
    else if c = '\x06' then
      .edit (e.withLine { b with cursor := if b.cursor = b.text.length then b.cursor else b.cursor + 1 }) ""
    else if c = '\x08' || c = '\x7f' then
      if b.text.isEmpty then .edit (e.withLine b) bell else .edit (e.withLine b.backspace) ""
    else if c = '\x04' then
      if b.text.isEmpty then .finish ""
      else
        match b.delete? with
        | some b' => .edit (e.withLine b') ""
        | none => .edit (e.withLine b) bell
    else if c = '\x0b' then .edit (e.withLine b.kill) ""
    else if c = '\x15' then .edit (e.withLine b.killFront) ""
    else if c = '\x17' then .edit (e.withLine b.eraseWord) ""
    else if c = '\x19' then .edit (e.withLine b.yank) ""
    else if c = '\x14' then .edit (e.withLine b.transpose) ""
    else if c = '\x10' then
      match e.history.prev? with
      | some (h, s) => .edit ({ e with history := h }.withLine (b.set s)) ""
      | none => .edit (e.withLine b) bell
    else if c = '\x0e' then
      match e.history.next? with
      | some (h, s) => .edit ({ e with history := h }.withLine (b.set s)) ""
      | none => .edit (e.withLine b) bell
    else if c = '\x0c' then .edit (e.withLine b) clearScreen
    else if c = '\x03' then .finish ""
    else if c = '\x07' || c = '\x12' || c = '\x13' || c = '\x1a' then .edit (e.withLine b) ""
    else .edit (e.withLine (b.insert [c])) ""

end Editor

/-- What a session reads at a time: what the editor wrote to the screen while it was typed,
then a line, or the end of the input. -/
structure Typed where
  shown : String
  line : Option String

/-- The lines the editor gives for the keys left, `shown` holding what it wrote since the last
line. At the end of the input a line not yet entered is entered. -/
def Editor.read (e : Editor) (shown : String) : List Key → List Typed
  | [] => if e.line.text.isEmpty then [⟨shown, none⟩] else [⟨shown, some (String.ofList e.line.text)⟩, ⟨"", none⟩]
  | k :: ks =>
    match e.press k with
    | .edit e' s => e'.read (shown ++ s) ks
    | .enter e' l => ⟨shown, some l⟩ :: e'.read "" ks
    | .finish s => [⟨shown ++ s, none⟩]

/-- What a session reads from its input. -/
def typedLines (input : String) : List Typed := ({} : Editor).read "" (keysOf input)

end ExprTranslate.Cli
