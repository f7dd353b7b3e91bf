import ExprTranslate.Token.Lexicon
import ExprTranslate.Text.Buffered
import ExprTranslate.Text.Blank
/-!
# Scanning lines into tokens

A line is read in three steps: operators and delimiters are set apart by
spaces, the line is lowered (full Unicode lowercase, in windows of bytes as
`lowerBuffered` does it), and it is split into
words at blanks. Each word becomes a token carrying the line's number; a word
that is not in the lexicon is a token with symbol `error` and is also
reported as a lexical error.

The scanner counts lines as it reads them, an empty line too. Its tokens end
with the end marker, whose line is the number of lines read.

* `Scanner.scanLine`: one more line;
* `Scanner.scanText`: the lines of a text that ends its lines with `\n`,
  without the line ends (and carriage returns) at their end; a last line
  without `\n` counts, an empty one after the last `\n` does not;
* `scanPieces`: the pieces of a text split at every `\n`, after dropping one
  `\n` at its end.
-/

namespace ExprTranslate

/-- A word outside the lexicon, with the number of its line. -/
structure LexicalError where
  word : String
  line : Nat
  deriving DecidableEq, Repr

/-- The report of a word outside the lexicon. -/
def LexicalError.message (e : LexicalError) : String :=
  "line " ++ toString e.line ++ ": unrecognized word " ++ Text.quote e.word

/-- What a scanner has read: its tokens so far (without the end marker), the number of lines,
and the lexical errors in the order they were found. -/
structure Scanner where
  read : Array Token := #[]
  lines : Nat := 0
  errors : Array LexicalError := #[]

namespace Scanner

/-- The words of a line, as the lexicon sees them. -/
def words (line : String) : List String :=
  Text.words (Text.lowerBuffered (Lexicon.normalize line))

/-- Reads one more word of line `n`. -/
def addWord (n : Nat) (s : Scanner) (w : String) : Scanner :=
  let sym := Lexicon.classify w
  { s with
    read := s.read.push ⟨w, sym, n⟩
    errors := if sym = .error then s.errors.push ⟨w, n⟩ else s.errors }

/-- Reads one more line. -/
def scanLine (s : Scanner) (line : String) : Scanner :=
  let n := s.lines + 1
  (words line).foldl (addWord n) { s with lines := n }

/-- Reads lines in order. -/
def scanLines (s : Scanner) (lines : List String) : Scanner := lines.foldl scanLine s

/-- The tokens read, followed by the end marker. -/
def tokens (s : Scanner) : List Token := s.read.toList ++ [Token.endMarker s.lines]

/-- The number of lexical errors. -/
def errorCount (s : Scanner) : Nat := s.errors.size

end Scanner

/-- Drops line feeds and carriage returns at the end of a line. -/
def trimLineEnd (cs : List Char) : List Char :=
  (cs.reverse.dropWhile fun c => c = '\n' || c = '\r').reverse

/-- The lines of a text that ends each line with `\n`: a last piece without `\n` is a line,
an empty last piece is none. -/
def textLines (s : String) : List String :=
  let pieces := s.toList.splitOn '\n'
  let lines := if (pieces.getLast?.getD []).isEmpty then pieces.dropLast else pieces
  lines.map fun l => String.ofList (trimLineEnd l)

/-- The pieces of a text between line feeds, after one line feed at its end is dropped. -/
def textPieces (s : String) : List String :=
  let cs := if s.toList.getLast? = some '\n' then s.toList.dropLast else s.toList
  (cs.splitOn '\n').map String.ofList

namespace Scanner

/-- Reads the lines of a text, as `textLines` gives them. -/
def scanText (s : Scanner) (text : String) : Scanner := s.scanLines (textLines text)

end Scanner

/-- The tokens of the pieces of a text, each piece scanned as a line. -/
def scanPieces (text : String) : List Token := (({} : Scanner).scanLines (textPieces text)).tokens

/-- The tokens of some lines. -/
def scanAll (lines : List String) : List Token := (({} : Scanner).scanLines lines).tokens

end ExprTranslate
