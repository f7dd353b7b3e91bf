/-!
# Blanks and words

The blanks are the characters with the Unicode property `White_Space`: the
ASCII tab, line feed, vertical tab, form feed, carriage return and space,
next line (U+0085), no-break space (U+00A0), ogham space mark (U+1680), the
spaces U+2000 to U+200A, line and paragraph separator (U+2028, U+2029),
narrow no-break space (U+202F), medium mathematical space (U+205F) and
ideographic space (U+3000). A zero width space (U+200B) is no blank.

`words` splits a text at runs of blanks and drops the empty pieces.
-/

namespace ExprTranslate.Text

/-- Whether a character is a blank: the 25 characters with property `White_Space`. -/
def isBlank (c : Char) : Bool :=
  let n := c.toNat
  (0x09 ≤ n ∧ n ≤ 0x0D) || n = 0x20 || n = 0x85 || n = 0xA0 || n = 0x1680 ||
    (0x2000 ≤ n ∧ n ≤ 0x200A) || n = 0x2028 || n = 0x2029 || n = 0x202F || n = 0x205F ||
    n = 0x3000

/-- The words of a list of characters, each a maximal run without blanks; `acc` holds the
characters of the word being read, last first. -/
def wordsAux : List Char → List Char → List (List Char)
  | [], [] => []
  | [], acc => [acc.reverse]
  | c :: cs, acc =>
    if isBlank c then
      if acc.isEmpty then wordsAux cs [] else acc.reverse :: wordsAux cs []
    else wordsAux cs (c :: acc)

/-- The text without blanks at either end. -/
def trimBlanks (s : String) : String :=
  String.ofList ((s.toList.dropWhile isBlank).reverse.dropWhile isBlank).reverse

/-- The words of a text: the maximal runs of characters that are not blanks, in order. -/
def words (s : String) : List String := (wordsAux s.toList []).map String.ofList

end ExprTranslate.Text
