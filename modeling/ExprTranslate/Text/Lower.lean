import ExprTranslate.Text.Casing
import ExprTranslate.Text.LowerTable
/-!
# Lowering a text

Full lowercase mapping without a language: each character goes to its simple
lowercase, except that capital I with dot above (U+0130) becomes `i` followed
by a combining dot above (U+0307), and a capital sigma (U+03A3) becomes a
final sigma `ς` at the end of a word.

A sigma is final when a cased character precedes it, with only
case-ignorable characters between, and no cased character follows it after
case-ignorable ones. Words are tracked as the text is read: a cased
character opens a word, a character neither cased nor case-ignorable closes
it. The look-ahead after a sigma stops after 31 characters; a sigma followed
by more case-ignorable characters than that counts as final.
-/

namespace ExprTranslate.Text

/-- The capital sigma. -/
def capitalSigma : Char := 'Σ'

/-- How many characters after a capital sigma are examined for a cased one. -/
def sigmaLookahead : Nat := 31

/-- The simple lowercase of a character. -/
def lowerSimple (c : Char) : Char :=
  match shiftLookup lowerRuns c.toNat with
  | some n => Char.ofNat n
  | none => c

/-- The full lowercase of a character outside any context. -/
def lowerFull (c : Char) : List Char :=
  if c = 'İ' then ['i', '̇'] else [lowerSimple c]

/-- Whether a character is cased. -/
def isCased (c : Char) : Bool := cased.contains c

/-- Whether a character is case-ignorable. -/
def isCaseIgnorable (c : Char) : Bool := caseIgnorable.contains c

/-- The case-ignorable characters that follow a sigma, at most `n` of them, and what comes
after them. -/
def ignorablePrefix : Nat → List Char → List Char × List Char
  | 0, cs => ([], cs)
  | _, [] => ([], [])
  | n + 1, c :: cs =>
    if isCaseIgnorable c then
      let (ign, rest) := ignorablePrefix n cs
      (c :: ign, rest)
    else ([], c :: cs)

/-- What follows the case-ignorable characters is never longer than what they started. -/
theorem ignorablePrefix_snd_length (n : Nat) (cs : List Char) :
    (ignorablePrefix n cs).2.length ≤ cs.length := by
  induction n generalizing cs with
  | zero => simp [ignorablePrefix]
  | succ n ih =>
    cases cs with
    | nil => simp [ignorablePrefix]
    | cons c cs =>
      simp only [ignorablePrefix]
      split
      · have := ih cs
        simp only [List.length_cons]
        omega
      · simp

/-- The form of a sigma inside a word, given the case-ignorable characters after it (at most
`sigmaLookahead`) and what follows them: final unless the look-ahead ends at a cased
character. -/
def sigmaForm (ign after : List Char) : Char :=
  if ign.length < sigmaLookahead then
    match after with
    | c :: _ => if isCased c then 'σ' else 'ς'
    | [] => 'ς'
  else 'ς'

/-- Lowers a list of characters; `inWord` tells whether a cased character has opened a word
that is still open. -/
def lowerChars (inWord : Bool) (cs : List Char) : List Char :=
  match cs with
  | [] => []
  | c :: rest =>
    if !inWord then
      if isCased c then lowerFull c ++ lowerChars true rest
      else c :: lowerChars false rest
    else if !isCased c && !isCaseIgnorable c then c :: lowerChars false rest
    else if c ≠ capitalSigma then lowerFull c ++ lowerChars true rest
    else
      let split := ignorablePrefix sigmaLookahead rest
      sigmaForm split.1 split.2 :: split.1 ++ lowerChars true split.2
  termination_by cs.length
  decreasing_by
    all_goals simp_wf
    all_goals first
      | omega
      | have := ignorablePrefix_snd_length sigmaLookahead rest; omega

/-- The lowercase of a text. -/
def lower (s : String) : String := String.ofList (lowerChars false s.toList)

end ExprTranslate.Text
