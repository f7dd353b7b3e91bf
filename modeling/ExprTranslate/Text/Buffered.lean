import ExprTranslate.Text.Lower
/-!
# Lowering a text through bounded buffers

The scanner lowers a line in passes: each pass reads a window of at most 128
bytes of the text and writes into an output buffer of bounded size. A pass
knows nothing of the passes before it, so it starts outside any word: a sigma
that opens a window is never final, whatever comes before it.

A pass stops early in three cases, and the next window starts where it
stopped:

* the window's end splits a character;
* the look-ahead after a sigma reaches the window's end before it decides,
  and the window does not end the text (at the end of the text the sigma is
  final);
* the lowercase of the next character, or a sigma with the case-ignorable
  characters the look-ahead copied after it, does not fit into the buffer.

While windows come out unchanged, each is written into a fresh buffer of 128
bytes. The first window that changes keeps that buffer if its output fits
behind the unchanged part (or nothing is unchanged); otherwise the buffer is
as large as the lowered text would be if the rest did not change. A buffer
grows only when a pass can write nothing: to 64 bytes from at most 32,
doubled up to 256, and by half beyond.

Within a window, the rules are those of `lowerChars`.
-/

namespace ExprTranslate.Text

/-- The number of bytes of characters in UTF-8. -/
def utf8Bytes : List Char → Nat
  | [] => 0
  | c :: cs => c.utf8Size + utf8Bytes cs

/-- The size of a window, in bytes. -/
def windowSize : Nat := 128

/-- The characters that fit whole into `n` bytes at the start of a text. -/
def fitting : Nat → List Char → List Char
  | _, [] => []
  | n, c :: cs => if c.utf8Size ≤ n then c :: fitting (n - c.utf8Size) cs else []

/-- A window over a text: the characters it holds whole, whether its end splits the character
after them, and whether it reaches the end of the text. -/
structure Window where
  chars : List Char
  split : Bool
  last : Bool

/-- The window at the start of a text. -/
def Window.ofText (cs : List Char) : Window :=
  let whole := fitting windowSize cs
  { chars := whole
    split := whole.length < cs.length && utf8Bytes whole < windowSize
    last := whole.length == cs.length }

/-- Why a pass stopped before the end of its window. -/
inductive Halt
  /-- The window's end split a character, or cut short a sigma's look-ahead. -/
  | cut
  /-- The buffer had no room for what came next. -/
  | full
  deriving DecidableEq

/-- What a pass did: the characters it wrote, the number of characters it took, and why it
stopped early, if it did. -/
structure Pass where
  out : List Char
  taken : Nat
  halt : Option Halt

/-- What a character other than a sigma inside a word is written as, and whether a word is
open after it; `inWord` tells whether one is open before it. -/
def caseStep (inWord : Bool) (c : Char) : List Char × Bool :=
  if !inWord then
    if isCased c then (lowerFull c, true) else ([c], false)
  else if !isCased c && !isCaseIgnorable c then ([c], false)
  else (lowerFull c, true)

/-- A pass over the characters `cs` left in window `w`, with `room` bytes left in the buffer;
`inWord` tells whether a cased character has opened a word. -/
def passFrom (w : Window) (inWord : Bool) (room : Nat) (cs : List Char) : Pass :=
  match cs with
  | [] => ⟨[], 0, if w.split then some .cut else none⟩
  | c :: rest =>
    if inWord && c == capitalSigma then
      let split := ignorablePrefix sigmaLookahead rest
      let written := 'ς' :: split.1
      if room < utf8Bytes written then ⟨[], 0, some .full⟩
      else if split.1.length < sigmaLookahead && split.2.isEmpty then
        if w.last then ⟨written, 1 + split.1.length, none⟩ else ⟨[], 0, some .cut⟩
      else
        let p := passFrom w true (room - utf8Bytes written) split.2
        ⟨sigmaForm split.1 split.2 :: split.1 ++ p.out, 1 + split.1.length + p.taken, p.halt⟩
    else
      let step := caseStep inWord c
      if room < utf8Bytes step.1 then ⟨[], 0, some .full⟩
      else
        let p := passFrom w step.2 (room - utf8Bytes step.1) rest
        ⟨step.1 ++ p.out, 1 + p.taken, p.halt⟩
  termination_by cs.length
  decreasing_by
    all_goals simp_wf
    all_goals first
      | omega
      | have := ignorablePrefix_snd_length sigmaLookahead rest; omega

/-- A pass over a window, starting outside any word. -/
def pass (w : Window) (room : Nat) : Pass := passFrom w false room w.chars

/-- The size a full buffer of `m` bytes grows to. -/
def grown (m : Nat) : Nat := if m ≤ 32 then 64 else if m ≤ 256 then 2 * m else m + m / 2

/-- Lowers the rest `cs` of a text pass by pass into a buffer of `cap` bytes of which `used` are
written; `fuel` bounds the number of passes. -/
def fillFrom : Nat → Nat → Nat → List Char → List Char
  | 0, _, _, _ => []
  | _, _, _, [] => []
  | fuel + 1, cap, used, c :: rest =>
    let p := pass (Window.ofText (c :: rest)) (cap - used)
    if p.halt == some .full && p.taken == 0 then fillFrom fuel (grown cap) used (c :: rest)
    else p.out ++ fillFrom fuel cap (used + utf8Bytes p.out) ((c :: rest).drop p.taken)

/-- Lowers the rest `cs` of a text of `total` bytes whose first `kept` bytes came out unchanged:
windows that come out unchanged each go into a fresh buffer of `windowSize` bytes, and the
first that changes sets the buffer for `fillFrom`. -/
def settle : Nat → Nat → Nat → List Char → List Char
  | 0, _, _, _ => []
  | _, _, _, [] => []
  | fuel + 1, total, kept, c :: rest =>
    let p := pass (Window.ofText (c :: rest)) windowSize
    let taken := (c :: rest).take p.taken
    if p.out == taken then taken ++ settle fuel total (kept + utf8Bytes taken) ((c :: rest).drop p.taken)
    else
      let outBytes := utf8Bytes p.out
      let cap :=
        if kept != 0 && windowSize < kept + outBytes then total + outBytes - utf8Bytes taken
        else windowSize
      p.out ++ fillFrom fuel cap (kept + outBytes) ((c :: rest).drop p.taken)

/-- The lowercase of a text, lowered in windows through bounded buffers. -/
def lowerBuffered (s : String) : String :=
  let cs := s.toList
  String.ofList (settle (4 * (cs.length + 2)) (utf8Bytes cs) 0 cs)

end ExprTranslate.Text
