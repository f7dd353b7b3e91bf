/-!
# Spans of token positions

A span `(lo…hi)` covers the token positions from `lo` up to, not including,
`hi`. Positions are 64-bit words: a negative position wraps around to a
large one, and the length `hi - lo` wraps as well.
-/

namespace ExprTranslate

/-- The token positions from `lo` up to `hi`. -/
structure Span where
  lo : UInt64
  hi : UInt64
  deriving DecidableEq, Repr, Inhabited

namespace Span

/-- A position as a 64-bit word, wrapping around. -/
def word (pos : Int) : UInt64 := UInt64.ofNat (pos % Int.pow 2 64).toNat

/-- The empty span at a position. -/
def atPos (pos : Int) : Span := ⟨word pos, word pos⟩

/-- The number of positions covered, wrapping around. -/
def len (s : Span) : UInt64 := s.hi - s.lo

/-- Whether both ends are zero. -/
def isNull (s : Span) : Bool := s.lo = 0 && s.hi = 0

/-- Ends the span at a position; a position before its start ends it at its start. -/
def close (s : Span) (pos : Int) : Span :=
  if word pos < s.lo then ⟨s.lo, s.lo⟩ else ⟨s.lo, word pos⟩

/-- The least span from either start to either end. -/
def extend (s t : Span) : Span :=
  ⟨if t.lo < s.lo then t.lo else s.lo, if s.hi < t.hi then t.hi else s.hi⟩

/-- The text `(lo…hi)`. -/
def render (s : Span) : String := "(" ++ toString s.lo.toNat ++ "…" ++ toString s.hi.toNat ++ ")"

end Span

end ExprTranslate
