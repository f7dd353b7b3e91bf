/-!
# Sets and maps of code points given by ranges

Character properties are tables of closed code point ranges, sorted and
disjoint, looked up by binary search. A mapping that moves whole runs of
code points by one offset is a table of `ShiftRun`s, looked up the same way.
-/

namespace ExprTranslate.Text

/-- A set of code points: closed ranges `(lo, hi)`, sorted and disjoint. -/
structure CodeSet where
  ranges : Array (Nat × Nat)

/-- Whether a code point lies in one of the ranges, found by halving the search window. -/
def CodeSet.containsNat (s : CodeSet) (n : Nat) : Bool :=
  search 0 s.ranges.size
where
  search (lo hi : Nat) : Bool :=
    if lo < hi then
      let mid := (lo + hi) / 2
      match s.ranges[mid]? with
      | some (a, b) =>
        if n < a then search lo mid
        else if b < n then search (mid + 1) hi
        else true
      | none => false
    else false
  termination_by hi - lo

/-- Whether a character lies in the set. -/
def CodeSet.contains (s : CodeSet) (c : Char) : Bool := s.containsNat c.toNat

/-- Code points `lo, lo + stride, …` up to `hi`, each moved by `delta`. -/
structure ShiftRun where
  lo : Nat
  hi : Nat
  delta : Int
  stride : Nat

/-- Where a run sends a code point, if the run covers it. -/
def ShiftRun.apply? (r : ShiftRun) (n : Nat) : Option Nat :=
  if r.lo ≤ n ∧ n ≤ r.hi ∧ (n - r.lo) % r.stride = 0 then some (n + r.delta).toNat else none

/-- The image of a code point under sorted, disjoint runs; `none` when no run moves it. -/
def shiftLookup (runs : Array ShiftRun) (n : Nat) : Option Nat :=
  search 0 runs.size
where
  search (lo hi : Nat) : Option Nat :=
    if lo < hi then
      let mid := (lo + hi) / 2
      match runs[mid]? with
      | some r =>
        if n < r.lo then search lo mid
        else if r.hi < n then search (mid + 1) hi
        else r.apply? n
      | none => none
    else none
  termination_by hi - lo

end ExprTranslate.Text
