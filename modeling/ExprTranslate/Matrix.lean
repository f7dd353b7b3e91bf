/-!
# A sparse matrix of value pairs

An `m × n` matrix of 32-bit values in which most cells are empty. A cell
holds a first value and, once a different value has been added at the same
cell, a second one; the latest different value replaces an earlier second
one. Empty cells and missing second values read as a chosen null value.

Cells are kept sorted by row, then column, so they are visited in row-major
order. Adding outside the matrix is refused.
-/

namespace ExprTranslate

/-- A cell: its position and its two values. -/
structure Cell where
  row : Int
  col : Int
  first : Int
  second : Int
  deriving DecidableEq, Repr, Inhabited

/-- A sparse matrix: its size, its null value and its cells, sorted by position. -/
structure PairMatrix where
  rows : Int
  cols : Int
  null : Int
  cells : List Cell := []
  deriving Inhabited

/-- Reading a value outside the matrix. -/
structure OutOfRange where
  row : Int
  col : Int

/-- The message of an addition outside the matrix. -/
def OutOfRange.message (e : OutOfRange) : String :=
  "sparse.IntMatrix.Add() index (" ++ toString e.row ++ "," ++ toString e.col ++ ") out of range"

/-- Whether position `(i, j)` comes before the cell's in row-major order. -/
def Cell.before (i j : Int) (c : Cell) : Bool := i < c.row || (i = c.row && j < c.col)

namespace PairMatrix

/-- The cell at a position. -/
def cell? (m : PairMatrix) (i j : Int) : Option Cell := m.cells.find? fun c => c.row = i && c.col = j

/-- The first value at a position, or null. -/
def value (m : PairMatrix) (i j : Int) : Int := ((m.cell? i j).map (·.first)).getD m.null

/-- Both values at a position, null for what is missing. -/
def values (m : PairMatrix) (i j : Int) : Int × Int :=
  match m.cell? i j with
  | some c => (c.first, c.second)
  | none => (m.null, m.null)

/-- The number of cells that hold values. -/
def count (m : PairMatrix) : Nat := m.cells.length

/-- The filled cells in the order a visit of them calls back: row, column and both values. -/
def each (m : PairMatrix) : List (Int × Int × Int × Int) :=
  m.cells.map fun c => (c.row, c.col, c.first, c.second)

/-- Places a value in sorted cells: `true` when the cell now holds two different values. -/
def place (null i j v : Int) : List Cell → List Cell × Bool
  | [] => ([⟨i, j, v, null⟩], false)
  | c :: cs =>
    if c.row = i ∧ c.col = j then
      if c.first = v ∨ c.second = v then (c :: cs, c.second ≠ null)
      else ({ c with second := v } :: cs, true)
    else if Cell.before i j c then (⟨i, j, v, null⟩ :: c :: cs, false)
    else
      let (cs', conflict) := place null i j v cs
      (c :: cs', conflict)

/-- Adds a value at a position inside the matrix: whether the cell now holds a conflict. A value
equal to one already there changes nothing. -/
def add (m : PairMatrix) (i j v : Int) : Except OutOfRange (PairMatrix × Bool) :=
  if i < 0 ∨ m.rows ≤ i ∨ j < 0 ∨ m.cols ≤ j then .error ⟨i, j⟩
  else
    let (cells, conflict) := place m.null i j v m.cells
    .ok ({ m with cells }, conflict)

end PairMatrix

/-- A number as a 32-bit two's-complement value. -/
def wrap32 (n : Int) : Int := (n + Int.pow 2 31) % Int.pow 2 32 - Int.pow 2 31

end ExprTranslate
