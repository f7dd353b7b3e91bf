import ExprTranslate.Grammar.Analysis
import ExprTranslate.Matrix
/-!
# Selection tables

The LL(1) selection table of a grammar has a row per non-terminal and a
column per terminal. Production `p` is entered at `(lhs, la)` for each `la`
in FIRST of its right-hand side, and, if the right-hand side is nullable, in
FOLLOW of its left-hand side; the productions are entered in order, and the
terminals of each set in order of their numbers.

A cell that receives a second, different production is a conflict; the first
production entered stays the one selected. A grammar whose table has no
conflict is LL(1). Production numbers are stored as 32-bit values, and the
least 32-bit value marks an empty cell. A lookahead outside the table's
columns stops the construction, as the matrix refuses it.
-/

namespace ExprTranslate

/-- Two productions selected by the same non-terminal and lookahead. -/
structure Conflict where
  kind : Kind
  lookahead : Symbol
  first : Int
  second : Int

/-- The text `Kind/La: productions a and b`. -/
def Conflict.render (c : Conflict) : String :=
  c.kind.name ++ "/" ++ c.lookahead.name ++ ": productions " ++ toString c.first ++ " and " ++
    toString c.second

/-- The empty cell of a selection table. -/
def Table.null : Int := -2147483648

/-- A selection table: the grammar's analysis, its cells, and the conflicts found building it. -/
structure Table where
  analysis : Analysis
  matrix : PairMatrix
  conflicts : List Conflict
  deriving Inhabited

/-- The report of a table with conflicts: the grammar is not LL(1). -/
def conflictMessage (name : String) (cs : List Conflict) : String :=
  "grammar " ++ name ++ " is not LL(1): " ++ "; ".intercalate (cs.map Conflict.render)

namespace Table

/-- Enters a production at a lookahead; a conflict is recorded with the first value of the cell.
A lookahead outside the table's columns is refused. -/
def enter (t : Table) (p : Production) (la : Symbol) : Except OutOfRange Table :=
  match t.matrix.add p.lhs.code la.code (wrap32 p.id) with
  | .error e => .error e
  | .ok (m, conflict) =>
    if conflict then
      let (a, _) := m.values p.lhs.code la.code
      .ok { t with matrix := m, conflicts := t.conflicts ++ [⟨p.lhs, la, a, p.id⟩] }
    else .ok { t with matrix := m }

/-- The lookaheads of a production: FIRST of its right-hand side, then FOLLOW of its left-hand
side if the right-hand side is nullable. -/
def lookaheads (a : Analysis) (p : Production) : List Symbol :=
  let (set, nullable) := a.firstOfSeq p.rhs
  if nullable then set ++ a.follow p.lhs else set

/-- The table of an analysed grammar before any production is entered. -/
def empty (a : Analysis) : Table := ⟨a, { rows := 8, cols := Symbol.count, null := Table.null }, []⟩

/-- The selection table of an analysed grammar, or the first lookahead outside its columns. -/
def build (a : Analysis) : Except OutOfRange Table :=
  a.grammar.rules.foldlM (fun t p => (lookaheads a p).foldlM (fun t la => t.enter p la) t) (empty a)

/-- The grammar of a table. -/
def grammar (t : Table) : Grammar := t.analysis.grammar

/-- The production selected for a non-terminal (by number) and a lookahead. -/
def select (t : Table) (k : Int) (la : Symbol) : Option Production :=
  if la.IsKnown then
    let id := t.matrix.value k la.code
    if id = t.matrix.null then none else t.grammar.rule? id
  else none

/-- The lookaheads that select a production for a non-terminal, in order. -/
def expected (t : Table) (k : Kind) : List Symbol :=
  (t.matrix.cells.filter fun c => c.row = (k.code : Int)).map fun c => ⟨c.col⟩

/-- The filled cells in row-major order: non-terminal number, lookahead number, production
number entered first. -/
def entries (t : Table) : List (Int × Int × Int) :=
  t.matrix.cells.map fun c => (c.row, c.col, c.first)

/-- The filled cells with their productions; a number without production gives a blank one. -/
def each (t : Table) : List (Kind × Symbol × Production) :=
  t.matrix.cells.filterMap fun c =>
    (Kind.ofCode? c.row).map fun k =>
      (k, ⟨c.col⟩, (t.grammar.rule? c.first).getD ⟨0, .expr, []⟩)

end Table

end ExprTranslate
