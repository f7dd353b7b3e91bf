import Mathlib.Data.List.Dedup
import Mathlib.Data.List.Perm.Basic
import ExprTranslate.Proofs.PairMatrix
/-!
# A sparse matrix after a history of additions

Start from an empty matrix and add values one after another, each inside the matrix and none of
them the null value. After any such history the matrix

* keeps its cells in strictly increasing row-major order;
* holds at every position the first value added there, and as second value the latest one added
  there that differs from the first (the null value where there is none);
* has one cell per position added at, so its count is the number of those positions, and a visit
  of its cells meets each of them once, in row-major order;

and each addition reports a conflict exactly when two different values have been added at its
position, itself included.

`Records m hist` ties a matrix to the history that built it. `Records.add` is its step, one
addition; `Records.addAll` is the run; `additions_recorded` reads the statements above off it.
-/

namespace ExprTranslate

namespace PairMatrix

/-- An addition: the position and the value added there. -/
structure Addition where
  row : Int
  col : Int
  value : Int
  deriving DecidableEq, Repr

/-- The additions a matrix accepts without a failure and with a value other than its null. -/
def Admits (m : PairMatrix) (a : Addition) : Prop :=
  (0 ≤ a.row ∧ a.row < m.rows) ∧ (0 ≤ a.col ∧ a.col < m.cols) ∧ a.value ≠ m.null

/-- Adds values one after another, with the conflict each addition reports. -/
def addAll (m : PairMatrix) : List Addition → Except OutOfRange (PairMatrix × List Bool)
  | [] => .ok (m, [])
  | a :: rest => do
    let r ← m.add a.row a.col a.value
    let s ← r.1.addAll rest
    pure (s.1, r.2 :: s.2)

/-! ### What a history added -/

/-- The values a history added at a position, in order. -/
def addedAt (hist : List Addition) (i j : Int) : List Int :=
  (hist.filter fun a => a.row = i ∧ a.col = j).map (·.value)

/-- The first value a history added at a position. -/
def firstAdded (hist : List Addition) (i j : Int) : Option Int := (addedAt hist i j).head?

/-- The last value of a list that differs from its first one. -/
def lastOther (l : List Int) : Option Int := l.head?.bind fun a => (l.filter (· ≠ a)).getLast?

/-- The latest value a history added at a position that differs from the first one there. -/
def latestOther (hist : List Addition) (i j : Int) : Option Int := lastOther (addedAt hist i j)

/-- Two different values have been added at a position. -/
def Conflicting (hist : List Addition) (i j : Int) : Prop :=
  ∃ u ∈ addedAt hist i j, ∃ w ∈ addedAt hist i j, u ≠ w

instance (hist : List Addition) (i j : Int) : Decidable (Conflicting hist i j) :=
  inferInstanceAs (Decidable (∃ u ∈ addedAt hist i j, ∃ w ∈ addedAt hist i j, u ≠ w))

/-- The positions a history added at, in order and with repetitions. -/
def positions (hist : List Addition) : List (Int × Int) := hist.map fun a => (a.row, a.col)

/-- Strict row-major order of positions. -/
def RowMajorLt (p q : Int × Int) : Prop := p.1 < q.1 ∨ (p.1 = q.1 ∧ p.2 < q.2)

@[simp] theorem addedAt_nil (i j : Int) : addedAt [] i j = [] := rfl

theorem addedAt_append_single (hist : List Addition) (a : Addition) (i j : Int) :
    addedAt (hist ++ [a]) i j =
      addedAt hist i j ++ if a.row = i ∧ a.col = j then [a.value] else [] := by
  by_cases h : a.row = i ∧ a.col = j <;> simp [addedAt, h]

@[simp] theorem lastOther_nil : lastOther [] = none := rfl

@[simp] theorem lastOther_single (v : Int) : lastOther [v] = none := by
  simp [lastOther]

/-- A value added after the first one is the latest other value, unless it is the first. -/
theorem lastOther_append_single (x : Int) (l : List Int) (v : Int) :
    lastOther (x :: l ++ [v]) = if v = x then lastOther (x :: l) else some v := by
  by_cases hv : v = x
  · subst hv
    simp [lastOther]
  · simp [lastOther, hv]

theorem mem_of_lastOther {l : List Int} {v : Int} (h : lastOther l = some v) : v ∈ l := by
  cases l with
  | nil => simp at h
  | cons x rest =>
    have hv : v ∈ (x :: rest).filter (· ≠ x) := List.mem_of_getLast? (by simpa [lastOther] using h)
    exact List.mem_of_mem_filter hv

/-- A list holds two different values exactly when some value differs from its first. -/
theorem lastOther_isSome_iff (x : Int) (l : List Int) :
    (lastOther (x :: l)).isSome ↔ ∃ u ∈ x :: l, ∃ w ∈ x :: l, u ≠ w := by
  have hsome : (lastOther (x :: l)).isSome ↔ ∃ w ∈ x :: l, w ≠ x := by
    simp [lastOther, Option.isSome_iff_ne_none]
  rw [hsome]
  constructor
  · rintro ⟨w, hw, hne⟩
    exact ⟨w, hw, x, List.mem_cons_self, hne⟩
  · rintro ⟨u, hu, w, hw, hne⟩
    by_cases hux : u = x
    · exact ⟨w, hw, fun hwx => hne (hux.trans hwx.symm)⟩
    · exact ⟨u, hu, hux⟩

theorem conflicting_iff (hist : List Addition) (i j : Int) :
    Conflicting hist i j ↔ (latestOther hist i j).isSome := by
  unfold Conflicting latestOther
  cases addedAt hist i j with
  | nil => simp
  | cons x l => rw [lastOther_isSome_iff]

/-! ### The invariant -/

/-- A matrix holds what a history of additions put into it: its cells are in row-major order,
the cell at a position holds the first value added there and the latest different one (null if
there is none), and no value added was null. -/
structure Records (m : PairMatrix) (hist : List Addition) : Prop where
  sorted : Sorted m.cells
  cell : ∀ i j, findCell m.cells i j =
    (firstAdded hist i j).map fun x => ⟨i, j, x, (latestOther hist i j).getD m.null⟩
  nonNull : ∀ a ∈ hist, a.value ≠ m.null

/-- The empty matrix holds the empty history. -/
theorem records_empty (rows cols null : Int) : Records { rows, cols, null } [] where
  sorted := List.Pairwise.nil
  cell _ _ := rfl
  nonNull _ h := absurd h List.not_mem_nil

section Step

variable {m : PairMatrix} {hist : List Addition}

/-- The cells after an addition hold the history with it. -/
theorem Records.findCell_place (hm : m.Records hist) (a : Addition) (i j : Int) :
    findCell (place m.null a.row a.col a.value m.cells).1 i j =
      (firstAdded (hist ++ [a]) i j).map
        fun x => ⟨i, j, x, (latestOther (hist ++ [a]) i j).getD m.null⟩ := by
  rw [PairMatrix.findCell_place hm.sorted]
  by_cases hat : i = a.row ∧ j = a.col
  · obtain ⟨rfl, rfl⟩ := hat
    rw [if_pos ⟨rfl, rfl⟩, hm.cell]
    unfold firstAdded latestOther
    rw [addedAt_append_single, if_pos ⟨rfl, rfl⟩]
    cases addedAt hist a.row a.col with
    | nil => simp
    | cons x l =>
      -- the cell receives the value: it keeps the first, and the second follows `lastOther`
      rw [lastOther_append_single]
      by_cases hv : a.value = x
      · simp [Cell.receive, hv]
      · by_cases hs : (lastOther (x :: l)).getD m.null = a.value
        · simp [Cell.receive, hv, hs]
        · simp [Cell.receive, hv, hs, Ne.symm hv]
  · have hne : ¬(a.row = i ∧ a.col = j) := fun h => hat ⟨h.1.symm, h.2.symm⟩
    rw [if_neg hat, hm.cell]
    simp only [firstAdded, latestOther, addedAt_append_single, if_neg hne, List.append_nil]

/-- An addition reports a conflict exactly when two different values are then added at its
position. -/
theorem Records.place_snd (hm : m.Records hist) {a : Addition} (hv : a.value ≠ m.null) :
    (place m.null a.row a.col a.value m.cells).2 = decide (Conflicting (hist ++ [a]) a.row a.col) := by
  rw [PairMatrix.place_snd hm.sorted, hm.cell, Bool.eq_iff_iff, decide_eq_true_iff,
    conflicting_iff]
  unfold firstAdded latestOther at *
  rw [addedAt_append_single, if_pos ⟨rfl, rfl⟩]
  cases hl : addedAt hist a.row a.col with
  | nil => simp
  | cons x l =>
    rw [lastOther_append_single]
    simp only [List.head?_cons, Option.map_some, Option.elim_some, Cell.clash]
    by_cases hvx : a.value = x
    · -- the first value again: the flag is whether a second value was there before
      have hnull : (lastOther (x :: l)).getD m.null ≠ m.null ↔ (lastOther (x :: l)).isSome := by
        cases ho : lastOther (x :: l) with
        | none => simp
        | some w =>
          have hw : w ∈ addedAt hist a.row a.col := hl ▸ mem_of_lastOther ho
          obtain ⟨b, hb, rfl⟩ := List.mem_map.mp hw
          simpa using hm.nonNull b (List.mem_of_mem_filter hb)
      simp [hvx, hnull]
    · by_cases hs : (lastOther (x :: l)).getD m.null = a.value
      · simp [hvx, hs, hv, Ne.symm hvx]
      · simp [hvx, hs, Ne.symm hvx]

/-- **Step.** An addition the matrix admits succeeds, reports whether two different values have
been added at its position, and leaves a matrix that holds the history with it. -/
theorem Records.add (hm : m.Records hist) {a : Addition} (ha : m.Admits a) :
    ∃ cells, m.add a.row a.col a.value =
        .ok ({ m with cells }, decide (Conflicting (hist ++ [a]) a.row a.col)) ∧
      Records { m with cells } (hist ++ [a]) := by
  obtain ⟨hi, hj, hv⟩ := ha
  refine ⟨(place m.null a.row a.col a.value m.cells).1, ?_, ?_⟩
  · rw [add_of_inside hi hj, hm.place_snd hv]
  · exact
      { sorted := sorted_place hm.sorted
        cell := hm.findCell_place a
        nonNull := by
          intro b hb
          rcases List.mem_append.mp hb with hb | hb
          · exact hm.nonNull b hb
          · rw [List.mem_singleton.mp hb]
            exact hv }

end Step

/-- **Run.** Additions that the matrix admits all succeed, change only its cells, leave it
holding the whole history, and each reports whether two different values have been added at its
position up to and including it. -/
theorem Records.addAll {m : PairMatrix} {hist : List Addition} (hm : m.Records hist)
    {ops : List Addition} (hops : ∀ a ∈ ops, m.Admits a) :
    ∃ cells reports, m.addAll ops = .ok ({ m with cells }, reports) ∧
      Records { m with cells } (hist ++ ops) ∧ reports.length = ops.length ∧
      ∀ k (hk : k < ops.length),
        reports[k]? = some (decide (Conflicting (hist ++ ops.take (k + 1)) ops[k].row ops[k].col)) := by
  induction ops generalizing m hist with
  | nil => exact ⟨m.cells, [], rfl, by simpa using hm, rfl, fun k hk => absurd hk (by simp)⟩
  | cons a rest ih =>
    obtain ⟨cells₁, hadd, hm₁⟩ := hm.add (hops a List.mem_cons_self)
    obtain ⟨cells, reports, hrun, hm', hlen, hrep⟩ :=
      ih hm₁ fun b hb => hops b (List.mem_cons_of_mem a hb)
    refine ⟨cells, decide (Conflicting (hist ++ [a]) a.row a.col) :: reports, ?_, by simpa using hm',
      by simp [hlen], ?_⟩
    · simp only [PairMatrix.addAll, hadd, bind, Except.bind, hrun]
      rfl
    · intro k hk
      cases k with
      | zero => simp
      | succ k =>
        rw [List.getElem?_cons_succ, hrep k (by simpa using hk)]
        simp only [List.take_succ_cons, List.append_assoc, List.singleton_append,
          List.getElem_cons_succ]
        rfl

/-! ### Reading the matrix -/

section Read

variable {m : PairMatrix} {hist : List Addition}

theorem Records.value (hm : m.Records hist) (i j : Int) :
    m.value i j = (firstAdded hist i j).getD m.null := by
  rw [PairMatrix.value, cell?_eq_findCell, hm.cell]
  cases firstAdded hist i j <;> rfl

theorem Records.values_snd (hm : m.Records hist) (i j : Int) :
    (m.values i j).2 = (latestOther hist i j).getD m.null := by
  rw [PairMatrix.values, cell?_eq_findCell, hm.cell]
  unfold firstAdded latestOther
  cases addedAt hist i j <;> rfl

/-- The positions of the cells are the positions added at. -/
theorem Records.mem_positions (hm : m.Records hist) (p : Int × Int) :
    p ∈ m.cells.map (fun c => (c.row, c.col)) ↔ p ∈ positions hist := by
  obtain ⟨i, j⟩ := p
  have hcell : (findCell m.cells i j).isSome ↔ (firstAdded hist i j).isSome := by
    rw [hm.cell, Option.isSome_map]
  have hleft : (i, j) ∈ m.cells.map (fun c => (c.row, c.col)) ↔ (findCell m.cells i j).isSome := by
    simp [findCell, List.find?_isSome]
  have hright : (i, j) ∈ positions hist ↔ (firstAdded hist i j).isSome := by
    simp [positions, firstAdded, addedAt]
  rw [hleft, hright, hcell]

/-- Cells in row-major order sit at distinct positions in row-major order. -/
theorem Records.positions_rowMajor (hm : m.Records hist) :
    (m.cells.map fun c => (c.row, c.col)).Pairwise RowMajorLt := by
  rw [List.pairwise_map]
  exact hm.sorted.imp fun h => Cell.before_iff.mp h

theorem Records.count (hm : m.Records hist) : m.count = (positions hist).dedup.length := by
  have hnodup : (m.cells.map fun c => (c.row, c.col)).Nodup :=
    hm.positions_rowMajor.imp fun {p q} h hpq => by
      subst hpq
      rcases h with h | h <;> omega
  have hperm : (m.cells.map fun c => (c.row, c.col)).Perm (positions hist).dedup :=
    (List.perm_ext_iff_of_nodup hnodup (List.nodup_dedup _)).mpr fun p => by
      rw [List.mem_dedup, hm.mem_positions]
  rw [PairMatrix.count, ← hperm.length_eq, List.length_map]

end Read

/-- **A history of additions.** Adding values one after another to an empty matrix, each inside
it and none the null value: every addition succeeds; the cells stay in strictly increasing
row-major order; the value at a position is the first one added there and the second value the
latest one added there that differs from it (null where there is none); each addition reports a
conflict exactly when two different values have been added at its position so far; the count is
the number of positions added at; and a visit of the cells meets each of those positions once,
in row-major order. -/
theorem additions_recorded (rows cols null : Int) (ops : List Addition)
    (hops : ∀ a ∈ ops, (0 ≤ a.row ∧ a.row < rows) ∧ (0 ≤ a.col ∧ a.col < cols) ∧ a.value ≠ null) :
    ∃ m reports, ({ rows, cols, null } : PairMatrix).addAll ops = .ok (m, reports) ∧
      Sorted m.cells ∧
      (∀ i j, m.value i j = (firstAdded ops i j).getD null) ∧
      (∀ i j, (m.values i j).2 = (latestOther ops i j).getD null) ∧
      reports.length = ops.length ∧
      (∀ k (hk : k < ops.length),
        reports[k]? = some (decide (Conflicting (ops.take (k + 1)) ops[k].row ops[k].col))) ∧
      m.count = (positions ops).dedup.length ∧
      (m.each.map fun e => (e.1, e.2.1)).Pairwise RowMajorLt ∧
      ∀ p, p ∈ m.each.map (fun e => (e.1, e.2.1)) ↔ p ∈ positions ops := by
  obtain ⟨cells, reports, hrun, hm, hlen, hrep⟩ := (records_empty rows cols null).addAll hops
  have hvisit : ({ rows, cols, null, cells } : PairMatrix).each.map (fun e => (e.1, e.2.1)) =
      cells.map fun c => (c.row, c.col) := by
    simp [each, Function.comp_def]
  refine ⟨_, reports, hrun, hm.sorted, hm.value, hm.values_snd, hlen, ?_, hm.count, ?_, ?_⟩
  · simpa using hrep
  · rw [hvisit]
    exact hm.positions_rowMajor
  · intro p
    rw [hvisit]
    exact hm.mem_positions p

/-- Five additions: 5, 7, 5 and 9 at one position, 4 at another. -/
def sampleAdditions : List Addition := [⟨0, 2, 5⟩, ⟨1, 0, 4⟩, ⟨0, 2, 7⟩, ⟨0, 2, 5⟩, ⟨0, 2, 9⟩]

/-- The sample additions fit a 2 × 3 matrix with null -1. -/
theorem sampleAdditions_recorded :
    (∀ a ∈ sampleAdditions, (0 ≤ a.row ∧ a.row < 2) ∧ (0 ≤ a.col ∧ a.col < 3) ∧ a.value ≠ -1) ∧
      ∃ m reports, ({ rows := 2, cols := 3, null := -1 } : PairMatrix).addAll sampleAdditions =
          .ok (m, reports) ∧
        Sorted m.cells ∧
        (∀ i j, m.value i j = (firstAdded sampleAdditions i j).getD (-1)) ∧
        (∀ i j, (m.values i j).2 = (latestOther sampleAdditions i j).getD (-1)) ∧
        reports.length = sampleAdditions.length ∧
        (∀ k (hk : k < sampleAdditions.length),
          reports[k]? = some (decide (Conflicting (sampleAdditions.take (k + 1))
            sampleAdditions[k].row sampleAdditions[k].col))) ∧
        m.count = (positions sampleAdditions).dedup.length ∧
        (m.each.map fun e => (e.1, e.2.1)).Pairwise RowMajorLt ∧
        ∀ p, p ∈ m.each.map (fun e => (e.1, e.2.1)) ↔ p ∈ positions sampleAdditions :=
  ⟨by decide, additions_recorded 2 3 (-1) sampleAdditions (by decide)⟩

end PairMatrix

end ExprTranslate
