import ExprTranslate.Matrix
/-!
# Adding values to a sparse matrix

The cells of a matrix are kept in strictly increasing row-major order (`PairMatrix.Sorted`).
Adding a value at a position:

* creates the cell with the value first and null second when the position is empty;
* changes nothing when the cell already holds the value, and reports a conflict exactly when the
  cell already holds two values;
* otherwise makes the value the cell's second one and reports a conflict.

`findCell_place` and `place_snd` say this of the cell list, `sorted_place` that the order is
kept; `add_of_inside` and `add_of_outside` give the guard of `PairMatrix.add`.
-/

namespace ExprTranslate

namespace Cell

/-- The cell after a value is added to it: a value it already holds changes nothing, another one
becomes its second value. -/
def receive (v : Int) (c : Cell) : Cell :=
  if c.first = v ∨ c.second = v then c else { c with second := v }

/-- Whether adding a value to a cell reports a conflict: for a value it already holds, when the
cell holds two values; for another value, always. -/
def clash (null v : Int) (c : Cell) : Bool :=
  if c.first = v ∨ c.second = v then c.second ≠ null else true

theorem before_iff {i j : Int} {c : Cell} :
    Cell.before i j c = true ↔ i < c.row ∨ (i = c.row ∧ j < c.col) := by
  simp [Cell.before]

theorem before_eq_false {i j : Int} {c : Cell} :
    Cell.before i j c = false ↔ c.row < i ∨ (c.row = i ∧ c.col ≤ j) := by
  rw [← Bool.not_eq_true, before_iff]
  omega

@[simp] theorem receive_first (v : Int) (c : Cell) : (c.receive v).first = c.first := by
  unfold receive; split <;> rfl

end Cell

namespace PairMatrix

/-- The cell at a position of a list of cells. -/
def findCell (cells : List Cell) (i j : Int) : Option Cell :=
  cells.find? fun c => c.row = i && c.col = j

/-- Cells in strictly increasing row-major order. -/
def Sorted (cells : List Cell) : Prop :=
  cells.Pairwise fun c d => Cell.before c.row c.col d = true

theorem cell?_eq_findCell (m : PairMatrix) (i j : Int) : m.cell? i j = findCell m.cells i j := rfl

section Place

variable {null i j v : Int} {c : Cell} {cells : List Cell}

@[simp] theorem findCell_nil (i j : Int) : findCell [] i j = none := rfl

theorem findCell_cons (i' j' : Int) :
    findCell (c :: cells) i' j' = if c.row = i' ∧ c.col = j' then some c else findCell cells i' j' := by
  by_cases h : c.row = i' ∧ c.col = j' <;> simp_all [findCell]

/-- A sorted list holds no cell at a position before its first cell. -/
theorem findCell_of_before (hs : Sorted (c :: cells)) (hb : Cell.before i j c = true) :
    findCell (c :: cells) i j = none := by
  rw [findCell, List.find?_eq_none]
  intro d hd
  have hlt : Cell.before c.row c.col d = true ∨ d = c := by
    rcases List.mem_cons.mp hd with rfl | hd
    · exact .inr rfl
    · exact .inl (List.rel_of_pairwise_cons hs hd)
  rw [Cell.before_iff] at hb
  rcases hlt with hlt | rfl
  · rw [Cell.before_iff] at hlt
    simp only [Bool.and_eq_true, decide_eq_true_eq, not_and]
    omega
  · simp only [Bool.and_eq_true, decide_eq_true_eq, not_and]
    omega

/-- The step of `place` past a cell at another position that comes first. -/
theorem place_cons_after (hne : ¬(c.row = i ∧ c.col = j)) (hnb : Cell.before i j c = false) :
    place null i j v (c :: cells) = (c :: (place null i j v cells).1, (place null i j v cells).2) := by
  rw [place, if_neg hne, if_neg (by simp [hnb])]

theorem mem_place {d : Cell} (h : d ∈ (place null i j v cells).1) :
    d ∈ cells ∨ (d.row = i ∧ d.col = j) := by
  induction cells with
  | nil => simp_all [place]
  | cons c cs ih =>
    by_cases hc : c.row = i ∧ c.col = j
    · rw [place, if_pos hc] at h
      split at h
      · exact .inl h
      · rcases List.mem_cons.mp h with rfl | h
        · exact .inr hc
        · exact .inl (List.mem_cons_of_mem _ h)
    · cases hb : Cell.before i j c
      · rw [place_cons_after hc hb] at h
        rcases List.mem_cons.mp h with rfl | h
        · exact .inl (List.mem_cons_self ..)
        · exact (ih h).imp_left (List.mem_cons_of_mem _)
      · rw [place, if_neg hc, if_pos hb] at h
        rcases List.mem_cons.mp h with rfl | h
        · exact .inr ⟨rfl, rfl⟩
        · exact .inl h

theorem sorted_place (hs : Sorted cells) : Sorted (place null i j v cells).1 := by
  induction cells with
  | nil => exact List.pairwise_singleton _ _
  | cons c cs ih =>
    obtain ⟨hc, hcs⟩ := List.pairwise_cons.mp hs
    by_cases hat : c.row = i ∧ c.col = j
    · rw [place, if_pos hat]
      split
      · exact hs
      · exact List.pairwise_cons.mpr ⟨fun d hd => by simpa using hc d hd, hcs⟩
    · cases hb : Cell.before i j c
      · rw [place_cons_after hat hb]
        refine List.pairwise_cons.mpr ⟨fun d hd => ?_, ih hcs⟩
        rcases mem_place hd with hd | ⟨hi, hj⟩
        · exact hc d hd
        · rw [Cell.before_eq_false] at hb
          rw [Cell.before_iff]
          omega
      · rw [place, if_neg hat, if_pos hb]
        refine List.pairwise_cons.mpr ⟨fun d hd => ?_, hs⟩
        rcases List.mem_cons.mp hd with rfl | hd
        · exact hb
        · have hcd := Cell.before_iff.mp (hc d hd)
          have hic := Cell.before_iff.mp hb
          exact Cell.before_iff.mpr (by dsimp only; omega)

/-- Adding a value changes the cell at its position only: it creates the cell, or lets the cell
receive the value. -/
theorem findCell_place (hs : Sorted cells) (i' j' : Int) :
    findCell (place null i j v cells).1 i' j' =
      if i' = i ∧ j' = j then some ((findCell cells i j).elim ⟨i, j, v, null⟩ (Cell.receive v))
      else findCell cells i' j' := by
  induction cells with
  | nil =>
    simp only [place, findCell_cons, findCell_nil, Option.elim]
    by_cases h : i' = i ∧ j' = j
    · simp [h]
    · have h' : ¬(i = i' ∧ j = j') := fun h' => h ⟨h'.1.symm, h'.2.symm⟩
      simp only [if_neg h, if_neg h']
  | cons c cs ih =>
    have hcs : Sorted cs := (List.pairwise_cons.mp hs).2
    by_cases hat : c.row = i ∧ c.col = j
    · have hfind : findCell (c :: cs) i j = some c := by rw [findCell_cons, if_pos hat]
      rw [hfind, Option.elim, place, if_pos hat, Cell.receive]
      by_cases hv : c.first = v ∨ c.second = v
      · rw [if_pos hv, if_pos hv]
        by_cases h : i' = i ∧ j' = j
        · rw [if_pos h]
          obtain ⟨rfl, rfl⟩ := h
          exact hfind
        · rw [if_neg h]
      · rw [if_neg hv, if_neg hv]
        dsimp only
        rw [findCell_cons, findCell_cons]
        by_cases h : i' = i ∧ j' = j
        · have hc : c.row = i' ∧ c.col = j' := ⟨hat.1.trans h.1.symm, hat.2.trans h.2.symm⟩
          rw [if_pos h, if_pos hc]
        · have hc : ¬(c.row = i' ∧ c.col = j') :=
            fun hc => h ⟨hc.1.symm.trans hat.1, hc.2.symm.trans hat.2⟩
          rw [if_neg h, if_neg hc, if_neg hc]
    · cases hb : Cell.before i j c
      · rw [place_cons_after hat hb, findCell_cons, ih hcs, findCell_cons, findCell_cons]
        by_cases h : i' = i ∧ j' = j
        · obtain ⟨rfl, rfl⟩ := h
          simp [hat]
        · simp [h]
      · rw [place, if_neg hat, if_pos hb, findCell_cons, findCell_of_before hs hb]
        by_cases h : i' = i ∧ j' = j
        · obtain ⟨rfl, rfl⟩ := h
          simp
        · have h' : ¬(i = i' ∧ j = j') := fun h' => h ⟨h'.1.symm, h'.2.symm⟩
          simp only [if_neg h, if_neg h']

/-- Adding a value reports a conflict as the cell at its position clashes with it; an empty
position reports none. -/
theorem place_snd (hs : Sorted cells) :
    (place null i j v cells).2 = (findCell cells i j).elim false (Cell.clash null v) := by
  induction cells with
  | nil => rfl
  | cons c cs ih =>
    by_cases hat : c.row = i ∧ c.col = j
    · rw [place, if_pos hat, findCell_cons, if_pos hat, Option.elim, Cell.clash]
      by_cases hv : c.first = v ∨ c.second = v
      · rw [if_pos hv, if_pos hv]
      · rw [if_neg hv, if_neg hv]
    · cases hb : Cell.before i j c
      · rw [place_cons_after hat hb, ih (List.pairwise_cons.mp hs).2, findCell_cons, if_neg hat]
      · rw [place, if_neg hat, if_pos hb, findCell_of_before hs hb]
        rfl

end Place

section Add

variable {m : PairMatrix} {i j v : Int}

theorem add_of_inside (hi : 0 ≤ i ∧ i < m.rows) (hj : 0 ≤ j ∧ j < m.cols) :
    m.add i j v = .ok ({ m with cells := (place m.null i j v m.cells).1 }, (place m.null i j v m.cells).2) := by
  rw [add, if_neg (by omega)]

theorem add_of_outside (h : ¬(0 ≤ i ∧ i < m.rows ∧ 0 ≤ j ∧ j < m.cols)) : m.add i j v = .error ⟨i, j⟩ := by
  rw [add, if_pos (by omega)]

end Add

end PairMatrix

end ExprTranslate
