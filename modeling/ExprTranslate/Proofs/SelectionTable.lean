import ExprTranslate.Grammar.Expressions
import ExprTranslate.Proofs.FollowSets
import ExprTranslate.Proofs.PairMatrix
/-!
# Selection tables of analysed grammars

`Table.build` enters each production at each of its lookaheads, in definition order
(`build_eq`). The matrix refuses a lookahead outside its columns, and every lookahead of a
grammar whose terminals are symbols lies inside them (`build_ok`). When the production numbers
also fit the table (`Grammar.WellNumbered`: 32-bit values other than the null value, no two
alike), the table is the LL(1) selection table (`selection_table_correct`):

* `select` gives the first production of the non-terminal, in definition order, that has the
  lookahead among its lookaheads (its PREDICT set);
* the table holds a conflict exactly when two productions of one non-terminal share a lookahead;
* `expected` lists the lookaheads that select a production, by increasing number.

The proofs follow the cells through the construction: `Table.Filled` says what a table holds
after a list of entries, and `Table.Filled.enter` that entering one more keeps it.
-/

namespace ExprTranslate

/-- The terminals of a grammar's right-hand sides are symbols. -/
def Grammar.KnownTerminals (g : Grammar) : Prop :=
  ∀ t ∈ rhsTerminals g.rules, t.IsKnown

instance (g : Grammar) : Decidable g.KnownTerminals :=
  inferInstanceAs (Decidable (∀ t ∈ rhsTerminals g.rules, t.IsKnown))

/-- The production numbers of a grammar fit a table: each is a 32-bit value other than the least
one, which marks an empty cell, and no two productions share one. -/
structure Grammar.WellNumbered (g : Grammar) : Prop where
  above : ∀ p ∈ g.rules, Table.null < p.id
  below : ∀ p ∈ g.rules, p.id < 2147483648
  nodup : (g.rules.map (·.id)).Nodup

theorem Symbol.mem_all {s : Symbol} : s ∈ Symbol.all ↔ s.IsKnown := by
  simp only [Symbol.all, List.mem_map, List.mem_range, Symbol.IsKnown, Symbol.count]
  constructor
  · rintro ⟨i, hi, rfl⟩
    dsimp only
    omega
  · intro h
    exact ⟨s.code.toNat, by omega, Symbol.ext_code (by dsimp only; omega)⟩

theorem Symbol.sorted_all : SymSet.Sorted Symbol.all :=
  List.pairwise_map.mpr (List.pairwise_lt_range.imp fun h => by dsimp only; omega)

theorem wrap32_of_range {n : Int} (h₁ : Table.null ≤ n) (h₂ : n < 2147483648) : wrap32 n = n := by
  simp only [wrap32, show Int.pow 2 31 = 2147483648 from rfl, show Int.pow 2 32 = 4294967296 from rfl]
  simp only [Table.null] at h₁
  omega

theorem Grammar.WellNumbered.wrap32_id {g : Grammar} (hn : g.WellNumbered) {p : Production}
    (hp : p ∈ g.rules) : wrap32 p.id = p.id :=
  wrap32_of_range (hn.above p hp).le (hn.below p hp)

theorem Grammar.WellNumbered.rule?_id {g : Grammar} (hn : g.WellNumbered) {p : Production}
    (hp : p ∈ g.rules) : g.rule? p.id = some p := by
  obtain ⟨q, hq⟩ : ∃ q, g.rule? p.id = some q := Option.isSome_iff_exists.mp
    (List.find?_isSome.mpr ⟨p, hp, by simp⟩)
  have hqid : q.id = p.id := by simpa using List.find?_some hq
  rw [hq, List.inj_on_of_nodup_map hn.nodup (List.mem_of_find?_eq_some hq) hp hqid]

/-! ### The entries of a table -/

/-- The cells a table is built from, in the order they are entered: each production with each of
its lookaheads. -/
def tableEntries (a : Analysis) : List (Production × Symbol) :=
  a.grammar.rules.flatMap fun p => (Table.lookaheads a p).map (Prod.mk p)

theorem build_eq (a : Analysis) :
    Table.build a = (tableEntries a).foldlM (fun t e => t.enter e.1 e.2) (Table.empty a) := by
  unfold Table.build tableEntries
  generalize Table.empty a = t₀
  generalize a.grammar.rules = rules
  induction rules generalizing t₀ with
  | nil => rfl
  | cons p ps ih =>
    rw [List.foldlM_cons, List.flatMap_cons, List.foldlM_append, List.foldlM_map]
    congr 1
    funext t
    exact ih t

theorem mem_tableEntries {a : Analysis} {e : Production × Symbol} :
    e ∈ tableEntries a ↔ e.1 ∈ a.grammar.rules ∧ e.2 ∈ Table.lookaheads a e.1 := by
  obtain ⟨p, la⟩ := e
  simp [tableEntries]

/-- Whether an entry lands on the cell of a row and a column. -/
def landsAt (i j : Int) (e : Production × Symbol) : Bool := e.1.lhs.code = i && e.2.code = j

theorem landsAt_iff {k : Kind} {la : Symbol} {e : Production × Symbol} :
    landsAt k.code la.code e = true ↔ e.1.lhs = k ∧ e.2 = la := by
  simp only [landsAt, Bool.and_eq_true, decide_eq_true_eq]
  exact ⟨fun h => ⟨Kind.code_injective (by omega), Symbol.ext_code h.2⟩, fun h => by rw [h.1, h.2]; simp⟩

theorem find?_map_landsAt (p : Production) (k : Kind) (la : Symbol) (l : List Symbol) :
    (l.map (Prod.mk p)).find? (landsAt k.code la.code) =
      if p.lhs = k ∧ la ∈ l then some (p, la) else none := by
  induction l with
  | nil => simp
  | cons x xs ih =>
    rw [List.map_cons, List.find?_cons, ih]
    by_cases hx : landsAt k.code la.code (p, x) = true
    · obtain ⟨hk, rfl⟩ := landsAt_iff.mp hx
      have hk' : p.lhs = k := hk
      simp [hx, hk']
    · have hx' : ¬(p.lhs = k ∧ x = la) := fun h => hx (landsAt_iff.mpr h)
      simp only [hx, List.mem_cons]
      by_cases hk : p.lhs = k
      · simp only [hk, true_and] at hx' ⊢
        simp [Ne.symm hx']
      · simp [hk]

/-- The first entry at a cell is the first production of the row's non-terminal with the
column's lookahead. -/
theorem find?_tableEntries (a : Analysis) (k : Kind) (la : Symbol) :
    (tableEntries a).find? (landsAt k.code la.code) =
      (a.grammar.rules.find? fun p => p.lhs = k ∧ la ∈ Table.lookaheads a p).map fun p => (p, la) := by
  unfold tableEntries
  induction a.grammar.rules with
  | nil => rfl
  | cons p ps ih =>
    rw [List.flatMap_cons, List.find?_append, find?_map_landsAt, ih, List.find?_cons]
    by_cases h : p.lhs = k ∧ la ∈ Table.lookaheads a p
    · simp [h]
    · simp [h]

/-! ### Lookaheads are symbols -/

theorem mem_lookaheads {a : Analysis} {p : Production} {la : Symbol} :
    la ∈ Table.lookaheads a p ↔
      la ∈ (a.firstOfSeq p.rhs).1 ∨ ((a.firstOfSeq p.rhs).2 = true ∧ la ∈ a.follow p.lhs) := by
  unfold Table.lookaheads
  rcases a.firstOfSeq p.rhs with ⟨set, nullable⟩
  cases nullable <;> simp

/-- The lookaheads of a production hold terminals of the right-hand sides and the end marker. -/
theorem lookaheads_known {g : Grammar} (hk : g.KnownTerminals) {p : Production} (hp : p ∈ g.rules)
    {la : Symbol} (hla : la ∈ Table.lookaheads g.analyze p) : la.IsKnown := by
  have hfirsts : ∀ k, (infoOf g.analyze.info k).first ⊆ rhsTerminals g.rules := fun k => by
    rw [followInv_analyze.first k]
    exact firstInv_firstSlots.bounded k
  rcases mem_lookaheads.mp hla with hfirst | ⟨_, hfollow⟩
  · exact hk _ (firstIn_subset hfirsts (fun t ht => mem_rhsTerminals hp ht) hfirst)
  · rcases List.mem_cons.mp (followInv_analyze.bounded p.lhs hfollow) with rfl | ht
    · decide
    · exact hk _ ht

/-! ### Entering productions -/

/-- Entering a production at a lookahead inside the columns adds it to the matrix, and records a
conflict as the cell clashes with it. -/
theorem enter_of_known {t : Table} {p : Production} {la : Symbol} (hrows : t.matrix.rows = 8)
    (hcols : t.matrix.cols = Symbol.count) (hla : la.IsKnown) :
    ∃ t', t.enter p la = .ok t' ∧ t'.analysis = t.analysis ∧
      t'.matrix = { t.matrix with
        cells := (PairMatrix.place t.matrix.null p.lhs.code la.code (wrap32 p.id) t.matrix.cells).1 } ∧
      (t'.conflicts = [] ↔ t.conflicts = [] ∧
        (PairMatrix.place t.matrix.null p.lhs.code la.code (wrap32 p.id) t.matrix.cells).2 = false) := by
  have hrow : 0 ≤ (p.lhs.code : Int) ∧ (p.lhs.code : Int) < t.matrix.rows := by
    have := p.lhs.code_lt
    rw [hrows]
    omega
  have hcol : 0 ≤ la.code ∧ la.code < t.matrix.cols := by
    rw [hcols]
    exact hla
  unfold Table.enter
  rw [PairMatrix.add_of_inside hrow hcol]
  cases hc : (PairMatrix.place t.matrix.null p.lhs.code la.code (wrap32 p.id) t.matrix.cells).2
  · exact ⟨_, rfl, rfl, rfl, by simp⟩
  · exact ⟨_, rfl, rfl, rfl, by simp⟩

/-- The shape every table built from an analysis keeps: the analysis, eight rows, a column per
symbol, the null value, and sorted cells inside the columns. -/
structure Table.Shaped (a : Analysis) (t : Table) : Prop where
  analysis : t.analysis = a
  rows : t.matrix.rows = 8
  cols : t.matrix.cols = Symbol.count
  null : t.matrix.null = Table.null
  sorted : PairMatrix.Sorted t.matrix.cells
  inside : ∀ c ∈ t.matrix.cells, 0 ≤ c.col ∧ c.col < Symbol.count

section Shaped

variable {a : Analysis} {t : Table}

theorem Table.shaped_empty (a : Analysis) : (Table.empty a).Shaped a :=
  ⟨rfl, rfl, rfl, rfl, List.Pairwise.nil, by simp [Table.empty]⟩

/-- A table that received a production at a lookahead inside the columns keeps its shape. -/
theorem Table.Shaped.entered (hs : t.Shaped a) {t' : Table} {p : Production} {la : Symbol}
    (hla : la.IsKnown) (han : t'.analysis = t.analysis)
    (hm : t'.matrix = { t.matrix with
      cells := (PairMatrix.place t.matrix.null p.lhs.code la.code (wrap32 p.id) t.matrix.cells).1 }) :
    t'.Shaped a := by
  refine ⟨han.trans hs.analysis, ?_, ?_, ?_, ?_, ?_⟩ <;> rw [hm]
  · exact hs.rows
  · exact hs.cols
  · exact hs.null
  · exact PairMatrix.sorted_place hs.sorted
  · intro c hc
    rcases PairMatrix.mem_place hc with hc | ⟨_, hcol⟩
    · exact hs.inside c hc
    · rw [hcol]
      exact hla

theorem Table.Shaped.enter (hs : t.Shaped a) {p : Production} {la : Symbol} (hla : la.IsKnown) :
    ∃ t', t.enter p la = .ok t' ∧ t'.Shaped a := by
  obtain ⟨t', henter, han, hm, -⟩ := enter_of_known (p := p) hs.rows hs.cols hla
  exact ⟨t', henter, hs.entered hla han hm⟩

theorem Table.Shaped.foldlM_enter (hs : t.Shaped a) {E : List (Production × Symbol)}
    (hE : ∀ e ∈ E, e.2.IsKnown) :
    ∃ t', E.foldlM (fun t e => t.enter e.1 e.2) t = .ok t' ∧ t'.Shaped a := by
  induction E generalizing t with
  | nil => exact ⟨t, rfl, hs⟩
  | cons e E ih =>
    obtain ⟨t₁, h₁, hs₁⟩ := hs.enter (p := e.1) (hE e (List.mem_cons_self ..))
    obtain ⟨t', h', hs'⟩ := ih hs₁ fun e' he' => hE e' (List.mem_cons_of_mem _ he')
    exact ⟨t', by rw [List.foldlM_cons, h₁]; exact h', hs'⟩

/-- A lookahead outside the columns is refused. -/
theorem Table.Shaped.enter_error (hs : t.Shaped a) {p : Production} {la : Symbol}
    (hla : ¬ la.IsKnown) : ∃ e, t.enter p la = .error e := by
  have hout : ¬(0 ≤ (p.lhs.code : Int) ∧ (p.lhs.code : Int) < t.matrix.rows ∧
      0 ≤ la.code ∧ la.code < t.matrix.cols) := by
    rw [hs.cols]
    exact fun h => hla ⟨h.2.2.1, h.2.2.2⟩
  refine ⟨⟨p.lhs.code, la.code⟩, ?_⟩
  unfold Table.enter
  rw [PairMatrix.add_of_outside hout]

/-- Entries that all went in had their lookaheads inside the columns. -/
theorem Table.Shaped.known_of_foldlM_enter (hs : t.Shaped a) {E : List (Production × Symbol)}
    {t' : Table} (h : E.foldlM (fun t e => t.enter e.1 e.2) t = .ok t') : ∀ e ∈ E, e.2.IsKnown := by
  induction E generalizing t with
  | nil => simp
  | cons e E ih =>
    rw [List.foldlM_cons] at h
    have hla : e.2.IsKnown := by
      by_contra hla
      obtain ⟨err, herr⟩ := hs.enter_error (p := e.1) hla
      rw [herr] at h
      cases h
    obtain ⟨t₁, h₁, hs₁⟩ := hs.enter (p := e.1) hla
    rw [h₁] at h
    intro e' he'
    rcases List.mem_cons.mp he' with rfl | he'
    · exact hla
    · exact ih hs₁ h e' he'

end Shaped

/-- The lookaheads of a grammar's productions are symbols: they fit the table's columns. -/
def Grammar.KnownLookaheads (g : Grammar) : Prop :=
  ∀ p ∈ g.rules, ∀ la ∈ Table.lookaheads g.analyze p, la.IsKnown

theorem Grammar.KnownTerminals.lookaheads {g : Grammar} (hk : g.KnownTerminals) :
    g.KnownLookaheads :=
  fun _ hp _ hla => lookaheads_known hk hp hla

/-- A table that is built had every lookahead inside its columns. -/
theorem knownLookaheads_of_build {g : Grammar} {t : Table} (h : Table.build g.analyze = .ok t) :
    g.KnownLookaheads := by
  rw [build_eq] at h
  exact fun p hp la hla =>
    (Table.shaped_empty _).known_of_foldlM_enter h (p, la) (mem_tableEntries.mpr ⟨hp, hla⟩)

/-- The table of a grammar whose terminals are symbols is built: no lookahead falls outside the
columns. -/
theorem build_ok (g : Grammar) (hk : g.KnownTerminals) :
    ∃ t, Table.build g.analyze = .ok t ∧ t.Shaped g.analyze := by
  rw [build_eq]
  refine (Table.shaped_empty _).foldlM_enter fun e he => ?_
  obtain ⟨hp, hla⟩ := mem_tableEntries.mp he
  exact lookaheads_known hk hp hla

theorem expressionGrammar_knownTerminals : expressionGrammar.KnownTerminals := by decide +kernel

theorem expressionGrammar_wellNumbered : expressionGrammar.WellNumbered :=
  ⟨by decide +kernel, by decide +kernel, by decide +kernel⟩

/-- The expression table is the table its grammar builds. -/
theorem expressionTable_build : Table.build expressionGrammar.analyze = .ok expressionTable := by
  obtain ⟨t, ht, -⟩ := build_ok expressionGrammar expressionGrammar_knownTerminals
  unfold expressionTable
  rw [ht]

/-! ### What the cells hold -/

/-- The entries on each cell carry one production number. -/
def Table.Agree (E : List (Production × Symbol)) : Prop :=
  ∀ e ∈ E, ∀ e' ∈ E, e.1.lhs = e'.1.lhs → e.2 = e'.2 → wrap32 e.1.id = wrap32 e'.1.id

theorem Table.agree_append_single {E : List (Production × Symbol)} {e₀ : Production × Symbol} :
    Table.Agree (E ++ [e₀]) ↔
      Table.Agree E ∧ ∀ e ∈ E, e.1.lhs = e₀.1.lhs → e.2 = e₀.2 → wrap32 e.1.id = wrap32 e₀.1.id := by
  simp only [Table.Agree, List.mem_append, List.mem_singleton]
  constructor
  · intro h
    exact ⟨fun e he e' he' => h e (.inl he) e' (.inl he'), fun e he => h e (.inl he) e₀ (.inr rfl)⟩
  · rintro ⟨hE, h₀⟩ e (he | rfl) e' (he' | rfl) hk hla
    · exact hE e he e' he' hk hla
    · exact h₀ e he hk hla
    · exact (h₀ e' he' hk.symm hla.symm).symm
    · rfl

/-- What a table holds after a list of entries: at each cell, first the number of the first entry
that landed there, and second the null value exactly when all entries there carry that number;
and it holds a conflict exactly when two entries on one cell carry different numbers. -/
structure Table.Filled (a : Analysis) (E : List (Production × Symbol)) (t : Table) : Prop
    extends Table.Shaped a t where
  first : ∀ i j, (t.matrix.cell? i j).map Cell.first = (E.find? (landsAt i j)).map fun e => wrap32 e.1.id
  second : ∀ i j c, t.matrix.cell? i j = some c →
    (c.second = Table.null ↔ ∀ e ∈ E, landsAt i j e = true → wrap32 e.1.id = c.first)
  conflicts : t.conflicts = [] ↔ Table.Agree E

section Cells

variable {cells : List Cell} {E : List (Production × Symbol)} {p : Production} {la : Symbol}

theorem landsAt_self : landsAt p.lhs.code la.code (p, la) = true := by
  simp [landsAt]

theorem landsAt_single_of_ne {i j : Int} (h : ¬(i = p.lhs.code ∧ j = la.code)) :
    ([(p, la)].find? (landsAt i j)) = none := by
  cases hl : landsAt i j (p, la)
  · simp [hl]
  · simp only [landsAt, Bool.and_eq_true, decide_eq_true_eq] at hl
    exact absurd ⟨hl.1.symm, hl.2.symm⟩ h

/-- An empty cell has no entry. -/
theorem no_entry_of_find?_none {i j : Int} (h : E.find? (landsAt i j) = none) {e : Production × Symbol}
    (he : e ∈ E) : landsAt i j e = false := by
  simpa using List.find?_eq_none.mp h e he

theorem first_place (hs : PairMatrix.Sorted cells)
    (hfirst : ∀ i j, (PairMatrix.findCell cells i j).map Cell.first =
      (E.find? (landsAt i j)).map fun e => wrap32 e.1.id) (i' j' : Int) :
    (PairMatrix.findCell (PairMatrix.place Table.null p.lhs.code la.code (wrap32 p.id) cells).1 i' j').map
        Cell.first = ((E ++ [(p, la)]).find? (landsAt i' j')).map fun e => wrap32 e.1.id := by
  rw [PairMatrix.findCell_place hs, List.find?_append]
  by_cases h : i' = p.lhs.code ∧ j' = la.code
  · obtain ⟨rfl, rfl⟩ := h
    rw [if_pos ⟨rfl, rfl⟩]
    have hE := hfirst p.lhs.code la.code
    cases hc : PairMatrix.findCell cells p.lhs.code la.code with
    | none =>
      rw [hc, Option.map_none, eq_comm, Option.map_eq_none_iff] at hE
      simp [hE, landsAt_self]
    | some c =>
      rw [hc, Option.map_some, eq_comm, Option.map_eq_some_iff] at hE
      obtain ⟨e, he, hce⟩ := hE
      simp [he, hce]
  · rw [if_neg h, hfirst, landsAt_single_of_ne h, Option.or_none]

theorem second_place (hs : PairMatrix.Sorted cells)
    (hfirst : ∀ i j, (PairMatrix.findCell cells i j).map Cell.first =
      (E.find? (landsAt i j)).map fun e => wrap32 e.1.id)
    (hsecond : ∀ i j c, PairMatrix.findCell cells i j = some c →
      (c.second = Table.null ↔ ∀ e ∈ E, landsAt i j e = true → wrap32 e.1.id = c.first))
    (hv : wrap32 p.id ≠ Table.null) {i' j' : Int} {c' : Cell}
    (hc' : PairMatrix.findCell (PairMatrix.place Table.null p.lhs.code la.code (wrap32 p.id) cells).1
      i' j' = some c') :
    c'.second = Table.null ↔ ∀ e ∈ E ++ [(p, la)], landsAt i' j' e = true → wrap32 e.1.id = c'.first := by
  rw [PairMatrix.findCell_place hs] at hc'
  simp only [List.mem_append, List.mem_singleton]
  by_cases h : i' = p.lhs.code ∧ j' = la.code
  · obtain ⟨rfl, rfl⟩ := h
    rw [if_pos ⟨rfl, rfl⟩, Option.some.injEq] at hc'
    subst hc'
    cases hc : PairMatrix.findCell cells p.lhs.code la.code with
    | none =>
      -- a new cell: no earlier entry lands on it
      have hnone : E.find? (landsAt p.lhs.code la.code) = none := by
        simpa [hc] using (hfirst p.lhs.code la.code).symm
      simp only [Option.elim, true_iff]
      rintro e (he | rfl) hland
      · rw [no_entry_of_find?_none hnone he] at hland
        cases hland
      · rfl
    | some c =>
      have hold := hsecond _ _ c hc
      simp only [Option.elim, Cell.receive_first]
      unfold Cell.receive
      by_cases hfv : c.first = wrap32 p.id ∨ c.second = wrap32 p.id
      · rw [if_pos hfv, hold]
        constructor
        · rintro hall e (he | rfl) hland
          · exact hall e he hland
          · rcases hfv with hfv | hsv
            · exact hfv.symm
            · -- the second value is the new one, so it is not null, and not every entry agrees
              exact absurd (hold.mpr hall) (hsv ▸ hv)
        · exact fun hall e he hland => hall e (.inl he) hland
      · rw [if_neg hfv]
        simp only
        constructor
        · intro hnull
          exact absurd hnull hv
        · intro hall
          exact absurd (hall (p, la) (.inr rfl) landsAt_self).symm (fun h => hfv (.inl h))
  · rw [if_neg h] at hc'
    rw [hsecond i' j' c' hc']
    constructor
    · rintro hall e (he | rfl) hland
      · exact hall e he hland
      · rw [landsAt] at hland
        simp only [Bool.and_eq_true, decide_eq_true_eq] at hland
        exact absurd ⟨hland.1.symm, hland.2.symm⟩ h
    · exact fun hall e he hland => hall e (.inl he) hland

/-- On entries that agree, adding one more clashes exactly when its number differs from those
already on its cell. -/
theorem clash_place (hs : PairMatrix.Sorted cells)
    (hfirst : ∀ i j, (PairMatrix.findCell cells i j).map Cell.first =
      (E.find? (landsAt i j)).map fun e => wrap32 e.1.id)
    (hsecond : ∀ i j c, PairMatrix.findCell cells i j = some c →
      (c.second = Table.null ↔ ∀ e ∈ E, landsAt i j e = true → wrap32 e.1.id = c.first))
    (hv : wrap32 p.id ≠ Table.null) (hagree : Table.Agree E) :
    (PairMatrix.place Table.null p.lhs.code la.code (wrap32 p.id) cells).2 = false ↔
      ∀ e ∈ E, e.1.lhs = p.lhs → e.2 = la → wrap32 e.1.id = wrap32 p.id := by
  rw [PairMatrix.place_snd hs]
  cases hc : PairMatrix.findCell cells p.lhs.code la.code with
  | none =>
    have hnone : E.find? (landsAt p.lhs.code la.code) = none := by
      simpa [hc] using (hfirst p.lhs.code la.code).symm
    simp only [Option.elim, true_iff]
    intro e he hk hla
    have := no_entry_of_find?_none hnone he
    rw [landsAt_iff.mpr ⟨hk, hla⟩] at this
    cases this
  | some c =>
    obtain ⟨e₁, he₁, hce₁⟩ : ∃ e₁, E.find? (landsAt p.lhs.code la.code) = some e₁ ∧
        wrap32 e₁.1.id = c.first := by
      have := hfirst p.lhs.code la.code
      rw [hc, Option.map_some, eq_comm, Option.map_eq_some_iff] at this
      exact this
    obtain ⟨hk₁, hla₁⟩ := landsAt_iff.mp (List.find?_some he₁)
    have hmem₁ := List.mem_of_find?_eq_some he₁
    -- all entries on the cell carry the first one's number, so the cell holds one value
    have hall : ∀ e ∈ E, e.1.lhs = p.lhs → e.2 = la → wrap32 e.1.id = c.first := fun e he hk hla =>
      (hagree e he e₁ hmem₁ (hk.trans hk₁.symm) (hla.trans hla₁.symm)).trans hce₁
    have hnull : c.second = Table.null :=
      (hsecond _ _ c hc).mpr fun e he hland => hall e he (landsAt_iff.mp hland).1 (landsAt_iff.mp hland).2
    simp only [Option.elim, Cell.clash, hnull]
    by_cases hfv : c.first = wrap32 p.id
    · simp only [hfv, true_or, if_true, ne_eq, not_true_eq_false, decide_false, true_iff]
      exact fun e he hk hla => (hall e he hk hla).trans hfv
    · have hnv : ¬(c.first = wrap32 p.id ∨ Table.null = wrap32 p.id) := by
        rintro (h | h)
        · exact hfv h
        · exact hv h.symm
      rw [if_neg hnv]
      simp only [Bool.true_eq_false, false_iff, not_forall]
      exact ⟨e₁, hmem₁, hk₁, hla₁, hce₁.trans_ne hfv⟩

end Cells

section Filled

variable {a : Analysis} {E : List (Production × Symbol)} {t : Table}

theorem Table.filled_empty (a : Analysis) : (Table.empty a).Filled a [] where
  toShaped := Table.shaped_empty a
  first _ _ := rfl
  second _ _ _ h := by simp [PairMatrix.cell?, Table.empty] at h
  conflicts := by simp [Table.empty, Table.Agree]

/-- Entering a production at a lookahead inside the columns keeps what the cells hold. -/
theorem Table.Filled.enter (hf : t.Filled a E) {p : Production} {la : Symbol} (hla : la.IsKnown)
    (hv : wrap32 p.id ≠ Table.null) : ∃ t', t.enter p la = .ok t' ∧ t'.Filled a (E ++ [(p, la)]) := by
  obtain ⟨t', henter, han, hm, hconf⟩ := enter_of_known (p := p) hf.rows hf.cols hla
  have hshaped := hf.toShaped.entered hla han hm
  rw [hf.null] at hm hconf
  refine ⟨t', henter, { toShaped := hshaped, first := ?_, second := ?_, conflicts := ?_ }⟩
  · intro i j
    rw [hm]
    exact first_place hf.sorted hf.first i j
  · intro i j c hc
    rw [hm] at hc
    exact second_place hf.sorted hf.first hf.second hv hc
  · rw [hconf, hf.conflicts, Table.agree_append_single]
    exact and_congr_right fun hagree => clash_place hf.sorted hf.first hf.second hv hagree

theorem Table.Filled.foldlM_enter (hf : t.Filled a E) {E' : List (Production × Symbol)}
    (hE' : ∀ e ∈ E', e.2.IsKnown ∧ wrap32 e.1.id ≠ Table.null) :
    ∃ t', E'.foldlM (fun t e => t.enter e.1 e.2) t = .ok t' ∧ t'.Filled a (E ++ E') := by
  induction E' generalizing t E with
  | nil => exact ⟨t, rfl, by simpa using hf⟩
  | cons e E' ih =>
    obtain ⟨hla, hv⟩ := hE' e (List.mem_cons_self ..)
    obtain ⟨t₁, h₁, hf₁⟩ := hf.enter (p := e.1) hla hv
    obtain ⟨t', h', hf'⟩ := ih hf₁ fun e' he' => hE' e' (List.mem_cons_of_mem _ he')
    refine ⟨t', by rw [List.foldlM_cons, h₁]; exact h', ?_⟩
    rwa [List.append_assoc, List.singleton_append] at hf'

end Filled

/-- The table of a well-numbered grammar whose lookaheads are symbols is built, and its cells hold
what its entries put there. -/
theorem build_filled (g : Grammar) (hn : g.WellNumbered) (hl : g.KnownLookaheads) :
    ∃ t, Table.build g.analyze = .ok t ∧ t.Filled g.analyze (tableEntries g.analyze) := by
  rw [build_eq]
  have hentries : ∀ e ∈ tableEntries g.analyze, e.2.IsKnown ∧ wrap32 e.1.id ≠ Table.null := by
    intro e he
    obtain ⟨hp, hla⟩ := mem_tableEntries.mp he
    exact ⟨hl _ hp _ hla, by rw [hn.wrap32_id hp]; exact (hn.above _ hp).ne'⟩
  simpa using (Table.filled_empty g.analyze).foldlM_enter hentries

section Correct

variable {g : Grammar} {t : Table}

theorem Table.Filled.select (hf : t.Filled g.analyze (tableEntries g.analyze)) (hn : g.WellNumbered)
    (hl : g.KnownLookaheads) (k : Kind) (la : Symbol) :
    t.select k.code la = g.rules.find? fun p => p.lhs = k ∧ la ∈ Table.lookaheads g.analyze p := by
  unfold Table.select
  by_cases hla : la.IsKnown
  · have hval : t.matrix.value k.code la.code =
        ((g.rules.find? fun p => p.lhs = k ∧ la ∈ Table.lookaheads g.analyze p).map
          fun p => wrap32 p.id).getD Table.null := by
      rw [PairMatrix.value, hf.first, find?_tableEntries, hf.null, Option.map_map]
      rfl
    rw [if_pos hla]
    simp only [hval, hf.null]
    cases hfind : g.rules.find? fun p => p.lhs = k ∧ la ∈ Table.lookaheads g.analyze p with
    | none => simp
    | some p =>
      have hp := List.mem_of_find?_eq_some hfind
      rw [Option.map_some, Option.getD_some, hn.wrap32_id hp, if_neg (hn.above p hp).ne',
        Table.grammar, hf.analysis]
      exact hn.rule?_id hp
  · rw [if_neg hla, eq_comm, List.find?_eq_none]
    intro p hp hsel
    simp only [decide_eq_true_eq] at hsel
    exact hla (hl p hp _ hsel.2)

theorem Table.Filled.conflicts_iff (hf : t.Filled g.analyze (tableEntries g.analyze))
    (hn : g.WellNumbered) :
    t.conflicts ≠ [] ↔ ∃ p ∈ g.rules, ∃ q ∈ g.rules, p ≠ q ∧ p.lhs = q.lhs ∧
      ∃ la, la ∈ Table.lookaheads g.analyze p ∧ la ∈ Table.lookaheads g.analyze q := by
  rw [Ne, hf.conflicts, Table.Agree]
  constructor
  · intro h
    push Not at h
    obtain ⟨e, he, e', he', hk, hla, hne⟩ := h
    obtain ⟨hp, hlap⟩ := mem_tableEntries.mp he
    obtain ⟨hq, hlaq⟩ := mem_tableEntries.mp he'
    exact ⟨e.1, hp, e'.1, hq, fun heq => hne (by rw [heq]), hk, e.2, hlap, hla ▸ hlaq⟩
  · rintro ⟨p, hp, q, hq, hpq, hk, la, hlap, hlaq⟩ hagree
    have hid := hagree (p, la) (mem_tableEntries.mpr ⟨hp, hlap⟩) (q, la)
      (mem_tableEntries.mpr ⟨hq, hlaq⟩) hk rfl
    rw [hn.wrap32_id hp, hn.wrap32_id hq] at hid
    exact hpq (List.inj_on_of_nodup_map hn.nodup hp hq hid)

/-- A lookahead selects a production exactly when its cell is filled. -/
theorem Table.Filled.select_isSome (hf : t.Filled g.analyze (tableEntries g.analyze))
    (hn : g.WellNumbered) (hl : g.KnownLookaheads) (k : Kind) (la : Symbol) :
    (t.select k.code la).isSome ↔ (t.matrix.cell? k.code la.code).isSome := by
  rw [hf.select hn hl, ← Option.isSome_map (f := Cell.first), hf.first, Option.isSome_map,
    find?_tableEntries, Option.isSome_map]
  rfl

theorem Table.Filled.expected (hf : t.Filled g.analyze (tableEntries g.analyze))
    (hn : g.WellNumbered) (hl : g.KnownLookaheads) (k : Kind) :
    t.expected k = Symbol.all.filter fun la => (t.select k.code la).isSome := by
  apply SymSet.Sorted.eq_of_mem_iff
  · -- the cells of one row, in row-major order, have increasing columns
    refine List.pairwise_map.mpr ((hf.sorted.filter _).imp_of_mem fun hc hd hcd => ?_)
    simp only [List.mem_filter, decide_eq_true_eq] at hc hd
    have := Cell.before_iff.mp hcd
    dsimp only
    omega
  · exact Symbol.sorted_all.filter _
  · intro la
    rw [List.mem_filter, Symbol.mem_all, hf.select_isSome hn hl, PairMatrix.cell?_eq_findCell,
      PairMatrix.findCell, List.find?_isSome]
    simp only [Table.expected, List.mem_map, List.mem_filter, decide_eq_true_eq, Bool.and_eq_true]
    constructor
    · rintro ⟨c, ⟨hc, hrow⟩, rfl⟩
      exact ⟨hf.inside c hc, c, hc, hrow, rfl⟩
    · rintro ⟨-, c, hc, hrow, hcol⟩
      exact ⟨c, ⟨hc, hrow⟩, Symbol.ext_code hcol⟩

end Correct

/-- The selection table of a grammar whose terminals are symbols and whose production numbers fit
the table is built, and is the LL(1) table: a non-terminal and a lookahead select the first
production of the non-terminal, in definition order, with the lookahead in its PREDICT set; the
table has a conflict exactly when two productions of one non-terminal share a lookahead; and the
expected lookaheads of a non-terminal are those that select a production, by increasing number. -/
theorem selection_table_correct (g : Grammar) (hn : g.WellNumbered) (hk : g.KnownTerminals) :
    ∃ t, Table.build g.analyze = .ok t ∧
      (∀ k la, t.select k.code la =
        g.rules.find? fun p => p.lhs = k ∧ la ∈ Table.lookaheads g.analyze p) ∧
      (t.conflicts ≠ [] ↔ ∃ p ∈ g.rules, ∃ q ∈ g.rules, p ≠ q ∧ p.lhs = q.lhs ∧
        ∃ la, la ∈ Table.lookaheads g.analyze p ∧ la ∈ Table.lookaheads g.analyze q) ∧
      ∀ k, t.expected k = Symbol.all.filter fun la => (t.select k.code la).isSome := by
  obtain ⟨t, hbuild, hf⟩ := build_filled g hn hk.lookaheads
  exact ⟨t, hbuild, hf.select hn hk.lookaheads, hf.conflicts_iff hn, hf.expected hn hk.lookaheads⟩

/-- The expression grammar's table is its selection table. -/
theorem expression_selection_table_correct :
    ∃ t, Table.build expressionGrammar.analyze = .ok t ∧
      (∀ k la, t.select k.code la =
        expressionGrammar.rules.find? fun p => p.lhs = k ∧ la ∈ Table.lookaheads expressionGrammar.analyze p) ∧
      (t.conflicts ≠ [] ↔ ∃ p ∈ expressionGrammar.rules, ∃ q ∈ expressionGrammar.rules, p ≠ q ∧
        p.lhs = q.lhs ∧ ∃ la, la ∈ Table.lookaheads expressionGrammar.analyze p ∧
          la ∈ Table.lookaheads expressionGrammar.analyze q) ∧
      ∀ k, t.expected k = Symbol.all.filter fun la => (t.select k.code la).isSome :=
  selection_table_correct expressionGrammar expressionGrammar_wellNumbered
    expressionGrammar_knownTerminals

/-! ### Production numbers that collide

The cells hold production numbers as 32-bit values, and `select` looks the value up among the
production numbers. Numbers that agree modulo 2^32 then stand for one another. -/

/-- A grammar whose two production numbers agree modulo 2^32: `4294967297: Expr ➞ Number` and
`1: Sign ➞ Expr`. -/
def collidingGrammar : Grammar :=
  ⟨"g", .expr, [⟨4294967297, .expr, [.terminal .number]⟩, ⟨1, .sign, [.nonterminal .expr]⟩]⟩

/-- The table built for the colliding grammar. -/
def collidingTable : Table :=
  (Table.build collidingGrammar.analyze).toOption.getD (Table.empty collidingGrammar.analyze)

theorem collidingTable_build : Table.build collidingGrammar.analyze = .ok collidingTable := by
  obtain ⟨t, ht, -⟩ := build_ok collidingGrammar (by decide)
  unfold collidingTable
  rw [ht]
  rfl

/-- With colliding numbers the table is built without conflict, but for `Expr` on `Number` it
selects `1: Sign ➞ Expr`, not a production of `Expr` at all, where the first production of `Expr`
with `Number` among its lookaheads is `4294967297: Expr ➞ Number`. -/
theorem colliding_ids_select_other :
    Table.build collidingGrammar.analyze = .ok collidingTable ∧ collidingTable.conflicts = [] ∧
      collidingTable.select Kind.expr.code .number = some ⟨1, .sign, [.nonterminal .expr]⟩ ∧
      collidingGrammar.rules.find? (fun p => p.lhs = .expr ∧
          .number ∈ Table.lookaheads collidingGrammar.analyze p) =
        some ⟨4294967297, .expr, [.terminal .number]⟩ :=
  ⟨collidingTable_build, by decide +kernel, by decide +kernel, by decide +kernel⟩

end ExprTranslate
