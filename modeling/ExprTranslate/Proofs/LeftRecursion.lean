import ExprTranslate.Proofs.SelectionTable
/-!
# No left recursion on a lookahead

A conflict-free selection table cannot expand a non-terminal into itself without reading the
lookahead. When the table expands `X` on lookahead `a`, the parser may next expand a
non-terminal `Z` of the production's right-hand side if every symbol before `Z` can stand for
nothing while the lookahead stays `a` (`Table.Reaches`). This relation has no cycle
(`Grammar.LL1Table.reaches_acyclic`), so the number of non-terminals a non-terminal reaches, its
rank, drops along it (`Grammar.LL1Table.rank_lt`).

The proof follows derivations. A non-terminal that selects a production on `a` derives a form
beginning with `a`, or derives the empty string with `a` in its FOLLOW set (`Grammar.Leads`);
the first production of that derivation has `a` among its lookaheads, so it is the table's, and
a non-terminal the table's production reaches does the same with fewer expansions
(`Grammar.LL1Table.descend`).
-/

namespace ExprTranslate

/-- A conflict-free selection table built from an analysed grammar whose production numbers fit
the table. -/
structure Grammar.LL1Table (g : Grammar) (t : Table) : Prop where
  numbered : g.WellNumbered
  build : Table.build g.analyze = .ok t
  noConflict : t.conflicts = []

/-- Whether a grammar symbol can stand for nothing while the lookahead stays `a`: an action,
`ε`, or a nullable non-terminal without `a` in its FIRST set. -/
def Analysis.transparent (an : Analysis) (a : Symbol) : GSym → Bool
  | .action _ => true
  | .terminal s => s = .empty
  | .nonterminal k => an.nullable k && !decide (a ∈ an.first k)

/-- Expanding `X` on lookahead `a`, the table's production has `Z` after symbols that can all
stand for nothing: the parser can come to `Z` without reading `a`. -/
def Table.Reaches (t : Table) (a : Symbol) (X Z : Kind) : Prop :=
  ∃ p, t.select X.code a = some p ∧ ∃ α β, p.rhs = α ++ .nonterminal Z :: β ∧
    ∀ s ∈ α, t.analysis.transparent a s = true

/-- A non-terminal derives, with `n` expansions, a form beginning with `a`, or the empty string
while `a` may follow it. -/
def Grammar.Leads (g : Grammar) (a : Symbol) (n : Nat) (X : Kind) : Prop :=
  ∃ w, g.DerivesIn n [.nonterminal X] w ∧
    ((w.filter fun s => !s.silent).head? = some (.terminal a) ∨
      ((∀ s ∈ w, s.silent = true) ∧ g.Follows X a))

section Silent

variable {w₁ w₂ : List GSym}

theorem head_filter_append_of_silent (h : ∀ s ∈ w₁, s.silent = true) :
    ((w₁ ++ w₂).filter fun s => !s.silent).head? = (w₂.filter fun s => !s.silent).head? := by
  rw [List.filter_append, List.filter_eq_nil_iff.mpr (fun s hs => by simp [h s hs]), List.nil_append]

theorem head_filter_append_of_loud (h : ∃ s ∈ w₁, s.silent = false) :
    ((w₁ ++ w₂).filter fun s => !s.silent).head? = (w₁.filter fun s => !s.silent).head? := by
  obtain ⟨s, hs, hsil⟩ := h
  rw [List.filter_append]
  cases hf : w₁.filter fun s => !s.silent with
  | nil =>
    have := List.filter_eq_nil_iff.mp hf s hs
    simp [hsil] at this
  | cons x xs => rfl

end Silent

section Transparent

variable {g : Grammar} {a : Symbol} {α : List GSym}

/-- Symbols that can all stand for nothing without reading `a` do not begin with `a`. -/
theorem not_mem_firstOfSeq_of_transparent (h : ∀ s ∈ α, g.analyze.transparent a s = true) :
    a ∉ (g.analyze.firstOfSeq α).1 := by
  show a ∉ firstIn g.analyze.info α
  induction α with
  | nil => simp
  | cons s α ih =>
    rw [mem_firstIn_cons, not_or]
    refine ⟨?_, fun hrest => ih (fun s' hs' => h s' (List.mem_cons_of_mem _ hs')) hrest.2⟩
    have hs := h s (List.mem_cons_self ..)
    cases s with
    | action _ => exact fun hstart => hstart
    | terminal t =>
      simp only [Analysis.transparent, decide_eq_true_eq] at hs
      exact fun hst => hst.1 hs
    | nonterminal k =>
      simp only [Analysis.transparent, Bool.and_eq_true, Bool.not_eq_true', decide_eq_false_iff_not] at hs
      exact hs.2

/-- Symbols that can all stand for nothing derive the empty string. -/
theorem derivesEmpty_of_transparent (h : ∀ s ∈ α, g.analyze.transparent a s = true) :
    g.DerivesEmpty α := by
  refine (firstOfSeq_nullable_iff g α).mp ?_
  show nullableIn g.analyze.info α = true
  induction α with
  | nil => rfl
  | cons s α ih =>
    rw [nullableIn_cons, ih fun s' hs' => h s' (List.mem_cons_of_mem _ hs'), Bool.and_true]
    have hs := h s (List.mem_cons_self ..)
    cases s with
    | action id => rfl
    | terminal t => simpa [Analysis.transparent, GSym.vanishes] using hs
    | nonterminal k =>
      simp only [Analysis.transparent, Bool.and_eq_true] at hs
      exact hs.1

end Transparent

namespace Grammar.LL1Table

variable {g : Grammar} {t : Table} {a : Symbol}

theorem lookaheads (h : g.LL1Table t) : g.KnownLookaheads := knownLookaheads_of_build h.build

theorem filled (h : g.LL1Table t) : t.Filled g.analyze (tableEntries g.analyze) := by
  obtain ⟨t', hb, hf⟩ := build_filled g h.numbered h.lookaheads
  rw [h.build] at hb
  cases hb
  exact hf

theorem analysis (h : g.LL1Table t) : t.analysis = g.analyze := h.filled.analysis

/-- The production the table selects is one of the non-terminal's, with the lookahead in its
PREDICT set. -/
theorem select_spec (h : g.LL1Table t) {X : Kind} {p : Production}
    (hs : t.select X.code a = some p) : p ∈ g.rules ∧ p.lhs = X ∧ a ∈ Table.lookaheads g.analyze p := by
  rw [h.filled.select h.numbered h.lookaheads] at hs
  have hP := List.find?_some hs
  simp only [decide_eq_true_eq] at hP
  exact ⟨List.mem_of_find?_eq_some hs, hP⟩

/-- Two productions of one non-terminal with a common lookahead are the same. -/
theorem unique (h : g.LL1Table t) {p q : Production} (hp : p ∈ g.rules) (hq : q ∈ g.rules)
    (hlhs : p.lhs = q.lhs) (hap : a ∈ Table.lookaheads g.analyze p)
    (haq : a ∈ Table.lookaheads g.analyze q) : p = q := by
  by_contra hne
  exact (h.filled.conflicts_iff h.numbered).mpr ⟨p, hp, q, hq, hne, hlhs, a, hap, haq⟩ h.noConflict

/-- A derivation of a non-terminal that begins with `a`, or is empty while `a` may follow it,
starts with the production the table selects on `a`. -/
theorem first_step (h : g.LL1Table t) {X : Kind} {p : Production} {n : Nat}
    (hs : t.select X.code a = some p) (hl : g.Leads a n X) :
    ∃ w m, m < n ∧ g.DerivesIn m p.rhs w ∧
      ((w.filter fun s => !s.silent).head? = some (.terminal a) ∨
        ((∀ s ∈ w, s.silent = true) ∧ g.Follows X a)) := by
  obtain ⟨hp, hlhs, hla⟩ := h.select_spec hs
  obtain ⟨w, hw, hlead⟩ := hl
  rcases hw.nonterminal with rfl | ⟨q, hq, hqlhs, m, hm, hqw⟩
  · -- the non-terminal itself begins with no terminal and is not silent
    rcases hlead with hhead | ⟨hsil, -⟩
    · simp [GSym.silent] at hhead
    · simp [GSym.silent] at hsil
  have hqa : a ∈ Table.lookaheads g.analyze q := by
    rw [mem_lookaheads]
    rcases hlead with hhead | ⟨hsil, hfol⟩
    · exact .inl ((mem_firstOfSeq g q.rhs a).mpr ⟨w, hqw.derives, hhead⟩)
    · refine .inr ⟨(firstOfSeq_nullable_iff g q.rhs).mpr ⟨w, hqw.derives, hsil⟩, ?_⟩
      rw [mem_analyze_follow, hqlhs]
      exact hfol
  have hqp : q = p := h.unique hq hp (hqlhs.trans hlhs.symm) hqa hla
  rw [hqp] at hqw
  exact ⟨w, m, hm, hqw, hlead⟩

/-- A non-terminal the table's production reaches derives in the same way, with fewer
expansions. -/
theorem descend (h : g.LL1Table t) {X Z : Kind} {n : Nat} (hr : t.Reaches a X Z)
    (hl : g.Leads a n X) : ∃ m < n, g.Leads a m Z := by
  obtain ⟨p, hsel, α, β, hrhs, hα⟩ := hr
  obtain ⟨hp, hlhs, -⟩ := h.select_spec hsel
  rw [h.analysis] at hα
  obtain ⟨w, m, hm, hpw, hlead⟩ := h.first_step hsel hl
  rw [hrhs] at hpw
  obtain ⟨mα, mZβ, wα, wZβ, hmα, rfl, hdα, hdZβ⟩ := hpw.split
  obtain ⟨mZ, mβ, wZ, wβ, hmZ, rfl, hdZ, hdβ⟩ :=
    (show g.DerivesIn mZβ ([.nonterminal Z] ++ β) wZβ from hdZβ).split
  have hfewer : mZ < n := by omega
  refine ⟨mZ, hfewer, wZ, hdZ, ?_⟩
  have hrhs' : p.rhs = α ++ .nonterminal Z :: β := hrhs
  rcases hlead with hhead | ⟨hsil, hfol⟩
  · -- the symbols before `Z` cannot begin with `a`, so they derive only silent symbols
    have hαsil : ∀ s ∈ wα, s.silent = true := by
      by_contra hloud
      push Not at hloud
      rw [head_filter_append_of_loud (by simpa using hloud)] at hhead
      exact not_mem_firstOfSeq_of_transparent hα
        ((mem_firstOfSeq g α a).mpr ⟨wα, hdα.derives, hhead⟩)
    rw [head_filter_append_of_silent hαsil] at hhead
    by_cases hZsil : ∀ s ∈ wZ, s.silent = true
    · rw [head_filter_append_of_silent hZsil] at hhead
      exact .inr ⟨hZsil, .first hp hrhs' ⟨wβ, hdβ.derives, hhead⟩⟩
    · push Not at hZsil
      rw [head_filter_append_of_loud (by simpa using hZsil)] at hhead
      exact .inl hhead
  · have hβ : g.DerivesEmpty β := ⟨wβ, hdβ.derives, fun s hs => hsil s (by simp [hs])⟩
    refine .inr ⟨fun s hs => hsil s (by simp [hs]), .follow hp hrhs' hβ ?_⟩
    rw [hlhs]
    exact hfol

/-- A non-terminal that selects a production on `a` leads with `a`. -/
theorem leads_of_select (h : g.LL1Table t) {X : Kind} {p : Production}
    (hs : t.select X.code a = some p) : ∃ n, g.Leads a n X := by
  obtain ⟨hp, hlhs, hla⟩ := h.select_spec hs
  rw [← hlhs]
  rcases mem_lookaheads.mp hla with hfirst | ⟨hnull, hfol⟩
  · obtain ⟨w, hw, hhead⟩ := (mem_firstOfSeq g p.rhs a).mp hfirst
    obtain ⟨n, hn⟩ := hw.sized
    exact ⟨n + 1, w, hn.rule hp, .inl hhead⟩
  · obtain ⟨w, hw, hsil⟩ := (firstOfSeq_nullable_iff g p.rhs).mp hnull
    obtain ⟨n, hn⟩ := hw.sized
    exact ⟨n + 1, w, hn.rule hp, .inr ⟨hsil, (mem_analyze_follow g p.lhs a).mp hfol⟩⟩

theorem descend_trans (h : g.LL1Table t) {X Y : Kind} (hr : Relation.TransGen (t.Reaches a) X Y) :
    ∀ {n}, g.Leads a n X → ∃ m < n, g.Leads a m Y := by
  induction hr with
  | single hxy => exact fun hl => h.descend hxy hl
  | tail _ hyz ih =>
    intro n hl
    obtain ⟨m, hm, hlm⟩ := ih hl
    obtain ⟨k, hk, hlk⟩ := h.descend hyz hlm
    exact ⟨k, by omega, hlk⟩

/-- **No left recursion on a lookahead.** Expanding a non-terminal by the productions a
conflict-free table selects never comes back to it before the lookahead is read. -/
theorem reaches_acyclic (h : g.LL1Table t) (a : Symbol) (X : Kind) :
    ¬ Relation.TransGen (t.Reaches a) X X := by
  intro hcyc
  classical
  have hex : ∃ n, g.Leads a n X := by
    obtain ⟨Y, ⟨p, hsel, -⟩, -⟩ := Relation.TransGen.head'_iff.mp hcyc
    exact h.leads_of_select hsel
  -- the fewest expansions with which `X` leads, and the cycle gives fewer
  obtain ⟨m, hm, hlm⟩ := h.descend_trans hcyc (Nat.find_spec hex)
  exact Nat.find_min hex hm hlm

end Grammar.LL1Table

open Classical in
/-- How many non-terminals the parser can come to from `X` on lookahead `a` without reading it. -/
noncomputable def Table.rank (t : Table) (a : Symbol) (X : Kind) : Nat :=
  (Finset.univ.filter fun Z => Relation.TransGen (t.Reaches a) X Z).card

theorem Grammar.LL1Table.rank_lt {g : Grammar} {t : Table} (h : g.LL1Table t) {a : Symbol}
    {X Z : Kind} (hr : t.Reaches a X Z) : t.rank a Z < t.rank a X := by
  classical
  unfold Table.rank
  apply Finset.card_lt_card
  refine ⟨fun Y hY => ?_, fun hsub => ?_⟩
  · simp only [Finset.mem_filter, Finset.mem_univ, true_and] at hY ⊢
    exact Relation.TransGen.head hr hY
  · have hZ : Z ∈ Finset.univ.filter fun Y => Relation.TransGen (t.Reaches a) X Y := by
      simp only [Finset.mem_filter, Finset.mem_univ, true_and]
      exact .single hr
    have hZZ := hsub hZ
    simp only [Finset.mem_filter, Finset.mem_univ, true_and] at hZZ
    exact h.reaches_acyclic a Z hZZ

/-- A non-terminal whose selected production has only symbols that can stand for nothing can
itself stand for nothing: it is nullable, and `a` is not in its FIRST set, for else another of
its productions would have `a` among its lookaheads too. -/
theorem Grammar.LL1Table.transparent_of_rhs {g : Grammar} {t : Table} (h : g.LL1Table t)
    {a : Symbol} {X : Kind} {p : Production} (hs : t.select X.code a = some p)
    (hall : ∀ s ∈ p.rhs, t.analysis.transparent a s = true) :
    t.analysis.transparent a (.nonterminal X) = true := by
  obtain ⟨hp, hlhs, hla⟩ := h.select_spec hs
  rw [h.analysis] at hall ⊢
  have hnull : g.analyze.nullable X = true := by
    rw [analyze_nullable_iff, ← hlhs]
    exact derivesEmpty_rule hp (derivesEmpty_of_transparent hall)
  have hfirst : a ∉ g.analyze.first X := by
    intro ha
    obtain ⟨w, hw, hhead⟩ := (mem_analyze_first g X a).mp ha
    obtain ⟨n, hn⟩ := Grammar.Derives.sized hw
    rcases hn.nonterminal with rfl | ⟨q, hq, hqlhs, m, -, hqw⟩
    · simp [GSym.silent] at hhead
    have hqa : a ∈ Table.lookaheads g.analyze q :=
      mem_lookaheads.mpr (.inl ((mem_firstOfSeq g q.rhs a).mpr ⟨w, hqw.derives, hhead⟩))
    rw [h.unique hq hp (hqlhs.trans hlhs.symm) hqa hla] at hqw
    exact not_mem_firstOfSeq_of_transparent hall ((mem_firstOfSeq g p.rhs a).mpr ⟨w, hqw.derives, hhead⟩)
  simp [Analysis.transparent, hnull, hfirst]

end ExprTranslate
