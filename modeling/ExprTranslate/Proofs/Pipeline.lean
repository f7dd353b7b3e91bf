import ExprTranslate.Proofs.SelectionTable
/-!
# From rule descriptions to a selection table

A grammar goes through three stages before a parse. `RawGrammar.build` checks the rule
descriptions, `RawGrammar.analyze` computes the sets, reading the slot of each kind number, and
`Table.build` enters the productions, putting each lookahead in a column of the matrix. The
builder checks production numbers and that each kind number used has a rule, not that numbers
are in range, and the two later stages stop at a number out of range: the analysis at a kind
number outside 0 to 7, the table at a lookahead that names no symbol.

With every number of the descriptions in range (`RuleSpec.inRange`) only the builder can refuse
them: the grammar it returns names kinds, and analysing and tabulating it succeed
(`grammar_pipeline_total`). Without that, a rule for kind number 8 passes the builder and stops
the analysis (`stray_kind_stops_analysis`).
-/

namespace ExprTranslate

/-! ### Lists mapped in a monad -/

section MapM

variable {α β ε : Type}

/-- A map that fails on no element of a list maps the list, each result coming from an
element. -/
theorem mapM_eq_some_of_isSome {f : α → Option β} :
    ∀ {l : List α}, (∀ a ∈ l, (f a).isSome) →
      ∃ r, l.mapM f = some r ∧ ∀ b ∈ r, ∃ a ∈ l, f a = some b
  | [], _ => ⟨[], rfl, by simp⟩
  | a :: l, h => by
    obtain ⟨b, hb⟩ := Option.isSome_iff_exists.mp (h a List.mem_cons_self)
    obtain ⟨r, hr, hmem⟩ := mapM_eq_some_of_isSome fun x hx => h x (List.mem_cons_of_mem a hx)
    refine ⟨b :: r, by simp [List.mapM_cons, hb, hr], fun c hc => ?_⟩
    rcases List.mem_cons.mp hc with rfl | hc
    · exact ⟨a, List.mem_cons_self, hb⟩
    · obtain ⟨x, hx, hfx⟩ := hmem c hc
      exact ⟨x, List.mem_cons_of_mem a hx, hfx⟩

/-- Each result of a map that succeeds on a list comes from an element. -/
theorem mem_of_mapM_eq_ok {f : α → Except ε β} :
    ∀ {l : List α} {r : List β}, l.mapM f = .ok r → ∀ b ∈ r, ∃ a ∈ l, f a = .ok b
  | [], r, h => by
    simp only [List.mapM_nil, pure, Except.pure, Except.ok.injEq] at h
    subst h
    simp
  | a :: l, r, h => by
    rw [List.mapM_cons] at h
    cases hfa : f a with
    | error e =>
      rw [hfa] at h
      cases h
    | ok b =>
      rw [hfa] at h
      cases hl : l.mapM f with
      | error e =>
        rw [hl] at h
        cases h
      | ok bs =>
        rw [hl] at h
        simp only [bind, pure, Except.pure, Except.bind, Except.ok.injEq] at h
        subst h
        intro c hc
        rcases List.mem_cons.mp hc with rfl | hc
        · exact ⟨a, List.mem_cons_self, hfa⟩
        · obtain ⟨x, hx, hfx⟩ := mem_of_mapM_eq_ok hl c hc
          exact ⟨x, List.mem_cons_of_mem a hx, hfx⟩

end MapM

/-! ### Numbers in range -/

/-- Whether a builder's symbol is in range: a terminal that names a symbol, or a kind number
from 0 to 7. -/
def SymSpec.inRange : SymSpec → Bool
  | .terminal s => decide s.IsKnown
  | .nonterminal c => decide (0 ≤ c ∧ c < 8)

/-- Whether every number of a rule description is in range. -/
def RuleSpec.inRange (r : RuleSpec) : Bool :=
  decide (0 ≤ r.lhs ∧ r.lhs < 8) && r.rhs.all SymSpec.inRange

/-- A number from 0 to 7 names a kind. -/
theorem Kind.ofCode?_isSome {c : Int} (h0 : 0 ≤ c) (h8 : c < 8) : (Kind.ofCode? c).isSome := by
  unfold Kind.ofCode?
  rw [if_pos h0, Option.isSome_iff_ne_none, Ne, List.getElem?_eq_none_iff]
  simp only [Kind.all, List.length_cons, List.length_nil]
  omega

/-- The production of a description in range has its numbers in range; an `ε`-rule gets the
symbol `ε`, which is one. -/
theorem RuleSpec.production_inRange {r : RuleSpec} {p : RawProduction} (hr : r.inRange = true)
    (hp : r.production = .ok p) : (0 ≤ p.lhs ∧ p.lhs < 8) ∧ ∀ s ∈ p.rhs, s.inRange = true := by
  simp only [RuleSpec.inRange, Bool.and_eq_true, decide_eq_true_eq, List.all_eq_true] at hr
  unfold RuleSpec.production at hp
  -- the descriptions refused are discharged by the split; an `ε`-rule and a rule with symbols remain
  split_ifs at hp
  · cases hp
    exact ⟨hr.1, by simp [SymSpec.inRange]; decide⟩
  · cases hp
    exact hr

/-- A production whose numbers are in range names kinds, and its terminals are symbols. -/
theorem RawProduction.kinds?_eq_some {p : RawProduction} (hlhs : 0 ≤ p.lhs ∧ p.lhs < 8)
    (hrhs : ∀ s ∈ p.rhs, s.inRange = true) :
    ∃ q, p.kinds? = some q ∧ ∀ t, .terminal t ∈ q.rhs → t.IsKnown := by
  obtain ⟨k, hk⟩ := Option.isSome_iff_exists.mp (Kind.ofCode?_isSome hlhs.1 hlhs.2)
  have hnamed : ∀ s ∈ p.rhs, (SymSpec.kind? s).isSome := fun s hs => by
    have := hrhs s hs
    cases s with
    | terminal t => rfl
    | nonterminal c =>
      simp only [SymSpec.inRange, decide_eq_true_eq] at this
      simpa [SymSpec.kind?] using Kind.ofCode?_isSome this.1 this.2
  obtain ⟨rhs, hm, hmem⟩ := mapM_eq_some_of_isSome hnamed
  refine ⟨⟨p.id, k, rhs⟩, by simp [RawProduction.kinds?, hk, hm], fun t ht => ?_⟩
  -- a terminal of the production is the kind of a terminal of the description
  obtain ⟨s, hs, hst⟩ := hmem _ ht
  cases s with
  | terminal t' =>
    simp only [SymSpec.kind?, Option.some.injEq, GSym.terminal.injEq] at hst
    subst hst
    simpa [SymSpec.inRange] using hrhs _ hs
  | nonterminal c => simp [SymSpec.kind?] at hst

/-- A grammar whose numbers are all in range names kinds, and its terminals are symbols. -/
theorem RawGrammar.kinds?_eq_some {rg : RawGrammar} (hstart : 0 ≤ rg.start ∧ rg.start < 8)
    (hrules : ∀ p ∈ rg.rules, (0 ≤ p.lhs ∧ p.lhs < 8) ∧ ∀ s ∈ p.rhs, s.inRange = true) :
    ∃ g, rg.kinds? = some g ∧ g.KnownTerminals := by
  obtain ⟨k, hk⟩ := Option.isSome_iff_exists.mp (Kind.ofCode?_isSome hstart.1 hstart.2)
  have hnamed : ∀ p ∈ rg.rules, p.kinds?.isSome := fun p hp => by
    obtain ⟨q, hq, -⟩ := RawProduction.kinds?_eq_some (hrules p hp).1 (hrules p hp).2
    simp [hq]
  obtain ⟨rules, hm, hmem⟩ := mapM_eq_some_of_isSome hnamed
  refine ⟨⟨rg.name, k, rules⟩, by simp [RawGrammar.kinds?, hk, hm], fun t ht => ?_⟩
  obtain ⟨q, hq, hqt⟩ := exists_of_mem_rhsTerminals ht
  obtain ⟨p, hp, hpq⟩ := hmem q hq
  obtain ⟨q', hq', hknown⟩ := RawProduction.kinds?_eq_some (hrules p hp).1 (hrules p hp).2
  rw [hpq, Option.some.injEq] at hq'
  exact hknown t (hq' ▸ hqt)

/-! ### The builder's grammar -/

/-- The builder returns the productions of the descriptions, in order, with the left-hand side of
one of them as its start symbol. -/
theorem RawGrammar.build_rules {name : String} {specs : List RuleSpec} {rg : RawGrammar}
    (h : RawGrammar.build name specs = .ok rg) :
    specs.mapM RuleSpec.production = .ok rg.rules ∧ ∃ p ∈ rg.rules, rg.start = p.lhs := by
  unfold RawGrammar.build at h
  split at h
  · cases h
  · cases h
  · rename_i p ps hm
    dsimp only at h
    split at h
    · cases h
    · split at h
      · cases h
      · cases h
        exact ⟨hm, p, List.mem_cons_self, rfl⟩

/-- When every number of the rule descriptions is in range, only the builder can refuse them: the
grammar it returns names kinds, its analysis succeeds, and so does building its table. -/
theorem grammar_pipeline_total (name : String) (specs : List RuleSpec)
    (h : ∀ r ∈ specs, r.inRange = true) :
    (∃ e, RawGrammar.build name specs = .error e) ∨
      ∃ rg g t, RawGrammar.build name specs = .ok rg ∧ rg.kinds? = some g ∧
        rg.analyze = .ok g.analyze ∧ Table.build g.analyze = .ok t := by
  cases hb : RawGrammar.build name specs with
  | error e => exact .inl ⟨e, rfl⟩
  | ok rg =>
    right
    obtain ⟨hm, p₀, hp₀, hstart⟩ := RawGrammar.build_rules hb
    -- every production comes from a description in range
    have hrules : ∀ p ∈ rg.rules, (0 ≤ p.lhs ∧ p.lhs < 8) ∧ ∀ s ∈ p.rhs, s.inRange = true :=
      fun p hp => by
        obtain ⟨r, hr, hrp⟩ := mem_of_mapM_eq_ok hm p hp
        exact RuleSpec.production_inRange (h r hr) hrp
    obtain ⟨g, hg, hk⟩ := RawGrammar.kinds?_eq_some (hstart ▸ (hrules p₀ hp₀).1) hrules
    obtain ⟨t, ht, -⟩ := build_ok g hk
    exact ⟨rg, g, t, rfl, hg, by simp [RawGrammar.analyze, hg], ht⟩

/-- The rules of the expression grammar go through the whole pipeline. -/
theorem expression_rules_pipeline_total :
    (∃ e, RawGrammar.build "expressions" expressionRules = .error e) ∨
      ∃ rg g t, RawGrammar.build "expressions" expressionRules = .ok rg ∧ rg.kinds? = some g ∧
        rg.analyze = .ok g.analyze ∧ Table.build g.analyze = .ok t :=
  grammar_pipeline_total "expressions" expressionRules (by decide)

/-- A rule for kind number 8 passes the builder, which checks only that each kind number used
has a rule, and analysing the grammar reads slot 8 of the eight. -/
theorem stray_kind_stops_analysis :
    ∃ rg, RawGrammar.build "g" [⟨8, [.terminal .number], 1, false⟩] = .ok rg ∧
      ∃ e, rg.analyze = .error e ∧ e.message = "runtime error: index out of range [8] with length 8" :=
  ⟨_, rfl, _, rfl, by decide +kernel⟩

end ExprTranslate
