import ExprTranslate.Proofs.LeftRecursion
import ExprTranslate.Proofs.Transition
import ExprTranslate.Proofs.Viability
/-!
# The parser stops

With a conflict-free table built from an analysed grammar none of whose right-hand sides holds
the end marker, the parser stops on every input: given enough fuel, a run finishes or fails and
never runs out of steps. The parser has no bound of its own on the steps it takes; what stops it
is that every step lowers, in lexicographic order, two numbers.

* The input left (`State.inputLeft`): the tokens from the cursor on and the end markers on the
  stack. Matching reads a token or, past the end of the input where the lookahead stays the end
  marker, takes an end marker off the stack. Expanding and executing read nothing and, as no
  right-hand side holds the end marker, push none.
* The potential of the stack on the lookahead (`Table.potential`): the weights of its symbols up
  to the first one that cannot stand for nothing on the lookahead (`Analysis.transparent`). A
  non-terminal weighs a power of a base by its rank (`Table.rank`), an action one. Expanding `X`
  trades its weight for the weights of symbols of lower rank, at most one for each symbol of the
  right-hand side, and one action; executing takes an action off.

`Grammar.LL1Table.moves_lower` is the step, `Grammar.LL1Table.runSteps_stops` the run from any
state whose input ends with the end marker, and `parser_stops` the run from the first state.
-/

namespace ExprTranslate

variable {α : Type}

/-! ### The input left -/

/-- The end markers among the entries of a stack. -/
def endMarkers (syms : List Entry) : Nat := syms.countP fun e => e = .terminal .endOfInput

@[simp] theorem endMarkers_cons (e : Entry) (syms : List Entry) :
    endMarkers (e :: syms) = endMarkers syms + if e = .terminal .endOfInput then 1 else 0 := by
  simp [endMarkers, List.countP_cons]

@[simp] theorem endMarkers_append (u v : List Entry) :
    endMarkers (u ++ v) = endMarkers u + endMarkers v :=
  List.countP_append

/-- A right-hand side without the end marker pushes none. -/
theorem endMarkers_rhsEntries {rhs : List GSym} (h : .terminal .endOfInput ∉ rhs) (n : Nat) :
    endMarkers (rhsEntries rhs n) = 0 := by
  induction rhs generalizing n with
  | nil => rfl
  | cons s rhs ih =>
    have hrest : .terminal .endOfInput ∉ rhs := fun hr => h (List.mem_cons_of_mem s hr)
    cases s with
    | nonterminal k => simp [rhsEntries, ih hrest]
    | action id => simp [rhsEntries, ih hrest]
    | terminal s =>
      have hs : s ≠ .endOfInput := by
        rintro rfl
        exact h List.mem_cons_self
      by_cases he : s = .empty
      · simp [rhsEntries, he, ih hrest]
      · simp [rhsEntries, he, hs, ih hrest]

/-- The input a state has left: the tokens from its cursor on, and the end markers on its
stack. -/
def State.inputLeft (st : State α) : Nat := st.tokens.size - st.cursor + endMarkers st.syms

/-! ### The potential of a stack -/

/-- An action can always stand for nothing. -/
@[simp] theorem Analysis.transparent_action (an : Analysis) (a : Symbol) (id : Int) :
    an.transparent a (.action id) = true := rfl

/-- What a grammar symbol weighs on lookahead `a`: a non-terminal the power of `base` by one more
than its rank, an action one, a terminal nothing. -/
noncomputable def Table.weight (t : Table) (base : Nat) (a : Symbol) : GSym → Nat
  | .nonterminal k => Nat.pow base (t.rank a k + 1)
  | .action _ => 1
  | .terminal _ => 0

/-- The weights of the symbols of a form up to its first symbol that cannot stand for nothing on
lookahead `a`, that one included. -/
noncomputable def Table.potential (t : Table) (base : Nat) (a : Symbol) : List GSym → Nat
  | [] => 0
  | s :: rest =>
    t.weight base a s + if t.analysis.transparent a s then t.potential base a rest else 0

/-- The potential of a state's stack on its lookahead. -/
noncomputable def State.potential (st : State α) (t : Table) (base : Nat) : Nat :=
  t.potential base st.lookahead.symbol (st.syms.map Entry.sym)

section Potential

variable {t : Table} {base : Nat} {a : Symbol}

/-- The potential of two forms: the second counts when all of the first can stand for
nothing. -/
theorem potential_append (u v : List GSym) :
    t.potential base a (u ++ v) =
      t.potential base a u + if u.all (t.analysis.transparent a) then t.potential base a v else 0 := by
  induction u with
  | nil => simp [Table.potential]
  | cons s u ih =>
    simp only [List.cons_append, Table.potential, ih, List.all_cons]
    by_cases hs : t.analysis.transparent a s = true <;> simp [hs, Nat.add_assoc]

/-- A form whose counted symbols weigh at most `B` each has a potential of at most `B` a
symbol. -/
theorem potential_le {B : Nat} {u : List GSym}
    (h : ∀ β s γ, u = β ++ s :: γ → (∀ x ∈ β, t.analysis.transparent a x = true) →
      t.weight base a s ≤ B) :
    t.potential base a u ≤ u.length * B := by
  induction u with
  | nil => simp [Table.potential]
  | cons s u ih =>
    have hs : t.weight base a s ≤ B := h [] s u rfl (by simp)
    simp only [Table.potential, List.length_cons, Nat.succ_mul]
    by_cases htr : t.analysis.transparent a s = true
    · -- the rest is counted, with `s` among the symbols before each of its own
      have hrest : t.potential base a u ≤ u.length * B := ih fun β x γ he hβ =>
        h (s :: β) x γ (by rw [he, List.cons_append]) (by simpa [htr] using hβ)
      rw [if_pos htr]
      omega
    · rw [if_neg htr]
      omega

/-- Entries pushed for a right-hand side weigh as its symbols do: only `ε` is left out, and it
weighs nothing and stands for nothing. -/
theorem potential_rhsEntries (rhs : List GSym) (n : Nat) (tail : List GSym) :
    t.potential base a ((rhsEntries rhs n).map Entry.sym ++ tail) =
      t.potential base a (rhs ++ tail) := by
  induction rhs generalizing n with
  | nil => rfl
  | cons s rhs ih =>
    cases s with
    | nonterminal k => simp [rhsEntries, Entry.sym, Table.potential, ih]
    | action id => simp [rhsEntries, Entry.sym, Table.potential, ih]
    | terminal s =>
      by_cases he : s = .empty
      · simp [rhsEntries, he, Table.potential, Table.weight, Analysis.transparent, ih]
      · simp [rhsEntries, he, Entry.sym, Table.potential, ih]

end Potential

/-! ### One step -/

namespace Grammar.LL1Table

variable {g : Grammar} {t : Table} {a : Symbol} {base : Nat}

/-- Expanding `X` lowers the potential: the symbols of the right-hand side that count are
reached from `X`, so they have lower ranks, and a base above the length of the right-hand side
makes all of them together, with the production's action, weigh less than `X`. -/
theorem potential_expand (h : g.LL1Table t) {X : Kind} {p : Production}
    (hs : t.select X.code a = some p) (hbase : p.rhs.length + 2 ≤ base) (rest : List GSym) :
    t.potential base a (p.rhs ++ .action p.id :: rest) <
      t.potential base a (.nonterminal X :: rest) := by
  have hpos : 0 < Nat.pow base (t.rank a X) := Nat.pow_pos (by omega)
  have hlive : t.potential base a p.rhs ≤ p.rhs.length * Nat.pow base (t.rank a X) := by
    refine potential_le fun β s γ hsplit hβ => ?_
    cases s with
    | nonterminal Z => exact Nat.pow_le_pow_right (by omega) (h.rank_lt ⟨p, hs, β, γ, hsplit, hβ⟩)
    | action _ => exact hpos
    | terminal _ => exact Nat.zero_le _
  have hpow : p.rhs.length * Nat.pow base (t.rank a X) + 1 < Nat.pow base (t.rank a X + 1) :=
    calc p.rhs.length * Nat.pow base (t.rank a X) + 1
        < (p.rhs.length + 2) * Nat.pow base (t.rank a X) := by rw [Nat.add_mul]; omega
      _ ≤ base * Nat.pow base (t.rank a X) := Nat.mul_le_mul_right _ hbase
      _ = Nat.pow base (t.rank a X + 1) := by rw [Nat.mul_comm]; rfl
  rw [potential_append]
  by_cases hall : p.rhs.all (t.analysis.transparent a) = true
  · -- all the right-hand side can stand for nothing, and so can `X`: the rest counts on both sides
    have hX := h.transparent_of_rhs hs (List.all_eq_true.mp hall)
    simp only [hall, hX, if_true, Table.potential, Table.weight, Analysis.transparent_action]
    omega
  · rw [if_neg hall]
    simp only [Table.potential, Table.weight]
    omega

/-- Every step lowers the input left, or keeps it and lowers the potential. -/
theorem moves_lower (h : g.LL1Table t) (heoi : ∀ p ∈ g.rules, .terminal .endOfInput ∉ p.rhs)
    (hbase : ∀ p ∈ g.rules, p.rhs.length + 2 ≤ base) {cfg : Config α} (hcfg : cfg.table = t)
    {st st' : State α} (hends : ∀ tok ∈ st.tokens.back?, tok.symbol = .endOfInput)
    (hm : Moves cfg st st') :
    st'.inputLeft < st.inputLeft ∨
      st'.inputLeft = st.inputLeft ∧ st'.potential t base < st.potential t base := by
  cases hm with
  | matched hs hla _ htok hcur hsyms =>
    left
    unfold State.inputLeft
    rw [htok, hcur, hsyms, hs, endMarkers_cons]
    by_cases hlt : st.cursor < st.tokens.size
    · omega
    · -- past the end of the input the lookahead, and so the matched terminal, is the end marker
      have heoi : st.lookahead.symbol = .endOfInput :=
        Classical.byContradiction fun hne => hlt (cursor_lt hends hne)
      rw [← hla, heoi, if_pos rfl]
      omega
  | @expanded k i rest p hs hp htok hcur hsyms =>
    right
    rw [hcfg] at hp
    obtain ⟨hmem, -, -⟩ := h.select_spec hp
    refine ⟨?_, ?_⟩
    · unfold State.inputLeft
      rw [htok, hcur, hsyms, hs]
      simp [endMarkers_rhsEntries (heoi p hmem)]
    · unfold State.potential
      rw [lookahead_congr htok hcur, hsyms, hs, List.map_append, List.map_cons,
        potential_rhsEntries]
      exact h.potential_expand hp (hbase p hmem) _
  | executed hs htok hcur hsyms =>
    right
    refine ⟨?_, ?_⟩
    · unfold State.inputLeft
      rw [htok, hcur, hsyms, hs]
      simp
    · unfold State.potential
      rw [lookahead_congr htok hcur, hsyms, hs]
      simp [Entry.sym, Table.potential, Table.weight]

/-! ### Whole runs -/

/-- From a state whose input ends with the end marker, enough fuel stops the run: it finishes or
fails, and does not run out. -/
theorem runSteps_stops (h : g.LL1Table t) (heoi : ∀ p ∈ g.rules, .terminal .endOfInput ∉ p.rhs)
    (hbase : ∀ p ∈ g.rules, p.rhs.length + 2 ≤ base) {cfg : Config α} (hcfg : cfg.table = t)
    (st : State α) (hends : ∀ tok ∈ st.tokens.back?, tok.symbol = .endOfInput) :
    ∃ n, ∀ fuel, n ≤ fuel → (runSteps cfg fuel st).1 ≠ .exhausted := by
  -- induction on the input left, and for each on the potential
  suffices hmeasure : ∀ L P (st : State α), st.inputLeft = L → st.potential t base = P →
      (∀ tok ∈ st.tokens.back?, tok.symbol = .endOfInput) →
      ∃ n, ∀ fuel, n ≤ fuel → (runSteps cfg fuel st).1 ≠ .exhausted from
    hmeasure _ _ st rfl rfl hends
  intro L
  induction L using Nat.strong_induction_on with
  | _ L ihL =>
  intro P
  induction P using Nat.strong_induction_on with
  | _ P ihP =>
  intro st hL hP hends
  rcases hstep : (step cfg).run st with ⟨_ | _ | _, st'⟩
  · -- a failing step ends the run
    refine ⟨1, fun fuel hf => ?_⟩
    obtain ⟨f, rfl⟩ : ∃ f, fuel = f + 1 := ⟨fuel - 1, by omega⟩
    rw [runSteps_of_error hstep]
    simp
  · -- the stack is empty: the run has finished
    obtain ⟨hnil, -⟩ := step_ok_false hstep
    exact ⟨0, fun fuel _ => by simp [runSteps_of_empty hnil]⟩
  · have hm := (transition_of_step hstep).moves
    have hends' : ∀ tok ∈ st'.tokens.back?, tok.symbol = .endOfInput := by
      rw [hm.tokens]
      exact hends
    obtain ⟨n, hn⟩ : ∃ n, ∀ fuel, n ≤ fuel → (runSteps cfg fuel st').1 ≠ .exhausted := by
      rcases h.moves_lower heoi hbase hcfg hends hm with hlt | ⟨heq, hlt⟩
      · exact ihL _ (hL ▸ hlt) _ st' rfl rfl hends'
      · exact ihP _ (hP ▸ hlt) st' (heq.trans hL) rfl hends'
    refine ⟨n + 1, fun fuel hf => ?_⟩
    obtain ⟨f, rfl⟩ : ∃ f, fuel = 1 + f := ⟨fuel - 1, by omega⟩
    rw [runSteps_add (.single hstep hm)]
    exact hn f (by omega)

end Grammar.LL1Table

/-- A table that selects, for `X` on lookahead `a`, a production beginning with `X` makes the
parser expand `X` for ever: from `X` on top with `a` ahead, every run runs out of steps. -/
theorem runSteps_exhausted_of_select_self {cfg : Config α} {X : Kind} {a : Symbol} {p : Production}
    {tl : List GSym} (hsel : cfg.table.select X.code a = some p) (hrhs : p.rhs = .nonterminal X :: tl) :
    ∀ fuel (st : State α), st.lookahead.symbol = a → (∃ i rest, st.syms = .nonterminal X i :: rest) →
      (runSteps cfg fuel st).1 = .exhausted := by
  intro fuel
  induction fuel with
  | zero =>
    rintro st - ⟨i, rest, hs⟩
    simp [runSteps, hs]
  | succ f ih =>
    rintro st hla ⟨i, rest, hs⟩
    obtain ⟨st', hstep⟩ : ∃ st', (step cfg).run st = (.ok true, st') :=
      ⟨_, by rw [run_step_nonterminal hs, run_expand_eq, popTo_lookahead, hla, hsel]⟩
    have hm := (transition_of_step hstep).moves
    rw [Nat.add_comm, runSteps_add (.single hstep hm)]
    cases hm with
    | matched hs' => rw [hs] at hs'; cases hs'
    | executed hs' => rw [hs] at hs'; cases hs'
    | @expanded k j rest' q hs' hq htok hcur hsyms =>
      -- the production pushed is `p`, and it puts `X` back on top
      obtain ⟨rfl, rfl, rfl⟩ : X = k ∧ i = j ∧ rest = rest' := by
        rw [hs] at hs'
        cases hs'
        exact ⟨rfl, rfl, rfl⟩
      rw [hla, hsel, Option.some.injEq] at hq
      subst hq
      refine ih st' (by rw [lookahead_congr htok hcur, hla])
        ⟨st.records.size, rhsEntries tl (st.records.size + 1) ++ .action p.id st.groupTable.size :: rest, ?_⟩
      rw [hsyms, hrhs]
      rfl

/-- A right-hand side is no longer than all right-hand sides together. -/
theorem length_le_rhsSize {rules : List Production} {p : Production} (hp : p ∈ rules) :
    p.rhs.length ≤ rhsSize rules := by
  induction rules with
  | nil => cases hp
  | cons q qs ih =>
    rcases List.mem_cons.mp hp with rfl | hp
    · simp only [rhsSize]
      omega
    · simp only [rhsSize]
      have := ih hp
      omega

/-- With a conflict-free table built from a grammar none of whose right-hand sides holds the end
marker, the parser stops on every input: past some number of steps, a run has finished or
failed. -/
theorem parser_stops {g : Grammar} {t : Table} (hn : g.WellNumbered)
    (hbuild : Table.build g.analyze = .ok t) (hconf : t.conflicts = [])
    (heoi : ∀ p ∈ g.rules, .terminal .endOfInput ∉ p.rhs) (cfg : Config α) (hcfg : cfg.table = t)
    (tokens : List Token) :
    ∃ n, ∀ fuel, n ≤ fuel → (runSteps cfg fuel (initial cfg tokens)).1 ≠ .exhausted := by
  have hbase : ∀ p ∈ g.rules, p.rhs.length + 2 ≤ g.size + 2 := fun p hp => by
    have := length_le_rhsSize hp
    unfold Grammar.size
    omega
  exact Grammar.LL1Table.runSteps_stops ⟨hn, hbuild, hconf⟩ heoi hbase hcfg _ (initial_ends cfg tokens)

/-- The parser with the expression grammar's table stops on `1 + 2`. -/
theorem float_parser_stops :
    let cfg : Config Float := ⟨Arith.float, expressionTable, true, [], false⟩
    ∃ n, ∀ fuel, n ≤ fuel → (runSteps cfg fuel
      (initial cfg [⟨"1", .number, 1⟩, ⟨"+", .plus, 1⟩, ⟨"2", .number, 1⟩])).1 ≠ .exhausted :=
  parser_stops expressionGrammar_wellNumbered expressionTable_build expressionTable_conflicts
    (by decide +kernel) ⟨Arith.float, expressionTable, true, [], false⟩ rfl _

/-- With production numbers that agree modulo 2^32 the table has no conflict and no right-hand
side holds the end marker, yet on `1` the parser expands `Expr` by `1: Sign ➞ Expr` for ever and
runs out of any number of steps. -/
theorem colliding_ids_parser_loops :
    let cfg : Config Float := ⟨Arith.float, collidingTable, true, [], false⟩
    Table.build collidingGrammar.analyze = .ok collidingTable ∧ collidingTable.conflicts = [] ∧
      (∀ p ∈ collidingGrammar.rules, .terminal .endOfInput ∉ p.rhs) ∧
      ∀ fuel, (runSteps cfg fuel (initial cfg [⟨"1", .number, 1⟩])).1 = .exhausted := by
  intro cfg
  have hsel : cfg.table.select Kind.expr.code .number = some ⟨1, .sign, [.nonterminal .expr]⟩ := by
    decide +kernel
  have hstart : cfg.table.grammar.start = .expr := by decide +kernel
  refine ⟨collidingTable_build, by decide +kernel, by decide +kernel, fun fuel => ?_⟩
  refine runSteps_exhausted_of_select_self hsel rfl fuel _ (by decide +kernel)
    ⟨0, [.terminal .endOfInput], ?_⟩
  simp only [initial, hstart]

end ExprTranslate
