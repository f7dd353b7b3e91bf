import ExprTranslate.Proofs.Descent
/-!
# How translating ends

Translating starts with `Expr` ready on top of the end marker, so the parse of one non-terminal
covers the whole run: the expression is parsed and the end marker matched, or the run gets
stuck on the way. Either happens well within the step budget, which therefore never runs out.

* `translate_success`: an expression parsed up to the end marker gives its value, its place and
  its code;
* `translate_stuck`: a run that gets stuck fails with the stuck state's error;
* `parse_outcome`, `translate_outcome`: every run goes one of these two ways.
-/

namespace ExprTranslate

open Run

variable {α : Type} {cfg : Config α}

/-! ### The input and the first state -/

/-- The terminated tokens end with the end marker. -/
theorem terminated_getLast (tokens : List Token) :
    ∃ t, (terminated tokens).getLast? = some t ∧ t.symbol = .endOfInput := by
  unfold terminated
  cases h : tokens.getLast? with
  | none => exact ⟨_, rfl, rfl⟩
  | some t =>
    by_cases ht : t.symbol = .endOfInput
    · exact ⟨t, by simp [ht, h], ht⟩
    · exact ⟨Token.endMarker t.line, by simp [ht], rfl⟩

/-- The input of the first state ends with the end marker. -/
theorem initial_ends (cfg : Config α) (tokens : List Token) :
    ∀ t ∈ (initial cfg tokens).tokens.back?, t.symbol = .endOfInput := by
  intro t ht
  obtain ⟨e, he, hs⟩ := terminated_getLast tokens
  simp only [initial, List.back?_toArray, he, Option.mem_def, Option.some.injEq] at ht
  exact ht ▸ hs

/-- The terminated tokens are the input's, and maybe an end marker. -/
theorem mem_terminated {tokens : List Token} {tok : Token} (h : tok ∈ terminated tokens) :
    tok ∈ tokens ∨ tok.symbol = .endOfInput := by
  unfold terminated at h
  split at h
  · split at h
    · exact .inl h
    · rcases List.mem_append.mp h with h | h
      · exact .inl h
      · exact .inr (by simp_all [Token.endMarker])
  · exact .inr (by simp_all [Token.endMarker])

/-- The tokens of a tree that spells the input up to an end marker are tokens of the input. -/
theorem mem_of_split {tokens : List Token} {t : Tree .expr} {eoi : Token} {more : List Token}
    (hsplit : terminated tokens = t.tokens ++ eoi :: more) {tok : Token} (htok : tok ∈ t.tokens) :
    tok ∈ tokens := by
  have hmem : tok ∈ terminated tokens := by
    rw [hsplit]
    exact List.mem_append_left _ htok
  rcases mem_terminated hmem with h | h
  · exact h
  · exact absurd h (Tree.endOfInput_not_mem t htok)

theorem length_terminated (tokens : List Token) :
    (terminated tokens).length ≤ tokens.length + 1 := by
  unfold terminated
  split
  · split <;> simp
  · simp

/-- At first `Expr`, with the first record, is ready on top of the end marker. -/
theorem ready_initial (hT : cfg.table = expressionTable) (tokens : List Token) :
    Ready .expr 0 [.terminal .endOfInput] (initial cfg tokens) where
  syms := by simp [initial, hT, expressionTable_start]
  record := ⟨Span.atPos 0, by simp [initial, hT, expressionTable_start, Instance.fresh]⟩
  held := rfl
  holds := by simp [State.topHolds, State.topGroup, initial]
  ends := initial_ends cfg tokens
  inside := by simp [initial]

/-! ### Runs to the end -/

section Runs

variable {n fuel : Nat} {st st' : State α}

/-- Fuel beyond the steps to a stuck state ends the run with its error. -/
theorem runSteps_of_stuck {e : TranslateError} (h : Steps cfg n st st') (hs : Stuck cfg st' e)
    (hf : n < fuel) : ∃ st'', runSteps cfg fuel st = (.failed e, st'') := by
  obtain ⟨st'', he⟩ := hs.step
  obtain ⟨f, rfl⟩ : ∃ f, fuel = n + (f + 1) := ⟨fuel - n - 1, by omega⟩
  exact ⟨st'', by rw [runSteps_add h, runSteps_of_error he]⟩

/-- Fuel enough for the steps to an empty stack ends the run there. -/
theorem runSteps_of_done (h : Steps cfg n st st') (hs : st'.syms = []) (hf : n ≤ fuel) :
    runSteps cfg fuel st = (.finished, st') := by
  obtain ⟨f, rfl⟩ : ∃ f, fuel = n + f := ⟨fuel - n, by omega⟩
  rw [runSteps_add h, runSteps_of_empty hs]

end Runs

/-! ### The two endings -/

/-- A run that gets stuck within the budget fails with the stuck state's error. -/
theorem translate_stuck {tokens : List Token} {abort : Bool} {n : Nat} {st : State α}
    {e : TranslateError} (h : Steps cfg n (initial cfg tokens) st) (hs : Stuck cfg st e)
    (hn : n < stepBudget tokens) : (translate cfg tokens none abort).ending = .failure e := by
  obtain ⟨st', hrun⟩ := runSteps_of_stuck h hs hn
  cases hs <;> simp [translate, hrun]

section Endings

variable (hT : cfg.table = expressionTable) {tokens : List Token} {abort : Bool}
include hT

/-- The expression parsed and the end marker next: one more step matches it, and the run
finishes there within the budget. -/
theorem runSteps_of_finished {t : Tree .expr} {st : State α}
    (h : Steps cfg (2 * t.nodes + t.tokens.length) (initial cfg tokens) st)
    (hf : Finished cfg .expr 0 [.terminal .endOfInput] (initial cfg tokens) t st)
    (hla : st.lookahead.symbol = .endOfInput) :
    Steps cfg (2 * t.nodes + t.tokens.length + 1) (initial cfg tokens)
        ((st.popTo cfg (.terminal .endOfInput) []).matchedTo cfg st.lookahead) ∧
      runSteps cfg (stepBudget tokens) (initial cfg tokens) =
        (.finished, (st.popTo cfg (.terminal .endOfInput) []).matchedTo cfg st.lookahead) := by
  -- matching the end marker takes the finished root group off the attribute stack
  have h₁ : Steps cfg 1 st ((st.popTo cfg (.terminal .endOfInput) []).matchedTo cfg st.lookahead) :=
    steps_match_plain hf.syms hla (by decide) (by decide)
  have hb : 2 * t.nodes + t.tokens.length + 1 ≤ stepBudget tokens := by
    have := Tree.nodes_le t
    have hin := hf.toAdvanced.inside (ready_initial hT tokens).inside
    have := length_terminated tokens
    rw [hf.cursor, hf.tokens] at hin
    simp [initial, Tree.nodeSlack, stepBudget] at *
    omega
  exact ⟨h.trans h₁, runSteps_of_done (h.trans h₁) (by simp) hb⟩

/-- The expression parsed and the end marker next: the run matches it and ends with the value
and place of the tree and its code, past the end marker. -/
theorem translate_success {t : Tree .expr} {st : State α}
    (h : Steps cfg (2 * t.nodes + t.tokens.length) (initial cfg tokens) st)
    (hf : Finished cfg .expr 0 [.terminal .endOfInput] (initial cfg tokens) t st)
    (hla : st.lookahead.symbol = .endOfInput) :
    (translate cfg tokens none abort).ending =
        .success (t.value cfg.arith cfg.bindings) (t.gen cfg.optimize 0).1 ∧
      (translate cfg tokens none abort).code = (t.gen cfg.optimize 0).2 ∧
      (translate cfg tokens none abort).cursor = t.tokens.length + 1 := by
  obtain ⟨sp, hr⟩ := hf.record
  have hr' : st.records[0]? = some ⟨.expr, sp, none,
      some (t.value cfg.arith cfg.bindings, (t.gen cfg.optimize 0).1)⟩ := by
    simpa [Tree.synthOp, Tree.synthAttr, Kind.isOperator, initial] using hr
  have hrun := (runSteps_of_finished hT h hf hla).2
  have hcode := hf.code
  simp only [initial, Array.toList_empty, List.nil_append] at hcode
  have hcur : st.cursor = t.tokens.length := by simpa [initial] using hf.cursor
  simp [translate, hrun, hr', ← hcode, hcur]

/-- **How the run goes.** Either its steps parse a tree of `Expr` with the end marker next, the
tree's tokens being the input up to that end marker, or they get stuck within the budget. -/
theorem parse_outcome :
    (∃ (t : Tree .expr) (st : State α) (more : List Token),
      Steps cfg (2 * t.nodes + t.tokens.length) (initial cfg tokens) st ∧
      Finished cfg .expr 0 [.terminal .endOfInput] (initial cfg tokens) t st ∧
      st.lookahead.symbol = .endOfInput ∧ terminated tokens = t.tokens ++ st.lookahead :: more) ∨
    (∃ (n : Nat) (st : State α) (e : TranslateError), Steps cfg n (initial cfg tokens) st ∧
      Stuck cfg st e ∧ n < stepBudget tokens) := by
  have hready := ready_initial hT tokens
  have hlen := length_terminated tokens
  rcases parses hT hready with ⟨t, st, h, hf⟩ | ⟨n, st, e, h, hs, hn, hin⟩
  · by_cases hla : st.lookahead.symbol = .endOfInput
    · have hinput := hf.input
      simp only [initial, List.drop_zero, List.toList_toArray] at hinput
      -- the cursor is at a token: the tree holds no end marker, and the input ends with one
      have hlt : st.cursor < st.tokens.size := by
        refine Nat.lt_of_not_le fun hge => ?_
        obtain ⟨eoi, he, hs⟩ := terminated_getLast tokens
        have hall : terminated tokens = t.tokens := by
          have hge' : (terminated tokens).length ≤ st.cursor := by simpa [hf.tokens, initial] using hge
          simpa [List.drop_eq_nil_of_le hge'] using hinput
        exact Tree.endOfInput_not_mem t (hall ▸ List.mem_of_getLast? he) hs
      have hd := drop_cursor hlt
      simp only [hf.tokens, initial, List.toList_toArray] at hd
      rw [hd] at hinput
      exact .inl ⟨t, st, _, h, hf, hla, hinput⟩
    · refine .inr ⟨_, st, _, h, .mismatch hf.syms hla, ?_⟩
      have := Tree.nodes_le t
      have hin := hf.toAdvanced.inside hready.inside
      rw [hf.cursor, hf.tokens] at hin
      simp [initial, Tree.nodeSlack, stepBudget] at *
      omega
  · refine .inr ⟨n, st, e, h, hs, ?_⟩
    rw [h.tokens] at hin
    simp [initial, Kind.failSlack, stepBudget] at *
    omega

/-- **How translating ends.** Either a tree of `Expr` spells the input up to an end marker and
translating gives its value, place and code with the cursor past the end marker, or the run
gets stuck and fails with the stuck state's error. -/
theorem translate_outcome :
    (∃ (t : Tree .expr) (eoi : Token) (more : List Token),
      terminated tokens = t.tokens ++ eoi :: more ∧ eoi.symbol = .endOfInput ∧
      Readable cfg t.tokens ∧
      (translate cfg tokens none abort).ending =
        .success (t.value cfg.arith cfg.bindings) (t.gen cfg.optimize 0).1 ∧
      (translate cfg tokens none abort).code = (t.gen cfg.optimize 0).2 ∧
      (translate cfg tokens none abort).cursor = t.tokens.length + 1) ∨
    (∃ (n : Nat) (st : State α) (e : TranslateError), Steps cfg n (initial cfg tokens) st ∧
      Stuck cfg st e ∧ (translate cfg tokens none abort).ending = .failure e) := by
  rcases parse_outcome hT with ⟨t, st, more, h, hf, hla, hinput⟩ | ⟨n, st, e, h, hs, hn⟩
  · exact .inl ⟨t, st.lookahead, more, hinput, hla, hf.readable, translate_success hT h hf hla⟩
  · exact .inr ⟨n, st, e, h, hs, translate_stuck h hs hn⟩

/-- **Translating fails only on its input.** With the expression table, translating ends with
a value, with a syntax error, or with the error of a number token of the input whose numeral
the arithmetic refuses: never with an internal error, and never for want of steps. -/
theorem translate_ends_without_internal_error :
    (∃ v p, (translate cfg tokens none abort).ending = .success v p) ∨
    (∃ e, (translate cfg tokens none abort).ending = .failure (.syntaxError e)) ∨
    (∃ pos tok err, (terminated tokens)[pos]? = some tok ∧ tok.symbol = .number ∧
      cfg.arith.numeral tok.lexeme = .error err ∧
      (translate cfg tokens none abort).ending = .failure (.numeral tok.line pos tok.lexeme err)) := by
  rcases translate_outcome hT with ⟨t, _, _, _, _, _, hend, _⟩ | ⟨n, st, e, h, hs, hend⟩
  · exact .inl ⟨_, _, hend⟩
  cases hs with
  | noProduction => exact .inr (.inl ⟨_, hend⟩)
  | mismatch => exact .inr (.inl ⟨_, hend⟩)
  | refused _ hla _ he =>
    -- the refused number is the token at the cursor
    have hends : ∀ t ∈ st.tokens.back?, t.symbol = .endOfInput := by
      rw [h.tokens]; exact (ready_initial hT tokens).ends
    have hat := getElem?_cursor (cursor_lt hends (by rw [hla]; decide))
    rw [h.tokens] at hat
    exact .inr (.inr ⟨_, _, _, by simpa [initial] using hat, hla, he, hend⟩)

end Endings

/-- Double arithmetic with the expression table, for `1 / y`. -/
theorem float_ends_without_internal_error :
    let cfg : Config Float := ⟨Arith.float, expressionTable, true, [], false⟩
    let tokens := [⟨"1", .number, 1⟩, ⟨"/", .slash, 1⟩, ⟨"y", .identifier, 1⟩]
    (∃ v p, (translate cfg tokens none false).ending = .success v p) ∨
    (∃ e, (translate cfg tokens none false).ending = .failure (.syntaxError e)) ∨
    (∃ pos tok err, (terminated tokens)[pos]? = some tok ∧ tok.symbol = .number ∧
      cfg.arith.numeral tok.lexeme = .error err ∧
      (translate cfg tokens none false).ending = .failure (.numeral tok.line pos tok.lexeme err)) :=
  translate_ends_without_internal_error (by simp)

end ExprTranslate
