import ExprTranslate.Proofs.Viability
import Mathlib.Data.Nat.Find
/-!
# The translator stops at the longest viable prefix

A predictive parser with an LL(1) table has the correct-prefix property: it consumes a token only
if some valid input goes on with it, and it never rejects a token that some valid input has
there, although it chooses an empty production on every symbol that may follow the non-terminal
somewhere, whether or not it may follow it here. So the tokens a translation consumes are the
longest start of its input that begins a valid input, an expression and the end marker.

* `LongestViable ws n`: the first `n` symbols of `ws` are the longest start of `ws` that begins
  a complete input, a sentence of the grammar and of its EBNF description followed by the end
  marker (`viable_iff_matches`);
* `translate_complete`: an expression followed by an end marker, whose numerals the arithmetic
  reads, is translated to its value and code;
* `translate_stops_at_longest_viable_prefix`: translating fails at the first refused numeral of
  the longest viable prefix of its input; else it succeeds, consuming exactly that prefix and
  translating as the prefix alone would, if the prefix ends with the end marker, and fails with a
  syntax error at the token after the prefix if not.
-/

namespace ExprTranslate

/-! ### The longest viable prefix -/

/-- The first `n` of the symbols `ws` are the longest start of them that begins a complete
input. -/
def LongestViable (ws : List Symbol) (n : Nat) : Prop :=
  n ≤ ws.length ∧ Viable (ws.take n) ∧ ∀ m, n < m → m ≤ ws.length → ¬ Viable (ws.take m)

variable {ws : List Symbol} {m n : Nat}

theorem Viable.nil : Viable [] := ⟨(Tree.some .expr).symbols ++ [.endOfInput], Tree.some .expr, rfl⟩

theorem Viable.take_of_le (h : Viable (ws.take m)) (hnm : n ≤ m) : Viable (ws.take n) := by
  rw [← List.take_append_drop n (ws.take m)] at h
  simpa [List.take_take, Nat.min_eq_left hnm] using h.of_append

/-- Every start of a complete input is viable. -/
theorem Complete.viable_take (h : Complete ws) (n : Nat) : Viable (ws.take n) :=
  ⟨ws.drop n, by rwa [List.take_append_drop]⟩

/-- Every list of symbols has a longest viable prefix, the empty one at least. -/
theorem exists_longestViable (ws : List Symbol) : ∃ n, LongestViable ws n := by
  classical
  let P : Nat → Prop := fun m => Viable (ws.take m)
  have h0 : P 0 := by simpa [P] using Viable.nil
  exact ⟨Nat.findGreatest P ws.length, Nat.findGreatest_le _,
    Nat.findGreatest_spec (Nat.zero_le _) h0, fun _ hlt hle => Nat.findGreatest_is_greatest hlt hle⟩

/-- A viable prefix that one more symbol makes not viable is the longest. -/
theorem LongestViable.of_not_viable (hv : Viable (ws.take n)) (hn : n < ws.length)
    (hnv : ¬ Viable (ws.take (n + 1))) : LongestViable ws n :=
  ⟨Nat.le_of_lt hn, hv, fun _ hm _ h => hnv (h.take_of_le hm)⟩

/-- A complete prefix is the longest viable one: nothing goes on after its end marker. -/
theorem LongestViable.of_complete (hc : Complete (ws.take n)) (hn : n ≤ ws.length) :
    LongestViable ws n := by
  refine ⟨hn, ⟨[], by simpa using hc⟩, fun m hm hle ⟨y, hy⟩ => ?_⟩
  obtain ⟨t, ht⟩ := hc
  rw [← List.take_append_drop n (ws.take m), List.take_take, Nat.min_eq_left (Nat.le_of_lt hm),
    ht, List.append_assoc, List.append_assoc, List.singleton_append] at hy
  have hnil := Complete.eq_nil_of_endOfInput hy
  have hlen : ((ws.take m).drop n).length = m - n := by simp; omega
  rw [List.append_eq_nil_iff] at hnil
  rw [hnil.1] at hlen
  simp at hlen
  omega

/-! ### Stuck runs -/

section Stuck

variable {α : Type} {cfg : Config α} {st : State α} {e : TranslateError}

theorem Stuck.syms_ne_nil (h : Stuck cfg st e) : st.syms ≠ [] := by
  cases h <;> simp [*]

/-- A stuck state fails with a syntax error at the cursor and the lookahead, or with the error
of the number at the cursor. -/
theorem Stuck.syntaxError_or_refused (h : Stuck cfg st e) :
    (∃ info, e = .syntaxError info ∧ info.pos = st.cursor ∧ info.found = st.lookahead) ∨
    (∃ rest err, st.syms = .terminal .number :: rest ∧ st.lookahead.symbol = .number ∧
      cfg.arith.numeral st.lookahead.lexeme = .error err ∧
      e = .numeral st.lookahead.line st.cursor st.lookahead.lexeme err) := by
  cases h with
  | noProduction => exact .inl ⟨_, rfl, rfl, rfl⟩
  | mismatch => exact .inl ⟨_, rfl, rfl, rfl⟩
  | refused hs hla _ he => exact .inr ⟨_, _, hs, hla, he, rfl⟩

/-- Before the end of the input, one more symbol consumed is the lookahead's. -/
theorem consumed_succ (h : st.cursor < st.tokens.size) :
    (st.tokens.toList.map Token.symbol).take (st.cursor + 1) =
      st.consumed ++ [st.lookahead.symbol] := by
  rw [← List.map_take, take_cursor_succ h]
  simp [State.consumed]

theorem consumed_eq_take : st.consumed = (st.tokens.toList.map Token.symbol).take st.cursor := by
  simp [State.consumed, List.map_take]

/-- **A run stuck on a syntax error has consumed the longest viable prefix of its input.** -/
theorem Prefixed.longestViable (hT : cfg.table = expressionTable) (h : Prefixed cfg st)
    {info : SyntaxError} (hs : Stuck cfg st (.syntaxError info)) :
    LongestViable (st.tokens.toList.map Token.symbol) st.cursor := by
  have hlt := h.cursor_lt hs.syms_ne_nil
  refine .of_not_viable (consumed_eq_take ▸ h.viable) (by simpa using hlt) ?_
  rw [consumed_succ hlt]
  exact h.not_viable hT hs

end Stuck

/-! ### Translations -/

section Translations

variable {α : Type} {cfg : Config α} (hT : cfg.table = expressionTable)
include hT

/-- **A valid input is translated.** An expression followed by an end marker, whose numerals the
arithmetic reads, is translated to the value and the code of its tree: no run on it gets
stuck. -/
theorem translate_complete {t : Tree .expr} {eoi : Token} (heoi : eoi.symbol = .endOfInput)
    (hread : Readable cfg t.tokens) (abort : Bool) :
    (translate cfg (t.tokens ++ [eoi]) none abort).ending =
        .success (t.value cfg.arith cfg.bindings) (t.gen cfg.optimize 0).1 ∧
      (translate cfg (t.tokens ++ [eoi]) none abort).code = (t.gen cfg.optimize 0).2 := by
  have hterm : terminated (t.tokens ++ [eoi]) = t.tokens ++ [eoi] := by simp [terminated, heoi]
  rcases @translate_outcome α cfg hT (t.tokens ++ [eoi]) abort with
    ⟨t', eoi', more', hsplit, heoi', _, hend, hcode, _⟩ | ⟨n, st, e, h, hs, _⟩
  · rw [hterm] at hsplit
    obtain rfl := Tree.eq_of_terminated hsplit heoi heoi'
    exact ⟨hend, hcode⟩
  · exfalso
    have hp := h.prefixed hT (prefixed_initial hT _)
    have hin : st.tokens.toList = t.tokens ++ [eoi] := by rw [h.tokens]; simp [initial, hterm]
    have hlt := hp.cursor_lt hs.syms_ne_nil
    rcases hs.syntaxError_or_refused with ⟨info, rfl, -, -⟩ | ⟨rest, err, -, hla, he, -⟩
    · -- every start of a complete input is viable
      apply hp.not_viable hT hs
      rw [← consumed_succ hlt, hin]
      exact Complete.viable_take ⟨t, by simp [Tree.symbols, heoi]⟩ _
    · -- the refused number is a token of the tree, whose numerals are read
      have hmem : st.lookahead ∈ t.tokens ++ [eoi] :=
        hin ▸ List.mem_of_getElem? (by rw [Array.getElem?_toList]; exact getElem?_cursor hlt)
      rcases List.mem_append.mp hmem with hmem | hmem
      · obtain ⟨v, hv⟩ := hread _ hmem hla
        rw [hv] at he
        cases he
      · rw [List.mem_singleton.mp hmem, heoi] at hla
        exact absurd hla (by decide)

/-- **Translating stops at the longest viable prefix.** Let `P` be the longest start of the
terminated input that begins an expression followed by the end marker. If a number of `P` has a
numeral the arithmetic refuses, translating fails with the error of the first one. Otherwise it
succeeds if `P` ends with the end marker, consuming exactly `P` and translating as `P` alone
would, and if not, it fails with a syntax error at the token after `P`. -/
theorem translate_stops_at_longest_viable_prefix (tokens : List Token) (abort : Bool) :
    ∃ n, LongestViable ((terminated tokens).map Token.symbol) n ∧
      ((∃ i tok err, i < n ∧ (terminated tokens)[i]? = some tok ∧ tok.symbol = .number ∧
          cfg.arith.numeral tok.lexeme = .error err ∧ Readable cfg ((terminated tokens).take i) ∧
          (translate cfg tokens none abort).ending = .failure (.numeral tok.line i tok.lexeme err)) ∨
        (Readable cfg ((terminated tokens).take n) ∧
          (((terminated tokens).map Token.symbol).take n).getLast? = some .endOfInput ∧
          (∃ v p, (translate cfg tokens none abort).ending = .success v p) ∧
          (translate cfg tokens none abort).cursor = n ∧
          (translate cfg ((terminated tokens).take n) none abort).ending =
            (translate cfg tokens none abort).ending ∧
          (translate cfg ((terminated tokens).take n) none abort).code =
            (translate cfg tokens none abort).code) ∨
        (Readable cfg ((terminated tokens).take n) ∧
          (((terminated tokens).map Token.symbol).take n).getLast? ≠ some .endOfInput ∧
          ∃ e, (translate cfg tokens none abort).ending = .failure (.syntaxError e) ∧
            e.pos = n ∧ (terminated tokens)[n]? = some e.found)) := by
  rcases @translate_outcome α cfg hT tokens abort with
    ⟨t, eoi, more, hsplit, heoi, hread, hend, hcode, hcur⟩ | ⟨k, st, e, h, hs, hend⟩
  · -- an expression and an end marker: that much is the longest viable prefix
    have htake : (terminated tokens).take (t.tokens.length + 1) = t.tokens ++ [eoi] := by
      rw [hsplit, List.take_length_add_append, List.take_one, List.head?_cons, Option.toList_some]
    have hsyms : ((terminated tokens).map Token.symbol).take (t.tokens.length + 1) =
        t.symbols ++ [.endOfInput] := by
      rw [← List.map_take, htake]
      simp [Tree.symbols, heoi]
    obtain ⟨hend', hcode'⟩ := translate_complete hT heoi hread abort
    refine ⟨t.tokens.length + 1, .of_complete ⟨t, hsyms⟩ (by simp [hsplit]),
      .inr (.inl ⟨?_, by simp [hsyms], ⟨_, _, hend⟩, hcur, ?_, ?_⟩)⟩
    · rw [htake, readable_append]
      exact ⟨hread, readable_single (by rw [heoi]; decide)⟩
    · rw [htake, hend', hend]
    · rw [htake, hcode', hcode]
  · have hp := h.prefixed hT (prefixed_initial hT tokens)
    have hin : st.tokens.toList = terminated tokens := by rw [h.tokens]; simp [initial]
    have hlt := hp.cursor_lt hs.syms_ne_nil
    have hat : (terminated tokens)[st.cursor]? = some st.lookahead := by
      rw [← hin, Array.getElem?_toList]
      exact getElem?_cursor hlt
    rcases hs.syntaxError_or_refused with ⟨info, rfl, hpos, hfound⟩ | ⟨rest, err, hs', hla, he, rfl⟩
    · -- a syntax error: the consumed tokens are the longest viable prefix
      refine ⟨st.cursor, hin ▸ hp.longestViable hT hs, .inr (.inr ⟨hin ▸ hp.readable, ?_,
        info, hend, hpos, hfound ▸ hat⟩)⟩
      intro hl
      refine hp.endOfInput_not_mem hs.syms_ne_nil ?_
      rw [consumed_eq_take, hin]
      exact List.mem_of_getLast? hl
    · -- a refused number: it may come next, so the longest viable prefix goes on past it
      have hv : Viable (((terminated tokens).map Token.symbol).take (st.cursor + 1)) := by
        rw [← hin, consumed_succ hlt, hla]
        exact hp.viable_terminal hs'
      obtain ⟨n, hn⟩ := exists_longestViable ((terminated tokens).map Token.symbol)
      have hcn : st.cursor < n := Nat.lt_of_not_le fun hle =>
        hn.2.2 _ (by omega) (by simpa [← hin] using Nat.succ_le_of_lt hlt) hv
      exact ⟨n, hn, .inl ⟨st.cursor, st.lookahead, err, hcn, hat, hla, he, hin ▸ hp.readable,
        hend⟩⟩

end Translations

/-- Double arithmetic with identity elimination, for `1 + )`: the longest viable prefix is `1 +`,
and the parenthesis after it is a syntax error. -/
theorem float_stops_at_longest_viable_prefix :
    let cfg : Config Float := ⟨Arith.float, expressionTable, true, [], false⟩
    let tokens := [⟨"1", .number, 1⟩, ⟨"+", .plus, 1⟩, ⟨")", .rparen, 1⟩]
    ∃ n, LongestViable ((terminated tokens).map Token.symbol) n ∧
      ((∃ i tok err, i < n ∧ (terminated tokens)[i]? = some tok ∧ tok.symbol = .number ∧
          cfg.arith.numeral tok.lexeme = .error err ∧ Readable cfg ((terminated tokens).take i) ∧
          (translate cfg tokens none false).ending = .failure (.numeral tok.line i tok.lexeme err)) ∨
        (Readable cfg ((terminated tokens).take n) ∧
          (((terminated tokens).map Token.symbol).take n).getLast? = some .endOfInput ∧
          (∃ v p, (translate cfg tokens none false).ending = .success v p) ∧
          (translate cfg tokens none false).cursor = n ∧
          (translate cfg ((terminated tokens).take n) none false).ending =
            (translate cfg tokens none false).ending ∧
          (translate cfg ((terminated tokens).take n) none false).code =
            (translate cfg tokens none false).code) ∨
        (Readable cfg ((terminated tokens).take n) ∧
          (((terminated tokens).map Token.symbol).take n).getLast? ≠ some .endOfInput ∧
          ∃ e, (translate cfg tokens none false).ending = .failure (.syntaxError e) ∧
            e.pos = n ∧ (terminated tokens)[n]? = some e.found)) :=
  translate_stops_at_longest_viable_prefix (by simp) _ false

end ExprTranslate
