import ExprTranslate.Proofs.Operations
/-!
# The parse of one non-terminal

The translator is a predictive parser, but the run of its steps from a non-terminal on top of
the symbol stack is a recursive descent: the non-terminal is expanded, each symbol of the
production is parsed in turn, and the production's action runs. This module follows that
descent for every input:

* `Ready k r rest st`: the non-terminal `k` with its fresh record `r` is on top of `rest`, and
  its record is in the group on top of the attribute stack;
* `Finished cfg k r rest st t st'`: the steps from `st` to `st'` parsed the tree `t`, left
  `rest`, gave `r` what `t` synthesizes and emitted the code of `t`, and changed no other old
  record or group;
* `Fails cfg st slack`: the steps from `st` reach a stuck state, a syntax error or a refused
  numeral, in at most sixteen steps a consumed token plus `slack`;
* `Midway` and `Popped`: inside a production, while its group is on top of the attribute stack
  and once it has left, each with the step that ends the production (`Midway.finish`,
  `Popped.finish`).

`parses` shows that from a ready state the parse finishes with a tree, in two steps a node and
one a token, or fails that way. The induction is on the input left and the rank of the
non-terminal: a non-terminal is parsed after another of lower rank or once a token is
consumed.
-/

namespace ExprTranslate

open Run Production

variable {α : Type} {cfg : Config α}

/-! ### Where a parse starts and how it ends -/

/-- The non-terminal `k` with its fresh record `r` is on top of `rest`, nothing is held, the
record belongs to the group on top of the attribute stack, and the input ends with the end
marker. -/
structure Ready (k : Kind) (r : Nat) (rest : List Entry) (st : State α) : Prop where
  syms : st.syms = .nonterminal k r :: rest
  record : ∃ sp, st.records[r]? = some ⟨k, sp, none, none⟩
  held : st.held = none
  holds : st.topHolds (some r) = true
  ends : ∀ t ∈ st.tokens.back?, t.symbol = .endOfInput
  inside : st.cursor ≤ st.tokens.size

/-- From `st` to `st'` the tokens `toks` were consumed and the code `emitted` emitted, every
instruction with a fresh temporary, while the old records other than `r` and the groups below
`gs` stayed as they were. -/
structure Advanced (r gs : Nat) (st st' : State α) (toks : List Token) (emitted : List Instr) :
    Prop where
  tokens : st'.tokens = st.tokens
  cursor : st'.cursor = st.cursor + toks.length
  input : st.tokens.toList.drop st.cursor = toks ++ st.tokens.toList.drop st'.cursor
  records : ∀ i, i < st.records.size → i ≠ r → st'.records[i]? = st.records[i]?
  recordsSize : st.records.size ≤ st'.records.size
  groupTable : ∀ g, g < gs → st'.groupTable[g]? = st.groupTable[g]?
  groupTableSize : st.groupTable.size ≤ st'.groupTable.size
  code : st'.code.toList = st.code.toList ++ emitted
  temps : st'.temps = st.temps + emitted.length

/-- The numbers among `toks` are numerals the arithmetic reads. -/
def Readable (cfg : Config α) (toks : List Token) : Prop :=
  ∀ tok ∈ toks, tok.symbol = .number → ∃ v, cfg.arith.numeral tok.lexeme = .ok v

@[simp] theorem readable_nil : Readable cfg [] := by simp [Readable]

@[simp] theorem readable_append {a b : List Token} :
    Readable cfg (a ++ b) ↔ Readable cfg a ∧ Readable cfg b := by
  simp only [Readable, List.mem_append]
  exact ⟨fun h => ⟨fun t ht => h t (.inl ht), fun t ht => h t (.inr ht)⟩,
    fun h t ht => ht.elim (h.1 t) (h.2 t)⟩

/-- A token other than a number is read. -/
theorem readable_single {tok : Token} (h : tok.symbol ≠ .number) : Readable cfg [tok] := by
  simp only [Readable, List.mem_singleton]
  rintro _ rfl hn
  exact absurd hn h

/-- The steps from `st` to `st'` parsed the tokens of `t`, emitted its code, left `rest` on the
stack and the attribute stack as it was, and gave the record `r` what `t` synthesizes. -/
structure Finished (cfg : Config α) (k : Kind) (r : Nat) (rest : List Entry) (st : State α)
    (t : Tree k) (st' : State α) : Prop
    extends Advanced r st.groupTable.size st st' t.tokens (t.gen cfg.optimize st.temps).2 where
  syms : st'.syms = rest
  held : st'.held = none
  groups : st'.groups = st.groups
  record : ∃ sp, st'.records[r]? = some ⟨k, sp, t.synthOp, t.synthAttr cfg st.temps⟩
  readable : Readable cfg t.tokens

/-- A state whose step fails with a syntax error or a refused numeral: a non-terminal without
production for the lookahead, a terminal that is not the lookahead, or a number the arithmetic
does not read. -/
inductive Stuck (cfg : Config α) (st : State α) : TranslateError → Prop
  | noProduction {k : Kind} {i : Nat} {rest : List Entry} (hs : st.syms = .nonterminal k i :: rest)
      (hp : cfg.table.select k.code st.lookahead.symbol = none) :
      Stuck cfg st (.syntaxError ⟨st.cursor, st.lookahead, cfg.table.expected k, true, k⟩)
  | mismatch {s : Symbol} {rest : List Entry} (hs : st.syms = .terminal s :: rest)
      (hla : st.lookahead.symbol ≠ s) :
      Stuck cfg st (.syntaxError ⟨st.cursor, st.lookahead, [s], false, .expr⟩)
  | refused {rest : List Entry} {e : Double.ReadError} (hs : st.syms = .terminal .number :: rest)
      (hla : st.lookahead.symbol = .number) (hh : st.held = none)
      (he : cfg.arith.numeral st.lookahead.lexeme = .error e) :
      Stuck cfg st (.numeral st.lookahead.line st.cursor st.lookahead.lexeme e)

/-- The steps from `st` reach a stuck state, in at most sixteen steps for each token consumed
on the way and `slack` more. -/
def Fails (cfg : Config α) (st : State α) (slack : Nat) : Prop :=
  ∃ n st' e, Steps cfg n st st' ∧ Stuck cfg st' e ∧ n + 16 * st.cursor ≤ 16 * st'.cursor + slack ∧
    st'.cursor ≤ st'.tokens.size

/-- How many steps more than sixteen a consumed token a failing parse of a kind takes at most. -/
def Kind.failSlack : Kind → Nat
  | .expr => 5
  | .term => 2
  | .factor | .addOp | .mulOp => 1
  | .sign | .exprTail | .termTail => 3

/-- The rank of a kind: a non-terminal is parsed right after its expansion only if its rank is
lower. -/
def Kind.rank : Kind → Nat
  | .expr => 3
  | .term => 2
  | .sign | .exprTail | .termTail | .factor => 1
  | .addOp | .mulOp => 0

/-- The parse of `k` from `st` either finishes with a tree `t`, in two steps a node of `t` and one
a token, or fails. -/
def Parses (cfg : Config α) (k : Kind) (r : Nat) (rest : List Entry) (st : State α) : Prop :=
  (∃ (t : Tree k) (st' : State α), Steps cfg (2 * t.nodes + t.tokens.length) st st' ∧
    Finished cfg k r rest st t st') ∨ Fails cfg st k.failSlack

/-- The measure of the induction: the input left and the rank of the kind. -/
def measure (k : Kind) (st : State α) : Nat := 4 * (st.tokens.size - st.cursor) + k.rank

/-- The induction hypothesis: every parse of a smaller measure finishes or fails. -/
def Below (cfg : Config α) (k : Kind) (st : State α) : Prop :=
  ∀ (k' : Kind) (r' : Nat) (rest' : List Entry) (st' : State α), measure k' st' < measure k st →
    Ready k' r' rest' st' → Parses cfg k' r' rest' st'

/-! ### Stuck states and failures -/

section Failures

variable {st st₁ : State α}

/-- The step from a stuck state fails with its error. -/
theorem Stuck.step {e : TranslateError} (h : Stuck cfg st e) :
    ∃ st', (step cfg).run st = (.error e, st') := by
  cases h with
  | noProduction hs hp =>
    rw [run_step_nonterminal hs]
    simp only [expand, run_bind, run_map, run_get, popTo_lookahead, popTo_cursor, hp, run_throw]
    exact ⟨_, rfl⟩
  | mismatch hs hla =>
    rw [run_step_terminal hs]
    simp only [matchTerminal, run_bind, run_map, run_get, popTo_lookahead, popTo_cursor, hla,
      ne_eq, not_false_eq_true, if_true, run_throw]
    exact ⟨_, rfl⟩
  | @refused rest _ hs hla hh he =>
    have hheld : (st.popTo cfg (.terminal .number) rest).held = none := by simpa using hh
    rw [run_step_terminal hs]
    simp only [matchTerminal, run_bind, run_map, run_get, popTo_lookahead, popTo_cursor, hla,
      ne_eq, not_true_eq_false, if_false, true_or, if_true, run_hold_refused hheld hla he]
    exact ⟨_, rfl⟩

theorem Fails.of_stuck {e : TranslateError} {b : Nat} (h : Stuck cfg st e)
    (hin : st.cursor ≤ st.tokens.size) : Fails cfg st b :=
  ⟨0, st, e, .refl st, h, by omega, hin⟩

/-- Steps before a failure add to its count. -/
theorem Fails.after {m b₁ b : Nat} (hs : Steps cfg m st st₁) (hf : Fails cfg st₁ b₁)
    (hb : m + b₁ + 16 * st.cursor ≤ 16 * st₁.cursor + b) : Fails cfg st b := by
  obtain ⟨n, st', e, hn, hst, hc, hin⟩ := hf
  exact ⟨m + n, st', e, hs.trans hn, hst, by omega, hin⟩

end Failures

/-! ### Advancing -/

section Advancing

variable {r r' gs gs' : Nat} {st st₁ st₂ : State α} {t₁ t₂ : List Token} {c₁ c₂ : List Instr}

/-- Advancing twice is advancing, when the second record that changes is the first or a new
one, and the second keeps at least the groups the first keeps. -/
theorem Advanced.trans (h₁ : Advanced r gs st st₁ t₁ c₁) (h₂ : Advanced r' gs' st₁ st₂ t₂ c₂)
    (hr : r' = r ∨ st.records.size ≤ r') (hg : gs ≤ gs') :
    Advanced r gs st st₂ (t₁ ++ t₂) (c₁ ++ c₂) where
  tokens := h₂.tokens.trans h₁.tokens
  cursor := by rw [h₂.cursor, h₁.cursor]; simp; omega
  input := by rw [h₁.input, ← h₁.tokens, h₂.input, List.append_assoc]
  records i hi hne := by
    have h₁size := h₁.recordsSize
    rw [h₂.records i (by omega) (by omega), h₁.records i hi hne]
  recordsSize := Nat.le_trans h₁.recordsSize h₂.recordsSize
  groupTable g hg' := by rw [h₂.groupTable g (by omega), h₁.groupTable g hg']
  groupTableSize := Nat.le_trans h₁.groupTableSize h₂.groupTableSize
  code := by rw [h₂.code, h₁.code, List.append_assoc]
  temps := by rw [h₂.temps, h₁.temps]; simp; omega

/-- The cursor stays within the input: it moves over tokens that are there. -/
theorem Advanced.inside (h : Advanced r gs st st₁ t₁ c₁) (hin : st.cursor ≤ st.tokens.size) :
    st₁.cursor ≤ st₁.tokens.size := by
  have hl := congrArg List.length h.input
  simp only [List.length_drop, List.length_append, Array.length_toList] at hl
  rw [h.tokens, h.cursor]
  omega

end Advancing

/-! ### One step of the parse

The three kinds of step the parse of a production takes, each with what it consumes, emits and
changes. -/

/-- The state once the non-terminal `top`, with record `r`, is replaced by the right-hand side
of `p`. -/
def State.expanded (cfg : Config α) (st : State α) (top : Entry) (rest : List Entry)
    (p : Production) (r : Nat) : State α :=
  ((st.popTo cfg top rest).noted cfg fun _ => .chosen p).expandBy p r st.cursor

section Expanded

variable {st : State α} {top : Entry} {rest : List Entry} {p : Production} {r : Nat}

@[simp] theorem expanded_tokens : (st.expanded cfg top rest p r).tokens = st.tokens := by
  simp [State.expanded]
@[simp] theorem expanded_cursor : (st.expanded cfg top rest p r).cursor = st.cursor := by
  simp [State.expanded]
@[simp] theorem expanded_lookahead : (st.expanded cfg top rest p r).lookahead = st.lookahead := by
  simp [State.expanded, State.lookahead]
@[simp] theorem expanded_syms : (st.expanded cfg top rest p r).syms =
    rhsEntries p.rhs st.records.size ++ .action p.id st.groupTable.size :: rest := by
  simp [State.expanded]
@[simp] theorem expanded_held : (st.expanded cfg top rest p r).held = st.held := by
  simp [State.expanded]
@[simp] theorem expanded_groups : (st.expanded cfg top rest p r).groups =
    if p.isEpsilon then st.groups else st.groupTable.size :: st.groups := by
  simp [State.expanded]
@[simp] theorem expanded_groupTable : (st.expanded cfg top rest p r).groupTable = st.groupTable.push
    { prod := p, owner := some r, popped := p.isEpsilon,
      members := (List.range p.nonTerminals.length).map (st.records.size + ·) } := by
  simp [State.expanded]
@[simp] theorem expanded_records : (st.expanded cfg top rest p r).records =
    (st.records.modify r fun r => { r with span := Span.atPos st.cursor }) ++
      (p.nonTerminals.map (Instance.fresh · st.cursor)).toArray := by
  simp [State.expanded]
@[simp] theorem expanded_code : (st.expanded cfg top rest p r).code = st.code := by
  simp [State.expanded]

/-- The expanded non-terminal's record starts its span at the cursor. -/
theorem expanded_owner {x : Instance α} (hx : st.records[r]? = some x) :
    (st.expanded cfg top rest p r).records[r]? = some { x with span := Span.atPos st.cursor } := by
  have hlt : r < st.records.size := (Array.getElem?_eq_some_iff.mp hx).1
  rw [expanded_records, Array.getElem?_append_left (by simpa using hlt), Array.getElem?_modify,
    if_pos rfl, hx]
  rfl

/-- The members' records are fresh, one for each non-terminal of the production. -/
theorem expanded_member (j : Nat) : (st.expanded cfg top rest p r).records[st.records.size + j]? =
    p.nonTerminals[j]?.map (Instance.fresh · st.cursor) := by
  simp [Array.getElem?_append_right]
@[simp] theorem expanded_temps : (st.expanded cfg top rest p r).temps = st.temps := by
  simp [State.expanded]

end Expanded

section OneStep

variable {st st' : State α} {k : Kind} {r : Nat} {rest : List Entry} {p : Production}

theorem steps_expanded (hT : cfg.table = expressionTable) (hs : st.syms = .nonterminal k r :: rest)
    (hp : predict k st.lookahead.symbol = some p) :
    Steps cfg 1 st (st.expanded cfg (.nonterminal k r) rest p r) :=
  steps_expand hs (by rw [hT, select_expressionTable]; exact hp)

/-- Expanding consumes nothing, emits nothing, and of the old records changes only the span of
the expanded one. -/
theorem advanced_expanded {top : Entry} :
    Advanced r st.groupTable.size st (st.expanded cfg top rest p r) [] [] where
  tokens := by simp
  cursor := by simp
  input := by simp
  records i hi hne := by
    rw [expanded_records, Array.getElem?_append_left (by simpa using hi), Array.getElem?_modify,
      if_neg (Ne.symm hne)]
  recordsSize := by simp
  groupTable g hg := by simp [Array.getElem?_push_lt hg]
  groupTableSize := by simp
  code := by simp
  temps := by simp

/-- Past the end of the tokens the lookahead is the end marker, as the tokens end with one. -/
theorem cursor_lt (hends : ∀ t ∈ st.tokens.back?, t.symbol = .endOfInput)
    (h : st.lookahead.symbol ≠ .endOfInput) : st.cursor < st.tokens.size := by
  refine Nat.lt_of_not_le fun hle => h ?_
  unfold State.lookahead
  rw [Array.getElem?_eq_none (by omega)]
  cases hb : st.tokens.back? with
  | none => rfl
  | some t => exact hends t hb

/-- Before the end of the tokens the lookahead is the token at the cursor. -/
theorem getElem?_cursor (h : st.cursor < st.tokens.size) :
    st.tokens[st.cursor]? = some st.lookahead := by
  simp [State.lookahead, Array.getElem?_eq_getElem h]

/-- The token at the cursor is the lookahead. -/
theorem drop_cursor (h : st.cursor < st.tokens.size) :
    st.tokens.toList.drop st.cursor = st.lookahead :: st.tokens.toList.drop (st.cursor + 1) := by
  have hl := getElem?_cursor h
  rw [List.drop_eq_getElem_cons (by simpa using h)]
  simp_all

/-- Matching consumes the lookahead and emits nothing; it may take a group from `gs` on off the
attribute stack. -/
theorem advanced_matched {st₁ : State α} {gs : Nat} (h : st.cursor < st.tokens.size)
    (htok : st₁.tokens = st.tokens) (hcur : st₁.cursor = st.cursor + 1)
    (hrec : st₁.records = st.records)
    (hgt : st₁.groupTable = st.groupTable ∨ ∃ g, gs ≤ g ∧
      st₁.groupTable = st.groupTable.modify g fun grp => { grp with popped := true })
    (hcode : st₁.code = st.code) (htemps : st₁.temps = st.temps) :
    Advanced r gs st st₁ [st.lookahead] [] where
  tokens := htok
  cursor := by simp [hcur]
  input := by rw [drop_cursor h, hcur, List.singleton_append]
  records i _ _ := by rw [hrec]
  recordsSize := by simp [hrec]
  groupTable g hg := by
    rcases hgt with hgt | ⟨g', hg', hgt⟩
    · rw [hgt]
    · rw [hgt, Array.getElem?_modify, if_neg (by omega)]
  groupTableSize := by rcases hgt with hgt | ⟨g', _, hgt⟩ <;> simp [hgt]
  code := by simp [hcode]
  temps := by simp [htemps]

end OneStep

section Action

variable {st s₁ : State α} {id : Int} {g r gs : Nat} {grp : Group} {rest : List Entry}
  {o : Option Symbol} {a : Option (α × String)} {own : List Instr}

/-- What the state after an action holds, once its group has left the attribute stack. -/
theorem closed_facts (hsyn : Synthesized st s₁ r o a own) {x : Instance α}
    (hx : st.records[r]? = some x) :
    ∃ sp, (s₁.closed cfg grp r).records[r]? = some { x with span := sp, op := o, attr := a } := by
  refine ⟨(x.span).close s₁.cursor, ?_⟩
  simp [Array.getElem?_modify, hsyn.record x hx]

/-- Executing the action of a group that already left the attribute stack. -/
theorem action_step_popped (hs : st.syms = .action id g :: rest)
    (hg : st.groupTable[g]? = some grp) (ho : grp.owner = some r)
    (hid : 0 < grp.prod.id ∧ grp.prod.id ≤ 15) (hp : grp.popped = true)
    (hholds : st.topHolds (some r) = true)
    (hrun : (action cfg grp.prod.id grp r).run (st.popTo cfg (.action id g) rest) = (.ok (), s₁))
    (hsyn : Synthesized (st.popTo cfg (.action id g) rest) s₁ r o a own) :
    Steps cfg 1 st (s₁.closed cfg grp r) ∧ Advanced r gs st (s₁.closed cfg grp r) [] own := by
  have he : (execute cfg g).run (st.popTo cfg (.action id g) rest) = (.ok (), s₁.closed cfg grp r) :=
    run_execute (by simpa using hg) ho (fun h => absurd hp (by simp [h]))
      (by simpa [hp, State.topHolds, State.topGroup] using hholds)
      (by simpa [hp] using run_runAction hid ho hrun)
  refine ⟨steps_execute hs he (by simp [hsyn.tokens]) (by simp [hsyn.cursor])
    (by simp [hsyn.syms]), ?_⟩
  constructor
  · simp [hsyn.tokens]
  · simp [hsyn.cursor]
  · simp [hsyn.cursor]
  · intro i _ hne
    simp [Array.getElem?_modify, Ne.symm hne, hsyn.records i hne]
  · simp [hsyn.size]
  · intro g' _
    simp [hsyn.groupTable]
  · simp [hsyn.groupTable]
  · simp [hsyn.code]
  · simp [hsyn.temps]

/-- Executing the action of a group still on top of the attribute stack: the group leaves it. -/
theorem action_step_pending (hs : st.syms = .action id g :: rest)
    (hg : st.groupTable[g]? = some grp) (ho : grp.owner = some r)
    (hid : 0 < grp.prod.id ∧ grp.prod.id ≤ 15) (hp : grp.popped = false)
    (htop : st.topGroup = some g) (hgs : gs ≤ g)
    (hholds : (st.leave g).topHolds (some r) = true)
    (hrun : (action cfg grp.prod.id grp r).run ((st.popTo cfg (.action id g) rest).leave g) =
      (.ok (), s₁))
    (hsyn : Synthesized ((st.popTo cfg (.action id g) rest).leave g) s₁ r o a own) :
    Steps cfg 1 st (s₁.closed cfg grp r) ∧ Advanced r gs st (s₁.closed cfg grp r) [] own := by
  have he : (execute cfg g).run (st.popTo cfg (.action id g) rest) = (.ok (), s₁.closed cfg grp r) :=
    run_execute (by simpa using hg) ho (fun _ => by simpa [State.topGroup] using htop)
      (by simpa [hp, State.topHolds, State.topGroup, State.leave] using hholds)
      (by simpa [hp] using run_runAction hid ho hrun)
  refine ⟨steps_execute hs he (by simp [hsyn.tokens]) (by simp [hsyn.cursor])
    (by simp [hsyn.syms]), ?_⟩
  constructor
  · simp [hsyn.tokens]
  · simp [hsyn.cursor]
  · simp [hsyn.cursor]
  · intro i _ hne
    simp [Array.getElem?_modify, Ne.symm hne, hsyn.records i hne]
  · simp [hsyn.size]
  · intro g' hg'
    simp [hsyn.groupTable, Array.getElem?_modify, show g ≠ g' by omega]
  · simp [hsyn.groupTable]
  · simp [hsyn.code]
  · simp [hsyn.temps]

end Action

/-- A record stays in the group on top while the attribute stack and the old groups stay. -/
theorem topHolds_of_frame {st st' : State α} {o : Option Nat} (hg : st'.groups = st.groups)
    (ht : ∀ g, g < st.groupTable.size → st'.groupTable[g]? = st.groupTable[g]?)
    (h : st.topHolds o = true) : st'.topHolds o = true := by
  unfold State.topHolds State.topGroup at *
  rw [hg]
  cases hgs : st.groups.head? with
  | none => simp [hgs] at h
  | some e =>
    cases o with
    | none => simp [hgs] at h
    | some o =>
      simp only [hgs] at h ⊢
      cases hge : st.groupTable[e]? with
      | none => simp [hge] at h
      | some grp =>
        have he : e < st.groupTable.size := by
          rcases Array.getElem?_eq_some_iff.mp hge with ⟨he, _⟩
          exact he
        rw [ht e he, hge]
        simpa [hge] using h

/-- A record that the parse of another leaves alone. -/
theorem Finished.keeps {st st' : State α} {k : Kind} {r i : Nat} {rest : List Entry} {t : Tree k}
    {x : Instance α} (hf : Finished cfg k r rest st t st') (hi : st.records[i]? = some x)
    (hne : i ≠ r) : st'.records[i]? = some x := by
  rw [hf.records i (Array.getElem?_eq_some_iff.mp hi).1 hne, hi]

/-! ### Inside a production -/

/-- Midway through the parse of the production `p` of `k` from `st`: the production's group is
still on top of the attribute stack and pending, its owner `r` has nothing yet, the members from
`done` on are still fresh, and the tokens `toks` were consumed and the code `emitted` emitted. -/
structure Midway (cfg : Config α) (k : Kind) (r : Nat) (p : Production) (st stⱼ : State α)
    (done : Nat) (toks : List Token) (emitted : List Instr) : Prop
    extends Advanced r st.groupTable.size st stⱼ toks emitted where
  group : stⱼ.groupTable[st.groupTable.size]? =
    some ⟨p, some r, (List.range p.nonTerminals.length).map (st.records.size + ·), false⟩
  groups : stⱼ.groups = st.groupTable.size :: st.groups
  held : stⱼ.held = none
  owner : stⱼ.records[r]? = some ⟨k, Span.atPos st.cursor, none, none⟩
  ownerLt : r < st.records.size
  fresh : ∀ j kⱼ, done ≤ j → p.nonTerminals[j]? = some kⱼ →
    stⱼ.records[st.records.size + j]? = some (Instance.fresh kⱼ st.cursor)
  readable : Readable cfg toks

section Midway

variable {st stⱼ st' : State α} {k kⱼ : Kind} {r done : Nat} {p : Production}
  {rest more : List Entry} {toks : List Token} {emitted : List Instr}

/-- Expanding a production that is not ε starts it. -/
theorem midway_expanded (h : Ready k r rest st) (heps : p.isEpsilon = false) :
    Midway cfg k r p st (st.expanded cfg (.nonterminal k r) rest p r) 0 [] [] := by
  obtain ⟨sp, hr⟩ := h.record
  exact {
    toAdvanced := advanced_expanded
    group := by simp [heps]
    groups := by simp [heps]
    held := by simp [h.held]
    owner := expanded_owner hr
    ownerLt := (Array.getElem?_eq_some_iff.mp hr).1
    fresh := fun j kⱼ _ hj => by rw [expanded_member, hj]; rfl
    readable := readable_nil }

/-- The next member is ready to be parsed. -/
theorem Midway.ready (hm : Midway cfg k r p st stⱼ done toks emitted)
    (hs : stⱼ.syms = .nonterminal kⱼ (st.records.size + done) :: more)
    (hk : p.nonTerminals[done]? = some kⱼ) (h : Ready k r rest st) :
    Ready kⱼ (st.records.size + done) more stⱼ where
  syms := hs
  record := ⟨_, hm.fresh done kⱼ (Nat.le_refl _) hk⟩
  held := hm.held
  holds := by
    have hlt : done < p.nonTerminals.length := (List.getElem?_eq_some_iff.mp hk).1
    simp [State.topHolds, State.topGroup, hm.groups, hm.group, hlt]
  ends := by rw [hm.tokens]; exact h.ends
  inside := hm.toAdvanced.inside h.inside

/-- Once the next member is parsed, the production is midway past it. -/
theorem Midway.next {t : Tree kⱼ} (hm : Midway cfg k r p st stⱼ done toks emitted)
    (hf : Finished cfg kⱼ (st.records.size + done) more stⱼ t st') :
    Midway cfg k r p st st' (done + 1) (toks ++ t.tokens)
      (emitted ++ (t.gen cfg.optimize stⱼ.temps).2) := by
  have hg : st.groupTable.size < stⱼ.groupTable.size := (Array.getElem?_eq_some_iff.mp hm.group).1
  have hr := hm.ownerLt
  exact {
    toAdvanced := hm.toAdvanced.trans hf.toAdvanced (.inr (Nat.le_add_right _ _)) hm.groupTableSize
    group := by rw [hf.groupTable _ hg, hm.group]
    groups := by rw [hf.groups, hm.groups]
    held := hf.held
    owner := hf.keeps hm.owner (by omega)
    ownerLt := hr
    fresh := fun j kj hj hk => hf.keeps (hm.fresh j kj (by omega) hk) (by omega)
    readable := readable_append.mpr ⟨hm.readable, hf.readable⟩ }

/-- Matching a terminal of the production that holds no literal, while a member is still to
come: the group stays on top. -/
theorem Midway.matched {sym : Symbol} (hm : Midway cfg k r p st stⱼ done toks emitted)
    (hs : stⱼ.syms = .terminal sym :: more) (hla : stⱼ.lookahead.symbol = sym)
    (hn : sym ≠ .number) (hi : sym ≠ .identifier) (hend : sym ≠ .endOfInput)
    (hends : ∀ t ∈ st.tokens.back?, t.symbol = .endOfInput)
    (hd : stⱼ.groupDone st.groupTable.size = false) :
    ∃ st', Steps cfg 1 stⱼ st' ∧ Midway cfg k r p st st' done (toks ++ [stⱼ.lookahead]) emitted ∧
      st'.syms = more := by
  have hp := @matchedTo_of_pending _ cfg (stⱼ.popTo cfg (.terminal sym) more) stⱼ.lookahead
    st.groupTable.size (by simp [State.topGroup, hm.groups])
    ((groupDone_congr (popTo_groupTable ..) (popTo_records ..) _).trans hd)
  have hlt : stⱼ.cursor < stⱼ.tokens.size :=
    cursor_lt (by rw [hm.tokens]; exact hends) (by rw [hla]; exact hend)
  have e : Advanced r st.groupTable.size stⱼ
      ((stⱼ.popTo cfg (.terminal sym) more).matchedTo cfg stⱼ.lookahead) [stⱼ.lookahead] [] :=
    advanced_matched hlt (by simp) (by simp) (by simp) (.inl (by rw [hp.2]; simp)) (by simp)
      (by simp)
  refine ⟨_, steps_match_plain hs hla hn hi, {
    toAdvanced := by simpa using hm.toAdvanced.trans e (.inl rfl) (Nat.le_refl _)
    group := by rw [hp.2]; simpa using hm.group
    groups := by rw [hp.1]; simpa using hm.groups
    held := by simpa using hm.held
    owner := by simpa using hm.owner
    ownerLt := hm.ownerLt
    fresh := fun j kj hj hk => by simpa using hm.fresh j kj hj hk
    readable := readable_append.mpr ⟨hm.readable, readable_single (by rw [hla]; exact hn)⟩ },
    by simp⟩

/-- The action of a production whose group is still pending: the group leaves the attribute
stack, and when the action gives the owner what `t` synthesizes and emits the rest of the code
of `t`, the parse of `t` is finished. -/
theorem Midway.finish {s' : State α} {own : List Instr} (t : Tree k) (h : Ready k r rest st)
    (hm : Midway cfg k r p st stⱼ done toks emitted)
    (hs : stⱼ.syms = .action p.id st.groupTable.size :: rest) (hid : 0 < p.id ∧ p.id ≤ 15)
    (hrun : (action cfg p.id
        ⟨p, some r, (List.range p.nonTerminals.length).map (st.records.size + ·), false⟩ r).run
        ((stⱼ.popTo cfg (.action p.id st.groupTable.size) rest).leave st.groupTable.size) =
      (.ok (), s'))
    (hsyn : Synthesized ((stⱼ.popTo cfg (.action p.id st.groupTable.size) rest).leave
      st.groupTable.size) s' r t.synthOp (t.synthAttr cfg st.temps) own)
    (htok : t.tokens = toks) (hcode : (t.gen cfg.optimize st.temps).2 = emitted ++ own) :
    Steps cfg 1 stⱼ (s'.closed cfg
        ⟨p, some r, (List.range p.nonTerminals.length).map (st.records.size + ·), false⟩ r) ∧
      Finished cfg k r rest st t (s'.closed cfg
        ⟨p, some r, (List.range p.nonTerminals.length).map (st.records.size + ·), false⟩ r) := by
  have hholds : (stⱼ.leave st.groupTable.size).topHolds (some r) = true := by
    refine topHolds_of_frame (by simp [hm.groups]) (fun g hg => ?_) h.holds
    rw [leave_groupTable, Array.getElem?_modify, if_neg (by omega), hm.groupTable g hg]
  obtain ⟨h₁, e₁⟩ := action_step_pending hs hm.group rfl hid rfl
    (by simp [State.topGroup, hm.groups]) (Nat.le_refl _) hholds hrun hsyn
  refine ⟨h₁, {
    toAdvanced := ?_
    syms := by simp [hsyn.syms]
    held := by simp [hsyn.held]
    groups := by simp [hsyn.groups, hm.groups]
    record := closed_facts hsyn (by simpa using hm.owner)
    readable := htok ▸ hm.readable }⟩
  rw [htok, hcode]
  simpa using hm.toAdvanced.trans e₁ (.inl rfl) (Nat.le_refl _)

end Midway

/-! ### Once the group has left -/

/-- The production `p` of `k` from `st` has consumed `toks` and emitted `emitted`, and its group
has left the attribute stack: only its action is left above `rest`, its owner `r` has nothing
yet, and the holding area holds `lit`. -/
structure Popped (cfg : Config α) (k : Kind) (r : Nat) (p : Production) (rest : List Entry)
    (st stⱼ : State α) (toks : List Token) (emitted : List Instr) (lit : Option (Literal α)) :
    Prop extends Advanced r st.groupTable.size st stⱼ toks emitted where
  syms : stⱼ.syms = .action p.id st.groupTable.size :: rest
  group : stⱼ.groupTable[st.groupTable.size]? =
    some ⟨p, some r, (List.range p.nonTerminals.length).map (st.records.size + ·), true⟩
  groups : stⱼ.groups = st.groups
  held : stⱼ.held = lit
  owner : stⱼ.records[r]? = some ⟨k, Span.atPos st.cursor, none, none⟩
  readable : Readable cfg toks

section Popped

variable {st stⱼ : State α} {k : Kind} {r done : Nat} {p : Production} {rest : List Entry}
  {toks : List Token} {emitted : List Instr} {lit : Option (Literal α)}

/-- Expanding an ε-production pushes its action alone, with a group that never enters the
attribute stack. -/
theorem popped_expanded_epsilon (h : Ready k r rest st) (hrhs : p.rhs = [.terminal .empty]) :
    Popped cfg k r p rest st (st.expanded cfg (.nonterminal k r) rest p r) [] [] none := by
  obtain ⟨sp, hr⟩ := h.record
  have hnt : p.nonTerminals = [] := by simp [Production.nonTerminals, hrhs]
  have heps : p.isEpsilon = true := by simp [Production.isEpsilon, hrhs, GSym.isEpsilon]
  exact {
    toAdvanced := advanced_expanded
    syms := by simp [hrhs, rhsEntries]
    group := by simp [hnt, heps]
    groups := by simp [heps]
    held := by simp [h.held]
    owner := expanded_owner hr
    readable := readable_nil }

/-- Matching the production's last terminal once all its members are synthesized: the match
reads the lookahead into the holding area, and the group leaves the attribute stack. -/
theorem Midway.matched_last {sym : Symbol} (hm : Midway cfg k r p st stⱼ done toks emitted)
    (hs : stⱼ.syms = .terminal sym :: .action p.id st.groupTable.size :: rest)
    (hla : stⱼ.lookahead.symbol = sym) (hend : sym ≠ .endOfInput)
    (hends : ∀ t ∈ st.tokens.back?, t.symbol = .endOfInput)
    (hnum : sym = .number → ∃ v, cfg.arith.numeral stⱼ.lookahead.lexeme = .ok v)
    (hd : stⱼ.groupDone st.groupTable.size = true) :
    ∃ st', Steps cfg 1 stⱼ st' ∧ st'.records = stⱼ.records ∧
      Popped cfg k r p rest st st' (toks ++ [stⱼ.lookahead]) emitted
        (Literal.read cfg stⱼ.lookahead) := by
  obtain ⟨s₁, hs₁⟩ : ∃ s, s = ({ stⱼ.popTo cfg (.terminal sym)
      (.action p.id st.groupTable.size :: rest) with held := Literal.read cfg stⱼ.lookahead } :
        State α) := ⟨_, rfl⟩
  have hdone := @matchedTo_of_done _ cfg s₁ stⱼ.lookahead st.groupTable.size
    (by simp [hs₁, State.topGroup, hm.groups])
    ((groupDone_congr (by simp [hs₁]) (by simp [hs₁]) _).trans hd)
  have hlt : stⱼ.cursor < stⱼ.tokens.size :=
    cursor_lt (by rw [hm.tokens]; exact hends) (by rw [hla]; exact hend)
  have e : Advanced r st.groupTable.size stⱼ (s₁.matchedTo cfg stⱼ.lookahead) [stⱼ.lookahead] [] :=
    advanced_matched hlt (by simp [hs₁]) (by simp [hs₁]) (by simp [hs₁])
      (.inr ⟨st.groupTable.size, Nat.le_refl _, by rw [hdone.2]; simp [hs₁]⟩) (by simp [hs₁])
      (by simp [hs₁])
  refine ⟨s₁.matchedTo cfg stⱼ.lookahead, by rw [hs₁]; exact steps_match hs hla hm.held hnum,
    by simp [hs₁], {
    toAdvanced := by simpa using hm.toAdvanced.trans e (.inl rfl) (Nat.le_refl _)
    syms := by simp [hs₁]
    group := by rw [hdone.2, Array.getElem?_modify, if_pos rfl]; simp [hs₁, hm.group]
    groups := by rw [hdone.1]; simp [hs₁, hm.groups]
    held := by simp [hs₁]
    owner := by simpa [hs₁] using hm.owner
    readable := readable_append.mpr ⟨hm.readable, fun tok htok hn => ?_⟩ }⟩
  rw [List.mem_singleton] at htok
  subst htok
  exact hnum (hla ▸ hn)

/-- The action of a production whose group has left the attribute stack: when it gives the owner
what `t` synthesizes and emits the rest of the code of `t`, the parse of `t` is finished. -/
theorem Popped.finish {s' : State α} {own : List Instr} (t : Tree k) (h : Ready k r rest st)
    (hm : Popped cfg k r p rest st stⱼ toks emitted lit) (hid : 0 < p.id ∧ p.id ≤ 15)
    (hrun : (action cfg p.id
        ⟨p, some r, (List.range p.nonTerminals.length).map (st.records.size + ·), true⟩ r).run
        (stⱼ.popTo cfg (.action p.id st.groupTable.size) rest) = (.ok (), s'))
    (hsyn : Synthesized (stⱼ.popTo cfg (.action p.id st.groupTable.size) rest) s' r t.synthOp
      (t.synthAttr cfg st.temps) own)
    (htok : t.tokens = toks) (hcode : (t.gen cfg.optimize st.temps).2 = emitted ++ own) :
    Steps cfg 1 stⱼ (s'.closed cfg
        ⟨p, some r, (List.range p.nonTerminals.length).map (st.records.size + ·), true⟩ r) ∧
      Finished cfg k r rest st t (s'.closed cfg
        ⟨p, some r, (List.range p.nonTerminals.length).map (st.records.size + ·), true⟩ r) := by
  -- the owner is still in the group on top: the attribute stack is as at the start
  have hholds : stⱼ.topHolds (some r) = true := topHolds_of_frame hm.groups hm.groupTable h.holds
  obtain ⟨h₁, e₁⟩ := (action_step_popped hm.syms hm.group rfl hid rfl hholds hrun hsyn :
    _ ∧ Advanced r st.groupTable.size _ _ [] own)
  refine ⟨h₁, {
    toAdvanced := ?_
    syms := by simp [hsyn.syms]
    held := by simp [hsyn.held]
    groups := by simp [hsyn.groups, hm.groups]
    record := closed_facts hsyn (by simpa using hm.owner)
    readable := htok ▸ hm.readable }⟩
  rw [htok, hcode]
  simpa using hm.toAdvanced.trans e₁ (.inl rfl) (Nat.le_refl _)

end Popped

/-- The input left shrinks when a token is consumed. -/
theorem Advanced.cursor_lt {r gs : Nat} {st st' : State α} {toks : List Token} {c : List Instr}
    (h : Advanced r gs st st' toks c) (hne : toks ≠ []) : st.cursor < st.tokens.size := by
  have hl := congrArg List.length h.input
  simp only [List.length_drop, List.length_append, Array.length_toList] at hl
  have : 0 < toks.length := List.length_pos_iff.mpr hne
  omega

theorem Kind.rank_le (k : Kind) : k.rank ≤ 3 := by cases k <;> decide

section Measure

variable {k k' : Kind} {st st' : State α}

/-- A non-terminal of lower rank, with no less input consumed, is parsed first. -/
theorem measure_lt_rank (htok : st'.tokens = st.tokens) (hc : st.cursor ≤ st'.cursor)
    (hr : k'.rank < k.rank) : measure k' st' < measure k st := by
  unfold measure
  rw [htok]
  omega

/-- Any non-terminal is parsed after a token is consumed. -/
theorem measure_lt_consumed (htok : st'.tokens = st.tokens) (hc : st.cursor < st'.cursor)
    (hlt : st.cursor < st.tokens.size) : measure k' st' < measure k st := by
  unfold measure
  rw [htok]
  have := k'.rank_le
  omega

/-- A member is parsed after a member of lower rank or once the members before it consumed a
token. -/
theorem measure_lt_member {r gs : Nat} {toks : List Token} {c : List Instr}
    (hadv : Advanced r gs st st' toks c) (h : k'.rank < k.rank ∨ toks ≠ []) :
    measure k' st' < measure k st := by
  rcases h with hr | hne
  · exact measure_lt_rank hadv.tokens (by rw [hadv.cursor]; omega) hr
  · have := List.length_pos_iff.mpr hne
    exact measure_lt_consumed hadv.tokens (by rw [hadv.cursor]; omega) (hadv.cursor_lt hne)

end Measure

/-- The parse of a member of a production: it fails, and the production with it when the steps
so far fit its slack, or it finishes and the production goes on. -/
theorem Parses.seq {k kⱼ : Kind} {r i m : Nat} {rest more : List Entry} {st stⱼ : State α}
    (ih : Below cfg k st) (hs : Steps cfg m st stⱼ) (hready : Ready kⱼ i more stⱼ)
    (hm : measure kⱼ stⱼ < measure k st)
    (hb : m + kⱼ.failSlack + 16 * st.cursor ≤ 16 * stⱼ.cursor + k.failSlack)
    (hcont : ∀ (t : Tree kⱼ) (st' : State α), Finished cfg kⱼ i more stⱼ t st' →
      Steps cfg (m + (2 * t.nodes + t.tokens.length)) st st' → Parses cfg k r rest st) :
    Parses cfg k r rest st := by
  rcases ih _ _ _ _ hm hready with ⟨t, st', hst, hf⟩ | hfail
  · exact hcont t st' hf (hs.trans hst)
  · exact .inr (hfail.after hs hb)

/-! ### Sums and products -/

/-- A production `k ➞ k₁ k₂ k₃` whose action joins the values of `k₂` and `k₃` as `c` says, with
the operator of `k₁`, and whose trees `mk` builds; with what bounds its parse. -/
structure Combining (cfg : Config α) (k k₁ k₂ k₃ : Kind) (p : Production) (c : Combine)
    (invert : α → α) (join : α → α → α) (mk : Tree k₁ → Tree k₂ → Tree k₃ → Tree k) : Prop where
  rhs : p.rhs = [.nonterminal k₁, .nonterminal k₂, .nonterminal k₃]
  id : 0 < p.id ∧ p.id ≤ 15
  act : ∀ g o, action cfg p.id g o = (do
    let op ← operatorOf g k₁
    let i ← member g k₂
    let j ← member g k₃
    combine cfg c invert join o op i j)
  operator : k₁.isOperator = true
  operands : k₂.isOperator = false ∧ k₃.isOperator = false ∧ k.isOperator = false
  distinct : k₁ ≠ k₂ ∧ k₁ ≠ k₃ ∧ k₂ ≠ k₃
  inverse : c.keep ≠ c.inverse
  op : ∀ a : Tree k₁, a.op = c.keep ∨ a.op = c.inverse
  tokens : ∀ a b d, (mk a b d).tokens = a.tokens ++ b.tokens ++ d.tokens
  nodes : ∀ a b d, (mk a b d).nodes = a.nodes + b.nodes + d.nodes + 1
  value : ∀ a b d, (mk a b d).value cfg.arith cfg.bindings =
    join (if a.op = c.inverse then invert (b.value cfg.arith cfg.bindings)
      else b.value cfg.arith cfg.bindings) (d.value cfg.arith cfg.bindings)
  gen : ∀ a b d n, (mk a b d).gen cfg.optimize n =
    c.emit cfg.optimize a.op n (b.gen cfg.optimize n) (d.gen cfg.optimize)
  rank₁ : k₁.rank < k.rank
  rank₂ : ∀ a : Tree k₁, k₂.rank < k.rank ∨ a.tokens ≠ []
  rank₃ : ∀ b : Tree k₂, k₃.rank < k.rank ∨ b.tokens ≠ []
  slack₁ : 1 + k₁.failSlack ≤ k.failSlack
  slack₂ : ∀ a : Tree k₁,
    1 + (2 * a.nodes + a.tokens.length) + k₂.failSlack ≤ 16 * a.tokens.length + k.failSlack
  slack₃ : ∀ (a : Tree k₁) (b : Tree k₂),
    1 + (2 * a.nodes + a.tokens.length) + (2 * b.nodes + b.tokens.length) + k₃.failSlack ≤
      16 * (a.tokens.length + b.tokens.length) + k.failSlack

section Combining

variable {k k₁ k₂ k₃ : Kind} {p : Production} {c : Combine} {invert : α → α}
  {join : α → α → α} {mk : Tree k₁ → Tree k₂ → Tree k₃ → Tree k}

/-- The action of a combining production, its members synthesized: the owner gets the joined
value. -/
theorem Combining.run (hc : Combining cfg k k₁ k₂ k₃ p c invert join mk) {s : State α}
    {grp : Group} {f r : Nat} {o : Symbol} {sp₁ sp₂ sp₃ : Span} {x : Instance α} {bv dv : α}
    {bp dp : String} (hg : grp.members = (List.range 3).map (f + ·))
    (ha : s.records[f]? = some ⟨k₁, sp₁, some o, none⟩)
    (hb : s.records[f + 1]? = some ⟨k₂, sp₂, none, some (bv, bp)⟩)
    (hd : s.records[f + 2]? = some ⟨k₃, sp₃, none, some (dv, dp)⟩)
    (hr : s.records[r]? = some x) (hx : x.attr = none) (hop : o = c.keep ∨ o = c.inverse) :
    (action cfg p.id grp r).run s = (.ok (), { s with
      records := s.records.modify r fun r => { r with
        attr := some (join (if o = c.inverse then invert bv else bv) dv,
          (c.code cfg.optimize o bp dp s.temps).1) },
      code := s.code ++ (c.code cfg.optimize o bp dp s.temps).2.toArray,
      temps := s.temps + (c.code cfg.optimize o bp dp s.temps).2.length }) := by
  obtain ⟨h₁₂, h₁₃, h₂₃⟩ := hc.distinct
  have hm : grp.members = [f, f + 1, f + 2] := hg
  have hop₁ : (operatorOf grp k₁).run s = (.ok o, s) :=
    run_operatorOf (by simp [hm, ha]) ha rfl
  have hm₂ : (member grp k₂).run s = (.ok (f + 1), s) :=
    run_member (by simp [hm, ha, hb, h₁₂])
  have hm₃ : (member grp k₃).run s = (.ok (f + 2), s) :=
    run_member (by simp [hm, ha, hb, hd, h₁₃, h₂₃])
  rw [hc.act]
  simp only [run_bind, hop₁, hm₂, hm₃]
  exact run_combine hb rfl hd rfl hr hx hc.inverse hop

/-- `Expr ➞ Sign Term ExprTail` sums the signed term and the tail. -/
theorem combining_exprRule :
    Combining cfg .expr .sign .term .exprTail exprRule .sum cfg.arith.neg cfg.arith.add
      Tree.exprRule where
  rhs := rfl
  id := by decide
  act _ _ := rfl
  operator := rfl
  operands := ⟨rfl, rfl, rfl⟩
  distinct := by decide
  inverse := by decide
  op a := Tree.op_additive a (.inl rfl)
  tokens _ _ _ := by simp [Tree.tokens]
  nodes _ _ _ := rfl
  value _ _ _ := rfl
  gen _ _ _ _ := rfl
  rank₁ := by decide
  rank₂ _ := .inl (by decide)
  rank₃ _ := .inl (by decide)
  slack₁ := by decide
  slack₂ a := by
    have := Tree.nodes_le a
    simp [Kind.failSlack, Tree.nodeSlack] at this ⊢; omega
  slack₃ a b := by
    have := Tree.nodes_le a
    have := Tree.nodes_le b
    have := List.length_pos_iff.mpr (Tree.tokens_ne_nil b (.inr (.inl rfl)))
    simp [Kind.failSlack, Tree.nodeSlack] at *; omega

/-- `ExprTail ➞ AddOp Term ExprTail` sums the term, signed by the operator, and the tail. -/
theorem combining_exprTailMore :
    Combining cfg .exprTail .addOp .term .exprTail exprTailMore .sum cfg.arith.neg cfg.arith.add
      Tree.exprTailMore where
  rhs := rfl
  id := by decide
  act _ _ := rfl
  operator := rfl
  operands := ⟨rfl, rfl, rfl⟩
  distinct := by decide
  inverse := by decide
  op a := Tree.op_additive a (.inr rfl)
  tokens _ _ _ := by simp [Tree.tokens]
  nodes _ _ _ := rfl
  value _ _ _ := rfl
  gen _ _ _ _ := rfl
  rank₁ := by decide
  rank₂ a := .inr (by simp [← List.length_pos_iff, (Tree.op_shape a (.inl rfl)).1])
  rank₃ b := .inr (Tree.tokens_ne_nil b (.inr (.inl rfl)))
  slack₁ := by decide
  slack₂ a := by
    have := Tree.op_shape a (.inl rfl)
    simp [Kind.failSlack] at *; omega
  slack₃ a b := by
    have := Tree.op_shape a (.inl rfl)
    have := Tree.nodes_le b
    simp [Kind.failSlack, Tree.nodeSlack] at *; omega

/-- `TermTail ➞ MulOp Factor TermTail` multiplies the factor, inverted by `/`, and the tail. -/
theorem combining_termTailMore :
    Combining cfg .termTail .mulOp .factor .termTail termTailMore .product
      (cfg.arith.div cfg.arith.one) cfg.arith.mul Tree.termTailMore where
  rhs := rfl
  id := by decide
  act _ _ := rfl
  operator := rfl
  operands := ⟨rfl, rfl, rfl⟩
  distinct := by decide
  inverse := by decide
  op a := Tree.op_multiplicative a
  tokens _ _ _ := by simp [Tree.tokens]
  nodes _ _ _ := rfl
  value _ _ _ := rfl
  gen _ _ _ _ := rfl
  rank₁ := by decide
  rank₂ a := .inr (by simp [← List.length_pos_iff, (Tree.op_shape a (.inr rfl)).1])
  rank₃ b := .inr (Tree.tokens_ne_nil b (.inl rfl))
  slack₁ := by decide
  slack₂ a := by
    have := Tree.op_shape a (.inr rfl)
    simp [Kind.failSlack] at *; omega
  slack₃ a b := by
    have := Tree.op_shape a (.inr rfl)
    have := Tree.nodes_le b
    simp [Kind.failSlack, Tree.nodeSlack] at *; omega

end Combining

/-! ### The productions -/

section Productions

variable (hT : cfg.table = expressionTable) {st : State α} {k : Kind} {r : Nat}
  {rest : List Entry} {p : Production}
include hT

/-- An ε-production: the expansion and then the action, which gives the record what the tree
`t` synthesizes. -/
theorem parses_epsilon (t : Tree k) (h : Ready k r rest st)
    (hp : predict k st.lookahead.symbol = some p) (hrhs : p.rhs = [.terminal .empty])
    (hid : 0 < p.id ∧ p.id ≤ 15) (htok : t.tokens = []) (hnodes : t.nodes = 1)
    (hact : ∀ (s : State α) (x : Instance α), s.held = none → s.records[r]? = some x →
      x.op = none → x.attr = none → ∃ s', (action cfg p.id ⟨p, some r, [], true⟩ r).run s =
        (.ok (), s') ∧ Synthesized s s' r t.synthOp (t.synthAttr cfg st.temps)
          (t.gen cfg.optimize st.temps).2) :
    Parses cfg k r rest st := by
  have hnt : p.nonTerminals = [] := by simp [Production.nonTerminals, hrhs]
  have hmem : (List.range p.nonTerminals.length).map (st.records.size + ·) = [] := by simp [hnt]
  -- the expansion pushes only the action, with a group that is done at once
  have m₁ : Popped cfg k r p rest st (st.expanded cfg (.nonterminal k r) rest p r) [] [] none :=
    popped_expanded_epsilon h hrhs
  obtain ⟨s₂, hrun, hsyn⟩ := hact ((st.expanded cfg (.nonterminal k r) rest p r).popTo cfg
    (.action p.id st.groupTable.size) rest) _ (by rw [popTo_held]; exact m₁.held)
    (by rw [popTo_records]; exact m₁.owner) rfl rfl
  obtain ⟨h₂, f₂⟩ := m₁.finish t h hid (by rw [hmem]; exact hrun) hsyn htok (by simp)
  exact .inl ⟨t, _, by simpa [hnodes, htok] using (steps_expanded hT h.syms hp).trans h₂, f₂⟩

/-- A production of one terminal, the lookahead's: the expansion, the match, which reads the
lookahead into the holding area and takes the production's group off the attribute stack, and
the action. -/
theorem parses_leaf (t : Tree k) (h : Ready k r rest st)
    (hp : predict k st.lookahead.symbol = some p) (hrhs : p.rhs = [.terminal st.lookahead.symbol])
    (hid : 0 < p.id ∧ p.id ≤ 15) (htok : t.tokens = [st.lookahead]) (hnodes : t.nodes = 1)
    (hend : st.lookahead.symbol ≠ .endOfInput) (hne : st.lookahead.symbol ≠ .empty)
    (hnum : st.lookahead.symbol = .number → ∃ v, cfg.arith.numeral st.lookahead.lexeme = .ok v)
    (hact : ∀ (s : State α) (x : Instance α), s.held = Literal.read cfg st.lookahead →
      s.records[r]? = some x → x.op = none → x.attr = none → ∃ s',
        (action cfg p.id ⟨p, some r, [], true⟩ r).run s = (.ok (), s') ∧
        Synthesized s s' r t.synthOp (t.synthAttr cfg st.temps) (t.gen cfg.optimize st.temps).2) :
    Parses cfg k r rest st := by
  have hnt : p.nonTerminals = [] := by simp [Production.nonTerminals, hrhs]
  have hmem : (List.range p.nonTerminals.length).map (st.records.size + ·) = [] := by simp [hnt]
  have heps : p.isEpsilon = false := by simp [Production.isEpsilon, hrhs, GSym.isEpsilon, hne]
  obtain ⟨st₁, hst₁⟩ : ∃ s, s = st.expanded cfg (.nonterminal k r) rest p r := ⟨_, rfl⟩
  have h₁ : Steps cfg 1 st st₁ := hst₁ ▸ steps_expanded hT h.syms hp
  have m₁ : Midway cfg k r p st st₁ 0 [] [] := hst₁ ▸ midway_expanded h heps
  have hla₁ : st₁.lookahead = st.lookahead := by simp [hst₁]
  have hs₁ : st₁.syms = .terminal st.lookahead.symbol :: .action p.id st.groupTable.size :: rest := by
    simp [hst₁, hrhs, rhsEntries, hne]
  -- the group has no members, so the match reads the lookahead and takes the group off the
  -- attribute stack
  have hd₁ : st₁.groupDone st.groupTable.size = true := by simp [State.groupDone, m₁.group, hnt]
  obtain ⟨st₂, h₂, -, m₂⟩ := m₁.matched_last hs₁ (by rw [hla₁]) hend h.ends
    (by rw [hla₁]; exact hnum) hd₁
  rw [hla₁] at m₂
  obtain ⟨s₃, hrun, hsyn⟩ := hact (st₂.popTo cfg (.action p.id st.groupTable.size) rest) _
    (by rw [popTo_held]; exact m₂.held) (by rw [popTo_records]; exact m₂.owner) rfl rfl
  obtain ⟨h₃, f₃⟩ := m₂.finish t h hid (by rw [hmem]; exact hrun) hsyn (by simp [htok]) (by simp)
  exact .inl ⟨t, _, by simpa [hnodes, htok] using (h₁.trans h₂).trans h₃, f₃⟩

/-- `Sign ➞ AddOp`: the operator is parsed, and the sign takes its operator. -/
theorem parses_signAddOp (ih : Below cfg .sign st) (h : Ready .sign r rest st)
    (hp : predict .sign st.lookahead.symbol = some signAddOp) : Parses cfg .sign r rest st := by
  obtain ⟨st₁, hst₁⟩ : ∃ s, s = st.expanded cfg (.nonterminal .sign r) rest signAddOp r := ⟨_, rfl⟩
  have h₁ : Steps cfg 1 st st₁ := hst₁ ▸ steps_expanded hT h.syms hp
  have m₁ : Midway cfg .sign r signAddOp st st₁ 0 [] [] := hst₁ ▸ midway_expanded h rfl
  have hs₁ : st₁.syms = .nonterminal .addOp (st.records.size + 0) ::
      .action signAddOp.id st.groupTable.size :: rest := by
    simp [hst₁, signAddOp, rhsEntries]
  refine Parses.seq ih h₁ (m₁.ready hs₁ rfl h) (measure_lt_member m₁.toAdvanced (.inl (by decide)))
    (by rw [m₁.cursor]; simp only [Kind.failSlack, List.length_nil]; omega) fun a st₂ f₂ h₂ => ?_
  have m₂ := m₁.next f₂
  -- the action: the operator's record holds its operator
  obtain ⟨spa, hra⟩ := f₂.record
  obtain ⟨s, hs⟩ : ∃ s, s = (st₂.popTo cfg (.action signAddOp.id st.groupTable.size) rest).leave
      st.groupTable.size := ⟨_, rfl⟩
  have hsa : s.records[st.records.size]? = some ⟨.addOp, spa, some a.op, none⟩ := by
    simpa [hs, Tree.synthOp, Tree.synthAttr, Kind.isOperator] using hra
  have hsr : s.records[r]? = some ⟨.sign, Span.atPos st.cursor, none, none⟩ := by
    simpa [hs] using m₂.owner
  have hop : (operatorOf ⟨signAddOp, some r, [st.records.size], false⟩ .addOp).run s =
      (.ok a.op, s) := run_operatorOf (by simp [hsa]) hsa rfl
  have hrun : (action cfg signAddOp.id ⟨signAddOp, some r,
      (List.range signAddOp.nonTerminals.length).map (st.records.size + ·), false⟩ r).run s =
      (setOperator r a.op).run s := by
    show (do setOperator r (← operatorOf ⟨signAddOp, some r, [st.records.size], false⟩ .addOp)).run
      s = _
    rw [run_bind, hop]
  subst hs
  obtain ⟨h₃, f₃⟩ := m₂.finish (.signAddOp a) h f₂.syms (by simp [signAddOp])
    (hrun.trans (run_setOperator hsr rfl))
    (synthesized_setOperator hsr rfl (by simp [m₂.held])
      (by simp [Tree.synthOp, Kind.isOperator, Tree.op]) (by simp [Tree.synthAttr, Kind.isOperator])
      rfl)
    (by simp [Tree.tokens]) (by simp [Tree.gen, Tree.gen_operator a rfl])
  exact .inl ⟨_, _, (h₂.trans h₃).of_eq (by simp [Tree.nodes, Tree.tokens]; omega), f₃⟩

/-- A combining production: its three members in turn, each of which may fail, then its
action, which joins their values. -/
theorem parses_combining {k₁ k₂ k₃ : Kind} {c : Combine} {invert : α → α} {join : α → α → α}
    {mk : Tree k₁ → Tree k₂ → Tree k₃ → Tree k} (hc : Combining cfg k k₁ k₂ k₃ p c invert join mk)
    (ih : Below cfg k st) (h : Ready k r rest st) (hp : predict k st.lookahead.symbol = some p) :
    Parses cfg k r rest st := by
  have hnt : p.nonTerminals = [k₁, k₂, k₃] := by simp [Production.nonTerminals, hc.rhs]
  have heps : p.isEpsilon = false := by simp [Production.isEpsilon, hc.rhs]
  obtain ⟨st₁, hst₁⟩ : ∃ s, s = st.expanded cfg (.nonterminal k r) rest p r := ⟨_, rfl⟩
  have h₁ : Steps cfg 1 st st₁ := hst₁ ▸ steps_expanded hT h.syms hp
  have m₁ : Midway cfg k r p st st₁ 0 [] [] := hst₁ ▸ midway_expanded h heps
  have hs₁ : st₁.syms = .nonterminal k₁ (st.records.size + 0) ::
      .nonterminal k₂ (st.records.size + 1) :: .nonterminal k₃ (st.records.size + 2) ::
      .action p.id st.groupTable.size :: rest := by
    simp [hst₁, hc.rhs, rhsEntries]
  -- the operator
  refine Parses.seq ih h₁ (m₁.ready hs₁ (by simp [hnt]) h)
    (measure_lt_member m₁.toAdvanced (.inl hc.rank₁))
    (by rw [m₁.cursor]; have := hc.slack₁; simp; omega) fun a st₂ f₂ h₂ => ?_
  have m₂ := m₁.next f₂
  -- the first operand
  refine Parses.seq ih h₂ (m₂.ready f₂.syms (by simp [hnt]) h)
    (measure_lt_member m₂.toAdvanced (by simpa using hc.rank₂ a))
    (by rw [m₂.cursor]; have := hc.slack₂ a; simp; omega) fun b st₃ f₃ h₃ => ?_
  have m₃ := m₂.next f₃
  -- the rest
  refine Parses.seq ih h₃ (m₃.ready f₃.syms (by simp [hnt]) h)
    (measure_lt_member m₃.toAdvanced (by
      rcases hc.rank₃ b with hr | hr
      · exact .inl hr
      · exact .inr (by simp [hr])))
    (by rw [m₃.cursor]; have := hc.slack₃ a b; simp; omega) fun d st₄ f₄ h₄ => ?_
  have m₄ := m₃.next f₄
  -- the action: the operator emitted nothing, and the members hold what they synthesize
  have hga : a.gen cfg.optimize st₁.temps = ("", []) := Tree.gen_operator a hc.operator _ _
  have ht₂ : st₂.temps = st.temps := by simp [m₂.temps, hga]
  have ht₄ : st₄.temps = st.temps + (b.gen cfg.optimize st.temps).2.length +
      (d.gen cfg.optimize st₃.temps).2.length := by
    simp [m₄.temps, hga, ht₂, Nat.add_assoc]
  have ht₃ : st₃.temps = st.temps + (b.gen cfg.optimize st.temps).2.length := by
    simp [m₃.temps, hga, ht₂]
  obtain ⟨sp₁, ra⟩ := f₂.record
  obtain ⟨sp₂, rb⟩ := f₃.record
  obtain ⟨sp₃, rd⟩ := f₄.record
  obtain ⟨s, hs⟩ : ∃ s, s = (st₄.popTo cfg (.action p.id st.groupTable.size) rest).leave
      st.groupTable.size := ⟨_, rfl⟩
  have ha₄ : s.records[st.records.size]? = some ⟨k₁, sp₁, some a.op, none⟩ := by
    have := f₄.keeps (f₃.keeps ra (by omega)) (by omega)
    simpa [hs, Tree.synthOp, Tree.synthAttr, hc.operator] using this
  have hb₄ : s.records[st.records.size + 1]? = some ⟨k₂, sp₂, none,
      some (b.value cfg.arith cfg.bindings, (b.gen cfg.optimize st.temps).1)⟩ := by
    have := f₄.keeps rb (by omega)
    simpa [hs, Tree.synthOp, Tree.synthAttr, hc.operands.1, ht₂] using this
  have hd₄ : s.records[st.records.size + 2]? = some ⟨k₃, sp₃, none,
      some (d.value cfg.arith cfg.bindings, (d.gen cfg.optimize st₃.temps).1)⟩ := by
    simpa [hs, Tree.synthOp, Tree.synthAttr, hc.operands.2.1] using rd
  have hr₄ : s.records[r]? = some ⟨k, Span.atPos st.cursor, none, none⟩ := by
    simpa [hs] using m₄.owner
  have hrun : (action cfg p.id ⟨p, some r,
      (List.range p.nonTerminals.length).map (st.records.size + ·), false⟩ r).run s = _ :=
    hc.run (by simp [hnt]) ha₄ hb₄ hd₄ hr₄ rfl (hc.op a)
  have ho : (mk a b d).synthOp = none := by simp [Tree.synthOp, hc.operands.2.2]
  subst hs
  obtain ⟨h₅, f₅⟩ := m₄.finish (mk a b d) h f₄.syms hc.id hrun
    (synthesized_combined hr₄ rfl (by simp [m₄.held]) ho
      (by simp [Tree.synthAttr, hc.operands.2.2, hc.value, hc.gen, Combine.emit, ht₃, ht₄]))
    (by simp [hc.tokens]) (by simp [hc.gen, Combine.emit, hga, ht₂, ht₃, ht₄])
  exact .inl ⟨mk a b d, _, (h₄.trans h₅).of_eq (by simp [hc.nodes, hc.tokens]; omega), f₅⟩

/-- `Term ➞ Factor TermTail`: the factor and the tail in turn, then their product. -/
theorem parses_termRule (ih : Below cfg .term st) (h : Ready .term r rest st)
    (hp : predict .term st.lookahead.symbol = some termRule) : Parses cfg .term r rest st := by
  obtain ⟨st₁, hst₁⟩ : ∃ s, s = st.expanded cfg (.nonterminal .term r) rest termRule r := ⟨_, rfl⟩
  have h₁ : Steps cfg 1 st st₁ := hst₁ ▸ steps_expanded hT h.syms hp
  have m₁ : Midway cfg .term r termRule st st₁ 0 [] [] := hst₁ ▸ midway_expanded h rfl
  have hs₁ : st₁.syms = .nonterminal .factor (st.records.size + 0) ::
      .nonterminal .termTail (st.records.size + 1) :: .action termRule.id st.groupTable.size ::
      rest := by
    simp [hst₁, termRule, rhsEntries]
  refine Parses.seq ih h₁ (m₁.ready hs₁ rfl h) (measure_lt_member m₁.toAdvanced (.inl (by decide)))
    (by rw [m₁.cursor]; simp only [Kind.failSlack, List.length_nil]; omega)
    fun a st₂ f₂ h₂ => ?_
  have m₂ := m₁.next f₂
  refine Parses.seq ih h₂ (m₂.ready f₂.syms rfl h)
    (measure_lt_member m₂.toAdvanced (.inl (by decide))) (by
      rw [m₂.cursor]
      have := Tree.nodes_le a
      have := List.length_pos_iff.mpr (Tree.tokens_ne_nil a (.inl rfl))
      simp [Kind.failSlack, Tree.nodeSlack] at *; omega) fun b st₃ f₃ h₃ => ?_
  have m₃ := m₂.next f₃
  -- the action: the product of the factor and the tail
  have ht₁ : st₁.temps = st.temps := by simp [hst₁]
  have ht₂ : st₂.temps = st.temps + (a.gen cfg.optimize st.temps).2.length := by
    simp [m₂.temps, ht₁]
  have ht₃ : st₃.temps = st₂.temps + (b.gen cfg.optimize st₂.temps).2.length := by
    simp [m₃.temps, ht₁, ht₂, Nat.add_assoc]
  obtain ⟨sp₁, ra⟩ := f₂.record
  obtain ⟨sp₂, rb⟩ := f₃.record
  obtain ⟨s, hs⟩ : ∃ s, s = (st₃.popTo cfg (.action termRule.id st.groupTable.size) rest).leave
      st.groupTable.size := ⟨_, rfl⟩
  have ha₃ : s.records[st.records.size]? = some ⟨.factor, sp₁, none,
      some (a.value cfg.arith cfg.bindings, (a.gen cfg.optimize st.temps).1)⟩ := by
    have := f₃.keeps ra (by omega)
    simpa [hs, Tree.synthOp, Tree.synthAttr, Kind.isOperator, ht₁] using this
  have hb₃ : s.records[st.records.size + 1]? = some ⟨.termTail, sp₂, none,
      some (b.value cfg.arith cfg.bindings, (b.gen cfg.optimize st₂.temps).1)⟩ := by
    simpa [hs, Tree.synthOp, Tree.synthAttr, Kind.isOperator] using rb
  have hr₃ : s.records[r]? = some ⟨.term, Span.atPos st.cursor, none, none⟩ := by
    simpa [hs] using m₃.owner
  have hm : (List.range termRule.nonTerminals.length).map (st.records.size + ·) =
      [st.records.size, st.records.size + 1] := rfl
  have hprod : (action cfg termRule.id ⟨termRule, some r,
      (List.range termRule.nonTerminals.length).map (st.records.size + ·), false⟩ r).run s =
      (combine cfg .product (cfg.arith.div cfg.arith.one) cfg.arith.mul r .times st.records.size
        (st.records.size + 1)).run s := by
    have hm₁ : (member ⟨termRule, some r, [st.records.size, st.records.size + 1], false⟩ .factor).run
        s = (.ok st.records.size, s) := run_member (by simp [ha₃])
    have hm₂ : (member ⟨termRule, some r, [st.records.size, st.records.size + 1], false⟩
        .termTail).run s = (.ok (st.records.size + 1), s) := run_member (by simp [ha₃, hb₃])
    rw [hm]
    show (do
      let i ← member ⟨termRule, some r, _, false⟩ .factor
      let j ← member ⟨termRule, some r, _, false⟩ .termTail
      combine cfg .product (cfg.arith.div cfg.arith.one) cfg.arith.mul r .times i j).run s = _
    simp only [run_bind, hm₁, hm₂]
  have hts : (Symbol.times = Symbol.slash) = False := by simp [Symbol.times, Symbol.slash]
  subst hs
  obtain ⟨h₄, f₄⟩ := m₃.finish (Tree.termRule a b) h f₃.syms (by decide)
    (hprod.trans (run_combine ha₃ rfl hb₃ rfl hr₃ rfl (by decide) (.inl rfl)))
    (synthesized_combined hr₃ rfl (by simp [m₃.held]) (by simp [Tree.synthOp, Kind.isOperator])
      (by simp [Tree.synthAttr, Kind.isOperator, Tree.value, Tree.gen, Combine.emit, Combine.product,
        hts, ht₂, ht₃]))
    (by simp [Tree.tokens]) (by simp [Tree.gen, Combine.emit, Combine.product, ht₁, ht₂, ht₃])
  exact .inl ⟨_, _, (h₃.trans h₄).of_eq (by simp [Tree.nodes, Tree.tokens]; omega), f₄⟩

/-- `Factor ➞ ( Expr )`: the parenthesis, the expression, the closing parenthesis, which takes
the group off the attribute stack, and the action, which passes the expression's value on. -/
theorem parses_factorParens (ih : Below cfg .factor st) (h : Ready .factor r rest st)
    (hla : st.lookahead.symbol = .lparen) : Parses cfg .factor r rest st := by
  have hp : predict .factor st.lookahead.symbol = some factorParens := by rw [hla]; rfl
  obtain ⟨st₁, hst₁⟩ : ∃ s, s = st.expanded cfg (.nonterminal .factor r) rest factorParens r :=
    ⟨_, rfl⟩
  have h₁ : Steps cfg 1 st st₁ := hst₁ ▸ steps_expanded hT h.syms hp
  have m₁ : Midway cfg .factor r factorParens st st₁ 0 [] [] := hst₁ ▸ midway_expanded h rfl
  have hs₁ : st₁.syms = .terminal .lparen :: .nonterminal .expr (st.records.size + 0) ::
      .terminal .rparen :: .action factorParens.id st.groupTable.size :: rest := by
    simp [hst₁, factorParens, rhsEntries, Symbol.lparen, Symbol.rparen, Symbol.empty]
  -- the opening parenthesis: the expression is still to come, so the group stays
  have hd₁ : st₁.groupDone st.groupTable.size = false := by
    have hf := m₁.fresh 0 .expr (Nat.le_refl _) rfl
    simp only [Nat.add_zero] at hf
    simp [State.groupDone, m₁.group, hf, Instance.resolved, Instance.fresh, Kind.isOperator,
      factorParens, Production.nonTerminals]
  obtain ⟨st₂, h₂, m₂, hs₂⟩ := m₁.matched hs₁ (by simp [hst₁, hla]) (by decide) (by decide)
    (by decide) h.ends hd₁
  refine Parses.seq ih (h₁.trans h₂) (m₂.ready hs₂ rfl h)
    (measure_lt_member m₂.toAdvanced (.inr (by simp)))
    (by rw [m₂.cursor]; simp [Kind.failSlack]; omega) fun e st₃ f₃ h₃ => ?_
  have m₃ := m₂.next f₃
  -- the closing parenthesis, or a syntax error
  by_cases hrp : st₃.lookahead.symbol ≠ .rparen
  · refine .inr (Fails.after h₃ (Fails.of_stuck (Stuck.mismatch f₃.syms hrp)
    (m₃.toAdvanced.inside h.inside) : Fails cfg st₃ 0) ?_)
    have := Tree.nodes_le e
    rw [m₃.cursor]
    simp [Kind.failSlack, Tree.nodeSlack] at *; omega
  have hrp : st₃.lookahead.symbol = .rparen := Decidable.not_not.mp hrp
  have ht₂ : st₂.temps = st.temps := by simp [m₂.temps]
  obtain ⟨spe, re⟩ := f₃.record
  have hre : st₃.records[st.records.size]? = some ⟨.expr, spe, none,
      some (e.value cfg.arith cfg.bindings, (e.gen cfg.optimize st.temps).1)⟩ := by
    simpa [Tree.synthOp, Tree.synthAttr, Kind.isOperator, ht₂] using re
  have hg₃ : st₃.groupTable[st.groupTable.size]? =
      some ⟨factorParens, some r, [st.records.size], false⟩ := by
    simpa [factorParens, Production.nonTerminals] using m₃.group
  -- the closing parenthesis: the expression is done, so the group leaves the attribute stack
  have hd₃ : st₃.groupDone st.groupTable.size = true := by
    simp [State.groupDone, hg₃, hre, Instance.resolved, Kind.isOperator]
  obtain ⟨st₄, h₄, hrec₄, m₄⟩ := m₃.matched_last f₃.syms hrp (by decide) h.ends
    (fun hn => absurd hn (by decide)) hd₃
  have hread : Literal.read cfg st₃.lookahead = none := by
    simp [Literal.read, hrp, Symbol.rparen, Symbol.number, Symbol.identifier]
  -- the action passes the expression's value and place on
  obtain ⟨s, hs⟩ : ∃ s, s = st₄.popTo cfg (.action factorParens.id st.groupTable.size) rest :=
    ⟨_, rfl⟩
  have hse : s.records[st.records.size]? = some ⟨.expr, spe, none,
      some (e.value cfg.arith cfg.bindings, (e.gen cfg.optimize st.temps).1)⟩ := by
    rw [hs, popTo_records, hrec₄]; exact hre
  have hsr : s.records[r]? = some ⟨.factor, Span.atPos st.cursor, none, none⟩ := by
    rw [hs, popTo_records]; exact m₄.owner
  have hmem : (List.range factorParens.nonTerminals.length).map (st.records.size + ·) =
      [st.records.size] := rfl
  have hm : (member ⟨factorParens, some r, [st.records.size], true⟩ .expr).run s =
      (.ok st.records.size, s) := run_member (by simp [hse])
  have hrun : (action cfg factorParens.id ⟨factorParens, some r, [st.records.size], true⟩ r).run s =
      (synthesize r (e.value cfg.arith cfg.bindings) (e.gen cfg.optimize st.temps).1).run s := by
    show (do
      let vp ← operand (← member ⟨factorParens, some r, [st.records.size], true⟩ .expr)
      synthesize r vp.1 vp.2).run s = _
    simp only [run_bind, hm, run_operand hse rfl]
  have hsyn : Synthesized s { s with records := s.records.modify r fun x =>
        { x with attr := some (e.value cfg.arith cfg.bindings, (e.gen cfg.optimize st.temps).1) } }
      r (Tree.factorParens st.lookahead hla e st₃.lookahead hrp).synthOp
      ((Tree.factorParens st.lookahead hla e st₃.lookahead hrp).synthAttr cfg st.temps) [] :=
    synthesized_synthesize hsr rfl (by rw [hs, popTo_held, m₄.held, hread])
      (by simp [Tree.synthOp, Kind.isOperator])
      (by simp [Tree.synthAttr, Kind.isOperator, Tree.value, Tree.gen])
  subst hs
  obtain ⟨h₅, f₅⟩ := m₄.finish (.factorParens st.lookahead hla e st₃.lookahead hrp) h
    (by simp [factorParens]) (by rw [hmem]; exact hrun.trans (run_synthesize hsr rfl)) hsyn
    (by simp [Tree.tokens, hst₁]) (by simp [Tree.gen, ht₂])
  exact .inl ⟨_, _, ((h₃.trans h₄).trans h₅).of_eq (by simp [Tree.nodes, Tree.tokens]; omega), f₅⟩

/-- A production of one operator token: its action sets the operator the tree stands for. -/
theorem parses_operator (t : Tree k) (hk : k.isOperator = true) (h : Ready k r rest st)
    (hp : predict k st.lookahead.symbol = some p) (hrhs : p.rhs = [.terminal st.lookahead.symbol])
    (hid : 0 < p.id ∧ p.id ≤ 15) (htok : t.tokens = [st.lookahead]) (hnodes : t.nodes = 1)
    (hs : st.lookahead.symbol ≠ .number ∧ st.lookahead.symbol ≠ .identifier ∧
      st.lookahead.symbol ≠ .endOfInput ∧ st.lookahead.symbol ≠ .empty)
    (hact : ∀ g o, action cfg p.id g o = setOperator o t.op) : Parses cfg k r rest st :=
  parses_leaf hT t h hp hrhs hid htok hnodes hs.2.2.1 hs.2.2.2 (fun hn => absurd hn hs.1)
    fun s x hh hr hop hattr => ⟨_, by rw [hact]; exact run_setOperator hr hop,
      synthesized_setOperator hr hattr (by simp [hh, Literal.read, hs.1, hs.2.1])
        (by simp [Tree.synthOp, hk]) (by simp [Tree.synthAttr, hk])
        (by simp [Tree.gen_operator t hk])⟩

/-- The lookahead selects no production: the expansion is a syntax error. -/
theorem parses_none (h : Ready k r rest st) (hp : predict k st.lookahead.symbol = none) :
    Parses cfg k r rest st :=
  .inr (Fails.of_stuck (Stuck.noProduction h.syms (by rw [hT, select_expressionTable]; exact hp))
    h.inside)

theorem parses_addOp (h : Ready .addOp r rest st) : Parses cfg .addOp r rest st := by
  by_cases hp : st.lookahead.symbol = .plus
  · exact parses_operator hT (.addOpPlus _ hp) rfl h (show _ = some addOpPlus by rw [hp]; rfl)
      (by rw [hp]; rfl) (by decide) rfl rfl (by simp [hp]; decide) fun _ _ => rfl
  by_cases hm : st.lookahead.symbol = .minus
  · exact parses_operator hT (.addOpMinus _ hm) rfl h (show _ = some addOpMinus by rw [hm]; rfl)
      (by rw [hm]; rfl) (by decide) rfl rfl (by simp [hm]; decide) fun _ _ => rfl
  exact parses_none hT h (by simp [predict, hp, hm])

theorem parses_mulOp (h : Ready .mulOp r rest st) : Parses cfg .mulOp r rest st := by
  by_cases ht : st.lookahead.symbol = .times
  · exact parses_operator hT (.mulOpTimes _ ht) rfl h (show _ = some mulOpTimes by rw [ht]; rfl)
      (by rw [ht]; rfl) (by decide) rfl rfl (by simp [ht]; decide) fun _ _ => rfl
  by_cases hs : st.lookahead.symbol = .slash
  · exact parses_operator hT (.mulOpSlash _ hs) rfl h (show _ = some mulOpSlash by rw [hs]; rfl)
      (by rw [hs]; rfl) (by decide) rfl rfl (by simp [hs]; decide) fun _ _ => rfl
  exact parses_none hT h (by simp [predict, ht, hs])

theorem parses_sign (ih : Below cfg .sign st) (h : Ready .sign r rest st) :
    Parses cfg .sign r rest st := by
  by_cases h₁ : st.lookahead.symbol = .plus ∨ st.lookahead.symbol = .minus
  · exact parses_signAddOp hT ih h (by simp [predict, h₁])
  by_cases h₂ : st.lookahead.symbol = .lparen ∨ st.lookahead.symbol = .number ∨
      st.lookahead.symbol = .identifier
  · exact parses_epsilon hT .signNone h (show _ = some signNone by simp [predict, h₁, h₂]) rfl
      (by decide) rfl rfl fun s x hh hr hop hattr =>
        ⟨_, run_setOperator hr hop, synthesized_setOperator hr hattr hh rfl rfl rfl⟩
  exact parses_none hT h (by simp [predict, h₁, h₂])

theorem parses_exprTail (ih : Below cfg .exprTail st) (h : Ready .exprTail r rest st) :
    Parses cfg .exprTail r rest st := by
  by_cases h₁ : st.lookahead.symbol = .plus ∨ st.lookahead.symbol = .minus
  · exact parses_combining hT combining_exprTailMore ih h (by simp [predict, h₁])
  by_cases h₂ : st.lookahead.symbol = .rparen ∨ st.lookahead.symbol = .endOfInput
  · exact parses_epsilon hT .exprTailEnd h (show _ = some exprTailEnd by simp [predict, h₁, h₂])
      rfl (by decide) rfl rfl fun s x hh hr hop hattr =>
        ⟨_, run_synthesize hr hattr, synthesized_synthesize hr hop hh rfl rfl⟩
  exact parses_none hT h (by simp [predict, h₁, h₂])

theorem parses_termTail (ih : Below cfg .termTail st) (h : Ready .termTail r rest st) :
    Parses cfg .termTail r rest st := by
  by_cases h₁ : st.lookahead.symbol = .times ∨ st.lookahead.symbol = .slash
  · exact parses_combining hT combining_termTailMore ih h (by simp [predict, h₁])
  by_cases h₂ : st.lookahead.symbol = .plus ∨ st.lookahead.symbol = .minus ∨
      st.lookahead.symbol = .rparen ∨ st.lookahead.symbol = .endOfInput
  · exact parses_epsilon hT .termTailEnd h (show _ = some termTailEnd by simp [predict, h₁, h₂])
      rfl (by decide) rfl rfl fun s x hh hr hop hattr =>
        ⟨_, run_synthesize hr hattr, synthesized_synthesize hr hop hh rfl rfl⟩
  exact parses_none hT h (by simp [predict, h₁, h₂])

theorem parses_expr (ih : Below cfg .expr st) (h : Ready .expr r rest st) :
    Parses cfg .expr r rest st := by
  by_cases h₁ : st.lookahead.symbol = .plus ∨ st.lookahead.symbol = .minus ∨
      st.lookahead.symbol = .lparen ∨ st.lookahead.symbol = .number ∨
      st.lookahead.symbol = .identifier
  · exact parses_combining hT combining_exprRule ih h (by simp [predict, h₁])
  exact parses_none hT h (by simp [predict, h₁])

theorem parses_term (ih : Below cfg .term st) (h : Ready .term r rest st) :
    Parses cfg .term r rest st := by
  by_cases h₁ : st.lookahead.symbol = .lparen ∨ st.lookahead.symbol = .number ∨
      st.lookahead.symbol = .identifier
  · exact parses_termRule hT ih h (by simp [predict, h₁])
  exact parses_none hT h (by simp [predict, h₁])

theorem parses_factor (ih : Below cfg .factor st) (h : Ready .factor r rest st) :
    Parses cfg .factor r rest st := by
  by_cases hn : st.lookahead.symbol = .number
  · have hp : predict .factor st.lookahead.symbol = some factorNumber := by rw [hn]; rfl
    cases hv : cfg.arith.numeral st.lookahead.lexeme with
    | ok v =>
      have hread : Literal.read cfg st.lookahead = some ⟨.number, st.lookahead.lexeme, v⟩ := by
        simp [Literal.read, hn, hv]
      exact parses_leaf hT (.factorNumber _ hn) h hp (by rw [hn]; rfl) (by decide) rfl rfl
        (by rw [hn]; decide) (by rw [hn]; decide) (fun _ => ⟨v, hv⟩) fun s x hh hr hop hattr =>
          ⟨_, run_literal (hh.trans hread) rfl hr hattr, synthesized_taken hr hop rfl
            (by simp [Tree.synthAttr, Kind.isOperator, Tree.value, Tree.numeralValue, hv, Tree.gen])⟩
    | error e =>
      -- the number is expanded, and its match refuses the numeral
      have hs : (st.expanded cfg (.nonterminal .factor r) rest factorNumber r).syms =
          .terminal .number :: .action factorNumber.id st.groupTable.size :: rest := by
        simp [factorNumber, rhsEntries, Symbol.number, Symbol.empty]
      exact .inr (Fails.after (steps_expanded hT h.syms hp)
        (Fails.of_stuck (Stuck.refused hs (by simpa using hn) (by simp [h.held])
          (by simpa using hv)) (by simpa using h.inside) : Fails cfg _ 0) (by simp only [expanded_cursor, Kind.failSlack]; omega))
  by_cases hl : st.lookahead.symbol = .lparen
  · exact parses_factorParens hT ih h hl
  by_cases hi : st.lookahead.symbol = .identifier
  · have hread : Literal.read cfg st.lookahead =
        some ⟨.identifier, st.lookahead.lexeme,
          Tree.nameValue cfg.arith cfg.bindings st.lookahead.lexeme⟩ := by
      simp [Literal.read, hi, Symbol.identifier, Symbol.number]
    exact parses_leaf hT (.factorIdentifier _ hi) h (show _ = some factorIdentifier by rw [hi]; rfl)
      (by rw [hi]; rfl) (by decide) rfl rfl (by rw [hi]; decide) (by rw [hi]; decide)
      (fun h => absurd h hn) fun s x hh hr hop hattr =>
        ⟨_, run_literal (hh.trans hread) rfl hr hattr, synthesized_taken hr hop rfl
          (by simp [Tree.synthAttr, Kind.isOperator, Tree.value, Tree.gen])⟩
  exact parses_none hT h (by simp [predict, hn, hl, hi])

/-- One non-terminal, the parses of smaller measure given. -/
theorem parses_of_below (ih : Below cfg k st) (h : Ready k r rest st) : Parses cfg k r rest st := by
  cases k with
  | expr => exact parses_expr hT ih h
  | sign => exact parses_sign hT ih h
  | exprTail => exact parses_exprTail hT ih h
  | term => exact parses_term hT ih h
  | termTail => exact parses_termTail hT ih h
  | factor => exact parses_factor hT ih h
  | addOp => exact parses_addOp hT h
  | mulOp => exact parses_mulOp hT h

end Productions

/-- **The parse of a non-terminal.** From a ready state the translator parses a tree of the
non-terminal, in two steps a node and one a token, or fails with a syntax error or a refused
numeral, in at most sixteen steps a consumed token and the slack of the kind. -/
theorem parses (hT : cfg.table = expressionTable) {k : Kind} {r : Nat} {rest : List Entry}
    {st : State α} (h : Ready k r rest st) : Parses cfg k r rest st := by
  -- strong induction on the measure: the input left and the rank of the kind
  suffices hn : ∀ n (k : Kind) r rest (st : State α), measure k st = n → Ready k r rest st →
      Parses cfg k r rest st from hn _ k r rest st rfl h
  intro n
  induction n using Nat.strongRecOn with
  | ind n ih =>
    intro k r rest st hn h
    exact parses_of_below hT (fun k' r' rest' st' hlt h' => ih _ (hn ▸ hlt) k' r' rest' st' rfl h') h

end ExprTranslate
