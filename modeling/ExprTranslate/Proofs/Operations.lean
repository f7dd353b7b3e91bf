import ExprTranslate.Proofs.Tree
import ExprTranslate.Proofs.Steps
/-!
# What the translator's operations do

One equation for each operation of the translator that the semantic actions and the parser
call, under the conditions in which the expression grammar calls it: the result it returns
and the state it leaves. Later proofs use these equations and never unfold the operations.

* the attribute records and groups: `getRecord`, `getGroup`, `member`, `operatorOf`,
  `operand`, `setOperator`, `synthesize`;
* the holding area: `hold` of a number or an identifier, and `take`;
* the code: `emit`, and `combine`, which sums and products share: its code is
  `Combine.code`.
-/

namespace ExprTranslate

open Run

variable {α : Type} {cfg : Config α} {st : State α}

section Records

variable {i : Nat} {r : Instance α}

theorem run_getRecord (h : st.records[i]? = some r) : (getRecord i).run st = (.ok r, st) := by
  simp [getRecord, h]

theorem run_getGroup {g : Nat} {grp : Group} (h : st.groupTable[g]? = some grp) :
    (getGroup g).run st = (.ok grp, st) := by
  simp [getGroup, h]

theorem run_member {g : Group} {k : Kind}
    (h : g.members.find? (fun i => (st.records[i]?.map (·.kind)) = some k) = some i) :
    (member g k).run st = (.ok i, st) := by
  simp only [member, run_bind, run_get, h, run_pure]

theorem run_operatorOf {g : Group} {k : Kind} {o : Symbol}
    (hm : g.members.find? (fun i => (st.records[i]?.map (·.kind)) = some k) = some i)
    (hr : st.records[i]? = some r) (ho : r.op = some o) :
    (operatorOf g k).run st = (.ok o, st) := by
  simp [operatorOf, run_member hm, run_getRecord hr, ho]

theorem run_operand {a : α × String} (hr : st.records[i]? = some r) (ha : r.attr = some a) :
    (operand i).run st = (.ok a, st) := by
  simp [operand, run_getRecord hr, ha]

theorem run_setOperator {o : Symbol} (hr : st.records[i]? = some r) (ho : r.op = none) :
    (setOperator i o).run st =
      (.ok (), { st with records := st.records.modify i fun r => { r with op := some o } }) := by
  simp [setOperator, run_getRecord hr, ho, modifyRecord]

theorem run_synthesize {v : α} {p : String} (hr : st.records[i]? = some r) (ha : r.attr = none) :
    (synthesize i v p).run st =
      (.ok (), { st with records := st.records.modify i fun r => { r with attr := some (v, p) } }) := by
  simp [synthesize, run_getRecord hr, ha, modifyRecord]

end Records

/-! ### The holding area -/

section Holding

variable {tok : Token} {pos : Nat}

theorem run_hold_number {v : α} (hh : st.held = none) (hs : tok.symbol = .number)
    (hv : cfg.arith.numeral tok.lexeme = .ok v) :
    (hold cfg tok pos).run st = (.ok (), { st with held := some ⟨.number, tok.lexeme, v⟩ }) := by
  simp [hold, hh, hs, hv]

theorem run_hold_refused {e : Double.ReadError} (hh : st.held = none) (hs : tok.symbol = .number)
    (he : cfg.arith.numeral tok.lexeme = .error e) :
    (hold cfg tok pos).run st = (.error (.numeral tok.line pos tok.lexeme e), st) := by
  simp [hold, hh, hs, he]

theorem run_hold_identifier (hh : st.held = none) (hs : tok.symbol = .identifier) :
    (hold cfg tok pos).run st =
      (.ok (), { st with held := some ⟨.identifier, tok.lexeme,
        Tree.nameValue cfg.arith cfg.bindings tok.lexeme⟩ }) := by
  simp +decide [hold, hh, hs, Tree.nameValue]

theorem run_take {lit : Literal α} {sym : Symbol} (hh : st.held = some lit) (hs : lit.sym = sym) :
    (take sym).run st = (.ok lit, { st with held := none }) := by
  simp [take, hh, hs]

end Holding

/-! ### Emitting code -/

theorem run_emit {op : Char} {left right : String} :
    (emit op left right).run st =
      (.ok (temporary (st.temps + 1)),
        { st with temps := st.temps + 1,
                  code := st.code.push ⟨op, left, right, temporary (st.temps + 1)⟩ }) := rfl

/-- A sum or a product, its operands synthesized and its owner not yet: the owner gets the
joined value and the place `Combine.code` gives, and the code of `Combine.code` is emitted. -/
theorem run_combine {c : Combine} {invert : α → α} {join : α → α → α} {owner first rest : Nat}
    {op : Symbol} {rf rh ro : Instance α} {fv hv : α} {fp hp : String}
    (hf : st.records[first]? = some rf) (hfa : rf.attr = some (fv, fp))
    (hr : st.records[rest]? = some rh) (hra : rh.attr = some (hv, hp))
    (ho : st.records[owner]? = some ro) (hoa : ro.attr = none)
    (hc : c.keep ≠ c.inverse) (hop : op = c.keep ∨ op = c.inverse) :
    (combine cfg c invert join owner op first rest).run st =
      (.ok (), { st with
        records := st.records.modify owner fun r => { r with
          attr := some (join (if op = c.inverse then invert fv else fv) hv,
            (c.code cfg.optimize op fp hp st.temps).1) },
        code := st.code ++ (c.code cfg.optimize op fp hp st.temps).2.toArray,
        temps := st.temps + (c.code cfg.optimize op fp hp st.temps).2.length }) := by
  have hfirst := run_operand hf hfa
  have hrest := run_operand hr hra
  -- whether the join is emitted, and whether `op` keeps or inverts the first operand
  by_cases hj : cfg.optimize = false ∨ hp ≠ c.identity
  · rcases hop with rfl | rfl
    · simp [combine, hfirst, hrest, hj, run_emit, Combine.code, hc, synthesize, getRecord, ho,
        hoa, modifyRecord]
    · simp [combine, hfirst, hrest, hj, run_emit, Combine.code, Ne.symm hc, synthesize,
        getRecord, ho, hoa, modifyRecord]
      -- the inversion and the join, pushed one after the other
      rfl
  · rcases hop with rfl | rfl
    · simp [combine, hfirst, hrest, hj, Combine.code, hc, synthesize, getRecord, ho, hoa,
        modifyRecord]
    · simp [combine, hfirst, hrest, hj, run_emit, Combine.code, Ne.symm hc, synthesize,
        getRecord, ho, hoa, modifyRecord]

/-! ### The parser's steps -/

/-- The state once group `g`, on top of the attribute stack, has left it. -/
def State.leave (st : State α) (g : Nat) : State α :=
  { st with groups := st.groups.drop 1,
            groupTable := st.groupTable.modify g fun grp => { grp with popped := true } }

/-- The state once the lookahead `la` is matched, the holding area as it is in `st`: the match
is noted, the cursor moves on, and the group on top leaves the attribute stack if all its
members are synthesized. -/
def State.matchedTo (cfg : Config α) (st : State α) (la : Token) : State α :=
  let s : State α := st.noted cfg fun _ => .matched la
  let s : State α := { s with cursor := s.cursor + 1 }
  match s.topGroup.filter s.groupDone with
  | some g => s.leave g
  | none => s

/-- The state once the action of `grp` has run for its owner `o`: the owner's span is closed at
the cursor and the action noted. -/
def State.closed (cfg : Config α) (st : State α) (grp : Group) (o : Nat) : State α :=
  ({ st with records := st.records.modify o fun r => { r with span := r.span.close st.cursor } } :
    State α).noted cfg fun s => s.actionEvent grp o

section Fields

variable {p : Production} {i c g : Nat} {la : Token} {grp : Group} {o : Nat}

@[simp] theorem leave_tokens : (st.leave g).tokens = st.tokens := rfl
@[simp] theorem leave_cursor : (st.leave g).cursor = st.cursor := rfl
@[simp] theorem leave_syms : (st.leave g).syms = st.syms := rfl
@[simp] theorem leave_groups : (st.leave g).groups = st.groups.drop 1 := rfl
@[simp] theorem leave_groupTable :
    (st.leave g).groupTable = st.groupTable.modify g fun grp => { grp with popped := true } := rfl
@[simp] theorem leave_records : (st.leave g).records = st.records := rfl
@[simp] theorem leave_held : (st.leave g).held = st.held := rfl
@[simp] theorem leave_code : (st.leave g).code = st.code := rfl
@[simp] theorem leave_temps : (st.leave g).temps = st.temps := rfl

@[simp] theorem expandBy_tokens : (st.expandBy p i c).tokens = st.tokens := rfl
@[simp] theorem expandBy_cursor : (st.expandBy p i c).cursor = st.cursor := rfl
@[simp] theorem expandBy_syms : (st.expandBy p i c).syms =
    rhsEntries p.rhs st.records.size ++ .action p.id st.groupTable.size :: st.syms := rfl
@[simp] theorem expandBy_groups : (st.expandBy p i c).groups =
    if p.isEpsilon then st.groups else st.groupTable.size :: st.groups := rfl
@[simp] theorem expandBy_groupTable : (st.expandBy p i c).groupTable = st.groupTable.push
    { prod := p, owner := some i, popped := p.isEpsilon,
      members := (List.range p.nonTerminals.length).map (st.records.size + ·) } := rfl
@[simp] theorem expandBy_records : (st.expandBy p i c).records =
    (st.records.modify i fun r => { r with span := Span.atPos c }) ++
      (p.nonTerminals.map (Instance.fresh · c)).toArray := by
  -- pushing the fresh records one by one appends them
  have push : ∀ (ks : List Kind) (rs : Array (Instance α)),
      ks.foldl (fun rs k => rs.push (Instance.fresh k c)) rs =
        rs ++ (ks.map (Instance.fresh · c)).toArray := by
    intro ks
    induction ks with
    | nil => simp
    | cons k ks ih => intro rs; simp [ih]
  exact push _ _
@[simp] theorem expandBy_held : (st.expandBy p i c).held = st.held := rfl
@[simp] theorem expandBy_code : (st.expandBy p i c).code = st.code := rfl
@[simp] theorem expandBy_temps : (st.expandBy p i c).temps = st.temps := rfl

-- Matching leaves the records, the code and the symbols as they are, whether or not a group
-- leaves the attribute stack.
@[simp] theorem matchedTo_tokens : (st.matchedTo cfg la).tokens = st.tokens := by
  simp only [State.matchedTo]; split <;> simp
@[simp] theorem matchedTo_cursor : (st.matchedTo cfg la).cursor = st.cursor + 1 := by
  simp only [State.matchedTo]; split <;> simp
@[simp] theorem matchedTo_syms : (st.matchedTo cfg la).syms = st.syms := by
  simp only [State.matchedTo]; split <;> simp
@[simp] theorem matchedTo_records : (st.matchedTo cfg la).records = st.records := by
  simp only [State.matchedTo]; split <;> simp
@[simp] theorem matchedTo_held : (st.matchedTo cfg la).held = st.held := by
  simp only [State.matchedTo]; split <;> simp
@[simp] theorem matchedTo_code : (st.matchedTo cfg la).code = st.code := by
  simp only [State.matchedTo]; split <;> simp
@[simp] theorem matchedTo_temps : (st.matchedTo cfg la).temps = st.temps := by
  simp only [State.matchedTo]; split <;> simp

@[simp] theorem closed_tokens : (st.closed cfg grp o).tokens = st.tokens := by simp [State.closed]
@[simp] theorem closed_cursor : (st.closed cfg grp o).cursor = st.cursor := by simp [State.closed]
@[simp] theorem closed_syms : (st.closed cfg grp o).syms = st.syms := by simp [State.closed]
@[simp] theorem closed_groups : (st.closed cfg grp o).groups = st.groups := by simp [State.closed]
@[simp] theorem closed_groupTable : (st.closed cfg grp o).groupTable = st.groupTable := by
  simp [State.closed]
@[simp] theorem closed_records : (st.closed cfg grp o).records =
    st.records.modify o fun r => { r with span := r.span.close st.cursor } := by
  simp [State.closed]
@[simp] theorem closed_held : (st.closed cfg grp o).held = st.held := by simp [State.closed]
@[simp] theorem closed_code : (st.closed cfg grp o).code = st.code := by simp [State.closed]
@[simp] theorem closed_temps : (st.closed cfg grp o).temps = st.temps := by simp [State.closed]

end Fields

theorem run_popGroup {g : Nat} : (popGroup g).run st = (.ok (), st.leave g) := rfl

/-- Whether a group is done depends on the group table and the records only. -/
theorem groupDone_congr {st' : State α} (ht : st'.groupTable = st.groupTable)
    (hr : st'.records = st.records) (g : Nat) : st'.groupDone g = st.groupDone g := by
  simp [State.groupDone, ht, hr]

theorem matchedTo_of_done {la : Token} {g : Nat} (ht : st.topGroup = some g)
    (hd : st.groupDone g = true) :
    (st.matchedTo cfg la).groups = st.groups.drop 1 ∧
      (st.matchedTo cfg la).groupTable =
        st.groupTable.modify g fun grp => { grp with popped := true } := by
  have hd' : ∀ s : State α, s.groupTable = st.groupTable → s.records = st.records →
      s.groupDone g = true := fun s h1 h2 => (groupDone_congr h1 h2 g).trans hd
  simp only [State.matchedTo, State.topGroup] at ht ⊢
  rw [noted_groups, ht, Option.filter_some, if_pos (hd' _ (by simp) (by simp))]
  simp

theorem matchedTo_of_pending {la : Token} {g : Nat} (ht : st.topGroup = some g)
    (hd : st.groupDone g = false) :
    (st.matchedTo cfg la).groups = st.groups ∧
      (st.matchedTo cfg la).groupTable = st.groupTable := by
  have hd' : ∀ s : State α, s.groupTable = st.groupTable → s.records = st.records →
      ¬ s.groupDone g = true := fun s h1 h2 => by simp [groupDone_congr h1 h2, hd]
  simp only [State.matchedTo, State.topGroup] at ht ⊢
  rw [noted_groups, ht, Option.filter_some, if_neg (hd' _ (by simp) (by simp))]
  simp

section StepLemmas

variable {rest : List Entry}

theorem steps_expand {k : Kind} {r : Nat} {p : Production} (hs : st.syms = .nonterminal k r :: rest)
    (hp : cfg.table.select k.code st.lookahead.symbol = some p) :
    Steps cfg 1 st (((st.popTo cfg (.nonterminal k r) rest).noted cfg fun _ => .chosen p).expandBy
      p r st.cursor) := by
  refine Steps.single ?_ (.expanded hs hp ?_ ?_ ?_)
  · rw [run_step_nonterminal hs]
    simp [expand, hp]
  all_goals simp

/-- Matching a terminal that equals the lookahead: whatever holding the lookahead leaves, the
match is noted, the cursor moves on and a done group leaves the attribute stack. -/
theorem run_matchTerminal_of {s : Symbol} {st' : State α} (hla : st.lookahead.symbol = s)
    (hh : (if s = .number ∨ s = .identifier then hold cfg st.lookahead st.cursor else pure ()).run st =
      (.ok (), st')) :
    (matchTerminal cfg s).run st = (.ok (), st'.matchedTo cfg st.lookahead) := by
  by_cases hc : s = .number ∨ s = .identifier
  case' pos =>
    rw [if_pos hc] at hh
    simp only [matchTerminal, run_bind, run_map, run_get, hla, ne_eq, not_true_eq_false, if_false,
      if_pos hc, hh, run_note, run_modify, State.matchedTo]
  case' neg =>
    rw [if_neg hc, run_pure, Prod.mk.injEq] at hh
    obtain ⟨-, rfl⟩ := hh
    simp only [matchTerminal, run_bind, run_map, run_get, hla, ne_eq, not_true_eq_false, if_false,
      if_neg hc, run_note, run_modify, State.matchedTo]
  -- either way the match is noted, and whether the group on top is done decides whether it
  -- leaves the attribute stack
  all_goals
    split
    · rename_i hg
      simp only [noted_tokens, noted_cursor, noted_steps, noted_syms, noted_groups, noted_records,
        noted_groupTable, noted_held, noted_code, noted_temps] at hg
      simp [hg, popGroup, State.leave]
    · rename_i hg
      simp only [noted_tokens, noted_cursor, noted_steps, noted_syms, noted_groups, noted_records,
        noted_groupTable, noted_held, noted_code, noted_temps] at hg
      simp [Option.eq_none_iff_forall_ne_some.mpr hg]

theorem run_matchTerminal_plain {s : Symbol} (hla : st.lookahead.symbol = s) (hn : s ≠ .number)
    (hi : s ≠ .identifier) :
    (matchTerminal cfg s).run st = (.ok (), st.matchedTo cfg st.lookahead) :=
  run_matchTerminal_of hla (by simp [hn, hi])

theorem run_matchTerminal_number {v : α} (hla : st.lookahead.symbol = .number)
    (hh : st.held = none) (hv : cfg.arith.numeral st.lookahead.lexeme = .ok v) :
    (matchTerminal cfg .number).run st =
      (.ok (), ({ st with held := some ⟨.number, st.lookahead.lexeme, v⟩ } : State α).matchedTo
        cfg st.lookahead) :=
  run_matchTerminal_of hla (by simp [run_hold_number hh hla hv])

theorem run_matchTerminal_identifier (hla : st.lookahead.symbol = .identifier)
    (hh : st.held = none) :
    (matchTerminal cfg .identifier).run st =
      (.ok (), ({ st with held := some ⟨.identifier, st.lookahead.lexeme,
        Tree.nameValue cfg.arith cfg.bindings st.lookahead.lexeme⟩ } : State α).matchedTo
        cfg st.lookahead) :=
  run_matchTerminal_of hla (by simp [run_hold_identifier hh hla])

/-- What the holding area holds once a token is matched: a number's value if the arithmetic
reads it, an identifier's binding, or nothing. -/
def Literal.read (cfg : Config α) (tok : Token) : Option (Literal α) :=
  if tok.symbol = .number then
    match cfg.arith.numeral tok.lexeme with
    | .ok v => some ⟨.number, tok.lexeme, v⟩
    | .error _ => none
  else if tok.symbol = .identifier then
    some ⟨.identifier, tok.lexeme, Tree.nameValue cfg.arith cfg.bindings tok.lexeme⟩
  else none

theorem with_held_none (h : st.held = none) : ({ st with held := none } : State α) = st := by
  cases st; simp_all

theorem steps_match_plain {s : Symbol} (hs : st.syms = .terminal s :: rest)
    (hla : st.lookahead.symbol = s) (hn : s ≠ .number) (hi : s ≠ .identifier) :
    Steps cfg 1 st ((st.popTo cfg (.terminal s) rest).matchedTo cfg st.lookahead) := by
  refine Steps.single ?_ (.matched hs hla (fun h => absurd h hn) (by simp) (by simp) (by simp))
  rw [run_step_terminal hs, run_matchTerminal_plain (by simpa using hla) hn hi, popTo_lookahead]

theorem steps_match_number {v : α} (hs : st.syms = .terminal .number :: rest)
    (hla : st.lookahead.symbol = .number) (hh : st.held = none)
    (hv : cfg.arith.numeral st.lookahead.lexeme = .ok v) :
    Steps cfg 1 st (({ st.popTo cfg (.terminal .number) rest with
      held := some ⟨.number, st.lookahead.lexeme, v⟩ } : State α).matchedTo cfg st.lookahead) := by
  refine Steps.single ?_ (.matched hs hla (fun _ => ⟨v, hv⟩) (by simp) (by simp) (by simp))
  rw [run_step_terminal hs, run_matchTerminal_number (by simpa using hla) (by simpa using hh)
    (by simpa using hv), popTo_lookahead]

theorem steps_match_identifier (hs : st.syms = .terminal .identifier :: rest)
    (hla : st.lookahead.symbol = .identifier) (hh : st.held = none) :
    Steps cfg 1 st (({ st.popTo cfg (.terminal .identifier) rest with
      held := some ⟨.identifier, st.lookahead.lexeme,
        Tree.nameValue cfg.arith cfg.bindings st.lookahead.lexeme⟩ } : State α).matchedTo
      cfg st.lookahead) := by
  refine Steps.single ?_ (.matched hs hla (by simp [Symbol.identifier, Symbol.number]) (by simp)
    (by simp) (by simp))
  rw [run_step_terminal hs, run_matchTerminal_identifier (by simpa using hla) (by simpa using hh),
    popTo_lookahead]

/-- Matching the lookahead against the terminal on top, with nothing held and, for a number, a
numeral the arithmetic reads. -/
theorem steps_match {s : Symbol} (hs : st.syms = .terminal s :: rest)
    (hla : st.lookahead.symbol = s) (hh : st.held = none)
    (hnum : s = .number → ∃ v, cfg.arith.numeral st.lookahead.lexeme = .ok v) :
    Steps cfg 1 st (({ st.popTo cfg (.terminal s) rest with
      held := Literal.read cfg st.lookahead } : State α).matchedTo cfg st.lookahead) := by
  by_cases hn : s = .number
  · subst hn
    obtain ⟨v, hv⟩ := hnum rfl
    simpa [Literal.read, hla, hv] using steps_match_number hs hla hh hv
  by_cases hi : s = .identifier
  · subst hi
    simpa [Literal.read, hla, hn] using steps_match_identifier hs hla hh
  · have hread : Literal.read cfg st.lookahead = none := by simp [Literal.read, hla, hn, hi]
    rw [hread, with_held_none (by simpa using hh)]
    exact steps_match_plain hs hla hn hi

/-- Executing the action of group `grp`, number `g`: the group leaves the attribute stack if it is
still there, the owner must be in the group then on top, and the action runs. -/
theorem run_execute {g r : Nat} {grp : Group} {st₁ : State α} (hg : st.groupTable[g]? = some grp)
    (ho : grp.owner = some r) (hpop : grp.popped = false → st.topGroup = some g)
    (hholds : (if grp.popped then st else st.leave g).topHolds (some r) = true)
    (hrun : (runAction cfg grp).run (if grp.popped then st else st.leave g) = (.ok (), st₁)) :
    (execute cfg g).run st = (.ok (), st₁.closed cfg grp r) := by
  cases hp : grp.popped
  · simp only [hp, Bool.false_eq_true, if_false] at hholds hrun
    simp [execute, run_getGroup hg, hp, hpop hp, run_popGroup, hholds, hrun, ho, State.closed]
  · simp only [hp, if_true] at hholds hrun
    simp [execute, run_getGroup hg, hp, hholds, hrun, ho, State.closed]

theorem run_runAction {grp : Group} {r : Nat} {st' : State α} (hid : 0 < grp.prod.id ∧ grp.prod.id ≤ 15)
    (ho : grp.owner = some r) (ha : (action cfg grp.prod.id grp r).run st = (.ok (), st')) :
    (runAction cfg grp).run st = (.ok (), st') := by
  have : ¬ (grp.prod.id ≤ 0 ∨ 15 < grp.prod.id) := by omega
  simp [runAction, this, ho, ha]

theorem steps_execute {id : Int} {g : Nat} {st' : State α} (hs : st.syms = .action id g :: rest)
    (he : (execute cfg g).run (st.popTo cfg (.action id g) rest) = (.ok (), st'))
    (htok : st'.tokens = st.tokens) (hcur : st'.cursor = st.cursor) (hsyms : st'.syms = rest) :
    Steps cfg 1 st st' := by
  refine Steps.single ?_ (.executed hs htok hcur hsyms)
  rw [run_step_action hs, he]

end StepLemmas

/-! ### The semantic actions -/

/-- What an action did to the owner `r`: it gave the record its operator `o` and value `a`,
emitted `own`, left the holding area empty and changed nothing else. -/
structure Synthesized (st st' : State α) (r : Nat) (o : Option Symbol)
    (a : Option (α × String)) (own : List Instr) : Prop where
  record : ∀ x, st.records[r]? = some x → st'.records[r]? = some { x with op := o, attr := a }
  records : ∀ i, i ≠ r → st'.records[i]? = st.records[i]?
  size : st'.records.size = st.records.size
  tokens : st'.tokens = st.tokens
  cursor : st'.cursor = st.cursor
  syms : st'.syms = st.syms
  groups : st'.groups = st.groups
  groupTable : st'.groupTable = st.groupTable
  held : st'.held = none
  code : st'.code.toList = st.code.toList ++ own
  temps : st'.temps = st.temps + own.length

section Actions

variable {r : Nat} {x : Instance α}

/-- A record changed only at the owner, by a function that sets what `o` and `a` say on
the owner's record as it is. -/
theorem synthesized_of {f : Instance α → Instance α} {o : Option Symbol}
    {a : Option (α × String)} {own : List Instr}
    (hf : ∀ x, st.records[r]? = some x → f x = { x with op := o, attr := a }) :
    Synthesized st
      { st with records := st.records.modify r f, held := none, code := st.code ++ own.toArray,
                temps := st.temps + own.length } r o a own := by
  constructor
  · intro x hx
    simp [Array.getElem?_modify, hx, hf x hx]
  · intro i hi
    simp [Array.getElem?_modify, Ne.symm hi]
  all_goals simp

theorem synthesized_setOperator {o : Symbol} {o' : Option Symbol} {a : Option (α × String)}
    {own : List Instr} (hr : st.records[r]? = some x) (hx : x.attr = none) (hh : st.held = none)
    (ho : o' = some o) (ha : a = none) (hown : own = []) :
    Synthesized st { st with records := st.records.modify r fun r => { r with op := some o } } r
      o' a own := by
  subst ho ha hown
  have h := @synthesized_of _ st r (fun r => { r with op := some o }) (some o) none []
    (fun y hy => by rw [hr] at hy; cases hy; simp [hx])
  simpa [hh] using h

theorem synthesized_synthesize {v : α} {p : String} {o : Option Symbol}
    {a : Option (α × String)} (hr : st.records[r]? = some x) (hx : x.op = none)
    (hh : st.held = none) (ho : o = none) (ha : a = some (v, p)) :
    Synthesized st { st with records := st.records.modify r fun r => { r with attr := some (v, p) } }
      r o a [] := by
  subst ho ha
  have h := @synthesized_of _ st r (fun r => { r with attr := some (v, p) }) none (some (v, p)) []
    (fun y hy => by rw [hr] at hy; cases hy; simp [hx])
  simpa [hh] using h

/-- A literal taken from the holding area: the owner gets its value and text. -/
theorem synthesized_taken {v : α} {p : String} {o : Option Symbol} {a : Option (α × String)}
    (hr : st.records[r]? = some x) (hx : x.op = none) (ho : o = none) (ha : a = some (v, p)) :
    Synthesized st { ({ st with held := none } : State α) with
      records := st.records.modify r fun r => { r with attr := some (v, p) } } r o a [] := by
  subst ho ha
  have h := @synthesized_of _ st r (fun r => { r with attr := some (v, p) }) none (some (v, p)) []
    (fun y hy => by rw [hr] at hy; cases hy; simp [hx])
  simpa using h

/-- The action of a literal: the literal held is taken and given to the owner. -/
theorem run_literal {sym : Symbol} {lit : Literal α} {o : Nat} (hh : st.held = some lit)
    (hs : lit.sym = sym) (hr : st.records[o]? = some x) (hx : x.attr = none) :
    (do let lit ← take sym; synthesize o lit.value lit.text : Run α Unit).run st =
      (.ok (), { ({ st with held := none } : State α) with
        records := st.records.modify o fun r => { r with attr := some (lit.value, lit.text) } }) := by
  rw [run_bind, run_take hh hs]
  exact run_synthesize hr hx

/-- A sum or a product: the owner gets a value and a place, and the combination's code is
emitted. -/
theorem synthesized_combined {v : α} {p : String} {own : List Instr} {o : Option Symbol}
    {a : Option (α × String)} (hr : st.records[r]? = some x) (hx : x.op = none)
    (hh : st.held = none) (ho : o = none) (ha : a = some (v, p)) :
    Synthesized st { st with records := st.records.modify r fun r => { r with attr := some (v, p) },
                             code := st.code ++ own.toArray, temps := st.temps + own.length }
      r o a own := by
  subst ho ha
  have h := @synthesized_of _ st r (fun r => { r with attr := some (v, p) }) none (some (v, p)) own
    (fun y hy => by rw [hr] at hy; cases hy; simp [hx])
  simpa [hh] using h

end Actions

end ExprTranslate
