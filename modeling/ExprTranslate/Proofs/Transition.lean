import ExprTranslate.Proofs.Descent
/-!
# What one step of the translator does

A step pops the symbol on top of the stack and matches it, expands it or executes it. This
module says exactly what a step does, for every selection table, so that each property of the
translator's runs is proved once for each kind of step:

* `Confined o s s'`: `s'` differs from `s` only in what the semantic action of a group owned by
  the record `o` may write: the operator and value of that record, the holding area, the code
  and the temporaries. `Run.Confined o x` says that `x` keeps to this whether it succeeds or
  fails; every semantic action does (`confined_runAction`);
* `Transition cfg st st'`: a step that succeeds matches the lookahead against the terminal on
  top, expands the non-terminal on top by the production the table selects, or executes the
  action on top after its group's two checks passed; `transition_of_step` shows that there is
  no other way for a step to succeed;
* `step_error_state`, `step_error`: a step that fails leaves the state after the pop, or where
  its failed action left it, and has recorded only the pop;
* `Reachable cfg tokens st`: the states a run reaches, step by step, from the first one.
-/

namespace ExprTranslate

open Run

variable {α : Type}

/-! ### Changes an action may make -/

/-- `s'` differs from `s` only in what the action of a group owned by record `o` writes: the
operator and value of `o`, the holding area, the code and the temporaries. -/
structure Confined (o : Nat) (s s' : State α) : Prop where
  tokens : s'.tokens = s.tokens
  cursor : s'.cursor = s.cursor
  steps : s'.steps = s.steps
  syms : s'.syms = s.syms
  groups : s'.groups = s.groups
  groupTable : s'.groupTable = s.groupTable
  events : s'.events = s.events
  size : s'.records.size = s.records.size
  others : ∀ i, i ≠ o → s'.records[i]? = s.records[i]?
  owner : ∀ r, s.records[o]? = some r →
    ∃ r', s'.records[o]? = some r' ∧ r'.kind = r.kind ∧ r'.span = r.span

namespace Confined

variable {o : Nat} {s s₁ s₂ : State α}

theorem refl (o : Nat) (s : State α) : Confined o s s :=
  ⟨rfl, rfl, rfl, rfl, rfl, rfl, rfl, rfl, fun _ _ => rfl, fun r h => ⟨r, h, rfl, rfl⟩⟩

theorem trans (h₁ : Confined o s s₁) (h₂ : Confined o s₁ s₂) : Confined o s s₂ where
  tokens := h₂.tokens.trans h₁.tokens
  cursor := h₂.cursor.trans h₁.cursor
  steps := h₂.steps.trans h₁.steps
  syms := h₂.syms.trans h₁.syms
  groups := h₂.groups.trans h₁.groups
  groupTable := h₂.groupTable.trans h₁.groupTable
  events := h₂.events.trans h₁.events
  size := h₂.size.trans h₁.size
  others i hi := (h₂.others i hi).trans (h₁.others i hi)
  owner r hr := by
    obtain ⟨r₁, hr₁, hk₁, hs₁⟩ := h₁.owner r hr
    obtain ⟨r₂, hr₂, hk₂, hs₂⟩ := h₂.owner r₁ hr₁
    exact ⟨r₂, hr₂, hk₂.trans hk₁, hs₂.trans hs₁⟩

/-- Changing the record `o` in a way that keeps its kind and span is confined to it. -/
theorem modify_owner {f : Instance α → Instance α} (hk : ∀ r, (f r).kind = r.kind)
    (hs : ∀ r, (f r).span = r.span) : Confined o s { s with records := s.records.modify o f } where
  tokens := rfl
  cursor := rfl
  steps := rfl
  syms := rfl
  groups := rfl
  groupTable := rfl
  events := rfl
  size := by simp
  others i hi := by simp [Array.getElem?_modify, Ne.symm hi]
  owner r hr := ⟨f r, by simp [Array.getElem?_modify, hr], hk r, hs r⟩

/-- The holding area, the code and the temporaries are free to change. -/
theorem held_code (o : Nat) (s : State α) (h : Option (Literal α)) (c : Array Instr) (t : Nat) :
    Confined o s { s with held := h, code := c, temps := t } :=
  ⟨rfl, rfl, rfl, rfl, rfl, rfl, rfl, rfl, fun _ _ => rfl, fun r hr => ⟨r, hr, rfl, rfl⟩⟩

end Confined

/-- A computation whose changes, whether it succeeds or fails, are confined to what an action of
a group owned by record `o` may write. -/
def Run.Confined {β : Type} (o : Nat) (x : Run α β) : Prop :=
  ∀ s, ExprTranslate.Confined o s (x.run s).2

namespace Run.Confined

variable {β γ : Type} {o : Nat}

/-- A computation that leaves the state as it is. -/
theorem of_run {x : Run α β} (h : ∀ s, (x.run s).2 = s) : Run.Confined o x := fun s => by
  rw [h s]
  exact .refl o s

theorem pure (b : β) : Run.Confined o (Pure.pure b : Run α β) := of_run fun _ => rfl

theorem throw (e : TranslateError) : Run.Confined o (MonadExcept.throw e : Run α β) :=
  of_run fun _ => rfl

theorem internal (msg : String) : Run.Confined o (ExprTranslate.internal msg : Run α β) :=
  of_run fun _ => rfl

theorem bind {x : Run α β} {f : β → Run α γ} (hx : Run.Confined o x)
    (hf : ∀ b, Run.Confined o (f b)) : Run.Confined o (x >>= f) := fun s => by
  rw [run_bind]
  rcases h : x.run s with ⟨_ | b, s₁⟩
  · simpa [h] using hx s
  · simpa [h] using (hx s).trans (by simpa [h] using hf b s₁)

theorem ite {p : Prop} [Decidable p] {x y : Run α β} (hx : Run.Confined o x)
    (hy : Run.Confined o y) : Run.Confined o (if p then x else y) := by
  split
  · exact hx
  · exact hy

theorem tryCatch {x : Run α β} {h : TranslateError → Run α β} (hx : Run.Confined o x)
    (hh : ∀ e, Run.Confined o (h e)) : Run.Confined o (MonadExcept.tryCatch x h) := fun s => by
  rw [run_tryCatch]
  rcases hr : x.run s with ⟨_ | b, s₁⟩
  · simpa [hr] using (hx s).trans (by simpa [hr] using hh _ s₁)
  · simpa [hr] using hx s

end Run.Confined

/-! ### The operations of the semantic actions -/

section Actions

variable {cfg : Config α} {o : Nat}

-- Reading records and groups leaves the state as it is.
theorem confined_getRecord (i : Nat) : Run.Confined o (getRecord i : Run α (Instance α)) :=
  .of_run fun s => by unfold getRecord; simp only [run_bind, run_get]; split <;> rfl

theorem confined_member (g : Group) (k : Kind) : Run.Confined o (member g k : Run α Nat) :=
  .of_run fun s => by unfold member; simp only [run_bind, run_get]; split <;> rfl

theorem confined_operatorOf (g : Group) (k : Kind) : Run.Confined o (operatorOf g k : Run α Symbol) :=
  (confined_member g k).bind fun i => (confined_getRecord i).bind fun r => by
    split
    · exact .pure _
    · exact .internal _

theorem confined_operand (i : Nat) : Run.Confined o (operand i : Run α (α × String)) :=
  (confined_getRecord i).bind fun r => by
    split
    · exact .pure _
    · exact .internal _

-- Writing the owner's operator or value changes that record only.
theorem confined_setOperator (op : Symbol) : Run.Confined o (setOperator o op : Run α Unit) :=
  (confined_getRecord o).bind fun _ => .ite (.internal _) fun _ =>
    Confined.modify_owner (fun _ => rfl) (fun _ => rfl)

theorem confined_synthesize (v : α) (p : String) : Run.Confined o (synthesize o v p) :=
  (confined_getRecord o).bind fun _ => .ite (.internal _) fun _ =>
    Confined.modify_owner (fun _ => rfl) (fun _ => rfl)

theorem confined_take (sym : Symbol) : Run.Confined o (take sym : Run α (Literal α)) := fun s => by
  unfold take
  simp only [run_bind, run_get]
  split
  · exact .refl o s
  · simp only [run_bind, run_modify]
    split <;> exact Confined.held_code o s none s.code s.temps

theorem confined_emit (op : Char) (l r : String) : Run.Confined o (emit op l r : Run α String) :=
  fun s => Confined.held_code o s s.held _ _

theorem confined_combine (c : Combine) (invert : α → α) (join : α → α → α) (op : Symbol)
    (first rest : Nat) : Run.Confined o (combine cfg c invert join o op first rest) := by
  unfold combine
  refine (confined_operand first).bind fun x => ?_
  obtain ⟨fv, fp⟩ := x
  refine (confined_operand rest).bind fun y => ?_
  obtain ⟨hv, hp⟩ := y
  dsimp only
  -- whichever way the first operand is kept, the join is emitted or not and the owner written
  have hjoin : ∀ x : α × String, Run.Confined o
      (if (!cfg.optimize || hp != c.identity) = true then
        emit c.combine x.snd hp >>= fun place => synthesize o (join x.fst hv) place
      else pure x.snd >>= fun place => synthesize o (join x.fst hv) place) := fun x =>
    .ite ((confined_emit _ _ _).bind fun _ => confined_synthesize _ _)
      ((Run.Confined.pure _).bind fun _ => confined_synthesize _ _)
  exact .ite ((Run.Confined.pure _).bind hjoin)
    (.ite ((confined_emit _ _ _).bind fun _ => (Run.Confined.pure _).bind hjoin)
      ((Run.Confined.internal _).bind hjoin))

theorem confined_sumOf (g : Group) (op : Symbol) : Run.Confined o (sumOf cfg g o op) :=
  (confined_member g _).bind fun _ => (confined_member g _).bind fun _ =>
    confined_combine _ _ _ _ _ _

theorem confined_productOf (g : Group) (op : Symbol) : Run.Confined o (productOf cfg g o op) :=
  (confined_member g _).bind fun _ => (confined_member g _).bind fun _ =>
    confined_combine _ _ _ _ _ _

/-- Every semantic action writes only its owner's attributes, the holding area and the code. -/
theorem confined_action (id : Int) (g : Group) : Run.Confined o (action cfg id g o) := by
  unfold action
  split
  · exact (confined_operatorOf g _).bind fun _ => confined_sumOf g _
  · exact (confined_operatorOf g _).bind fun _ => confined_setOperator _
  · exact confined_setOperator _
  · exact confined_productOf g _
  · exact (confined_take _).bind fun _ => confined_synthesize _ _
  · refine (confined_member g _).bind fun i => (confined_operand i).bind fun x => ?_
    exact confined_synthesize _ _
  · exact confined_setOperator _
  · exact confined_setOperator _
  · exact confined_setOperator _
  · exact confined_setOperator _
  · exact (confined_operatorOf g _).bind fun _ => confined_sumOf g _
  · exact confined_synthesize _ _
  · exact (confined_operatorOf g _).bind fun _ => confined_productOf g _
  · exact confined_synthesize _ _
  · exact (confined_take _).bind fun _ => confined_synthesize _ _
  · exact .throw _

theorem confined_runAction {grp : Group} (ho : grp.owner = some o) :
    Run.Confined o (runAction cfg grp : Run α Unit) := by
  unfold runAction
  dsimp only
  rw [ho]
  -- the owner is known, so only the action and its error handler remain
  refine .ite ((Run.Confined.throw _).bind fun _ => ?_) ?_ <;>
    exact .tryCatch (confined_action _ _) fun e => by cases e <;> exact .throw _

/-- A semantic action that succeeds changes only what its owner's action may change. -/
theorem Confined.of_runAction {grp : Group} {s s₂ : State α} {u : Unit} (ho : grp.owner = some o)
    (hrun : (runAction cfg grp).run s = (.ok u, s₂)) : Confined o s s₂ := by
  have hc : Confined o s ((runAction cfg grp).run s).2 := confined_runAction ho s
  rwa [hrun] at hc

end Actions

/-! ### The three kinds of step -/

section Fields

variable {cfg : Config α} {st : State α}

-- Besides the pop, a step records at most its own event, and only the pop counts as a step.
@[simp] theorem noted_events (e : State α → Event α) :
    (st.noted cfg e).events = if cfg.observe then st.events.push (e st) else st.events := by
  unfold State.noted; split <;> rfl
@[simp] theorem leave_events {g : Nat} : (st.leave g).events = st.events := rfl
@[simp] theorem leave_steps {g : Nat} : (st.leave g).steps = st.steps := rfl
@[simp] theorem expandBy_events {p : Production} {i c : Nat} :
    (st.expandBy p i c).events = st.events := rfl
@[simp] theorem expandBy_steps {p : Production} {i c : Nat} :
    (st.expandBy p i c).steps = st.steps := rfl
@[simp] theorem matchedTo_events {la : Token} :
    (st.matchedTo cfg la).events = (st.noted cfg fun _ => .matched la).events := by
  simp only [State.matchedTo]; split <;> rfl
@[simp] theorem matchedTo_steps {la : Token} : (st.matchedTo cfg la).steps = st.steps := by
  simp only [State.matchedTo]; split <;> simp
@[simp] theorem closed_steps {grp : Group} {o : Nat} : (st.closed cfg grp o).steps = st.steps := by
  simp [State.closed]

end Fields

/-- The state once the action on top of `st`, for the group `grp` numbered `g`, is popped and its
group taken off the attribute stack if it is still there. -/
def State.released (cfg : Config α) (st : State α) (id : Int) (g : Nat) (rest : List Entry)
    (grp : Group) : State α :=
  if grp.popped then st.popTo cfg (.action id g) rest else (st.popTo cfg (.action id g) rest).leave g

section Operations

variable {cfg : Config α} {st st' : State α}

theorem run_hold_cases {tok : Token} {pos : Nat} {r : Except TranslateError Unit}
    (h : (hold cfg tok pos).run st = (r, st')) :
    (r = .ok () ∧ st.held = none ∧ ∃ lit, Literal.read cfg tok = some lit ∧
      st' = { st with held := some lit }) ∨ ((∃ e, r = .error e) ∧ st' = st) := by
  unfold hold at h
  cases hh : st.held with
  | some lit =>
    simp only [run_bind, run_get, hh, internal, run_throw] at h
    obtain ⟨rfl, rfl⟩ := Prod.mk.inj h
    exact .inr ⟨⟨_, rfl⟩, rfl⟩
  | none =>
    simp only [run_bind, run_get, hh] at h
    by_cases hn : tok.symbol = .number
    · cases hv : cfg.arith.numeral tok.lexeme with
      | ok v =>
        simp only [hn, if_true, hv, run_bind, run_pure, run_modify] at h
        obtain ⟨rfl, rfl⟩ := Prod.mk.inj h
        exact .inl ⟨rfl, rfl, _, by simp [Literal.read, hn, hv], rfl⟩
      | error e =>
        simp only [hn, if_true, hv, run_bind, run_throw] at h
        obtain ⟨rfl, rfl⟩ := Prod.mk.inj h
        exact .inr ⟨⟨_, rfl⟩, rfl⟩
    · by_cases hi : tok.symbol = .identifier
      · rw [if_neg hn, if_pos hi] at h
        simp only [run_bind, run_pure, run_modify] at h
        obtain ⟨rfl, rfl⟩ := Prod.mk.inj h
        exact .inl ⟨rfl, rfl, _, by rw [Literal.read, if_neg hn, if_pos hi]; simp [Tree.nameValue, hi],
          rfl⟩
      · simp only [hn, if_false, hi, internal, run_bind, run_throw] at h
        obtain ⟨rfl, rfl⟩ := Prod.mk.inj h
        exact .inr ⟨⟨_, rfl⟩, rfl⟩

/-- Matching: a terminal that is not the lookahead is a syntax error; a number or an identifier
is held, which may fail; then the match is noted and the cursor moves on. -/
theorem run_matchTerminal_eq (s : Symbol) :
    (matchTerminal cfg s).run st =
      if st.lookahead.symbol = s then
        match (if s = .number ∨ s = .identifier then hold cfg st.lookahead st.cursor
          else pure ()).run st with
        | (.ok _, st₁) => (.ok (), st₁.matchedTo cfg st.lookahead)
        | (.error e, st₁) => (.error e, st₁)
      else (.error (.syntaxError ⟨st.cursor, st.lookahead, [s], false, .expr⟩), st) := by
  by_cases hla : st.lookahead.symbol = s
  · rw [if_pos hla]
    rcases hh : (if s = .number ∨ s = .identifier then hold cfg st.lookahead st.cursor
      else pure ()).run st with ⟨_ | _, st₁⟩
    · simp only [matchTerminal, run_bind, run_map, run_get, hla, ne_eq, not_true_eq_false,
        if_false]
      by_cases hc : s = .number ∨ s = .identifier
      · rw [if_pos hc] at hh ⊢
        simp only [run_bind, hh]
      · rw [if_neg hc, run_pure] at hh
        cases hh
    · exact run_matchTerminal_of hla hh
  · simp [matchTerminal, hla]

/-- Expanding: the production the table selects for the lookahead, or a syntax error. -/
theorem run_expand_eq (k : Kind) (i : Nat) :
    (expand cfg k i).run st = match cfg.table.select k.code st.lookahead.symbol with
      | none => (.error (.syntaxError ⟨st.cursor, st.lookahead, cfg.table.expected k, true, k⟩), st)
      | some p => (.ok (), (st.noted cfg fun _ => .chosen p).expandBy p i st.cursor) := by
  cases hp : cfg.table.select k.code st.lookahead.symbol <;> simp [expand, hp]

/-- Executing: the group must be on top of the attribute stack unless it has left it, its owner
must be in the group then on top, and the action runs. -/
theorem run_execute_eq (g : Nat) :
    (execute cfg g).run st =
      match st.groupTable[g]? with
      | none => (.error (.internal ⟨0, "missing attribute group"⟩), st)
      | some grp =>
        if grp.popped = false ∧ st.topGroup ≠ some g then
          (.error (.internal ⟨grp.prod.id, "attribute group is not on top of the attribute stack"⟩), st)
        else if (if grp.popped then st else st.leave g).topHolds grp.owner = false then
          (.error (.internal ⟨grp.prod.id, "owner is not part of the enclosing attribute group"⟩),
            if grp.popped then st else st.leave g)
        else
          match (runAction cfg grp).run (if grp.popped then st else st.leave g), grp.owner with
          | (.ok _, s₂), some o => (.ok (), s₂.closed cfg grp o)
          | (.ok _, s₂), none => (.ok (), s₂)
          | (.error e, s₂), _ => (.error e, s₂) := by
  cases hg : st.groupTable[g]? with
  | none => simp [execute, getGroup, hg, internal]
  | some grp =>
    cases hp : grp.popped
    · -- the group is still on the attribute stack
      by_cases htop : st.topGroup = some g
      · by_cases hh : (st.leave g).topHolds grp.owner = true
        · rcases hr : (runAction cfg grp).run (st.leave g) with ⟨_ | _, s₂⟩ <;>
            cases ho : grp.owner <;> rw [ho] at hh <;>
            simp [execute, getGroup, hg, hp, htop, hh, hr, ho, run_popGroup, State.closed]
        · simp [execute, getGroup, hg, hp, htop, hh, run_popGroup]
      · simp [execute, getGroup, hg, hp, htop]
    · by_cases hh : st.topHolds grp.owner = true
      · rcases hr : (runAction cfg grp).run st with ⟨_ | _, s₂⟩ <;>
          cases ho : grp.owner <;> rw [ho] at hh <;>
          simp [execute, getGroup, hg, hp, hh, hr, ho, State.closed]
      · simp [execute, getGroup, hg, hp, hh]

/-- An action without owner fails at once. -/
theorem run_runAction_of_none (cfg : Config α) {grp : Group} (ho : grp.owner = none) (s : State α) :
    ∃ e, (runAction cfg grp).run s = (.error e, s) := by
  by_cases hid : grp.prod.id ≤ 0 ∨ 15 < grp.prod.id <;> simp [runAction, hid, ho] <;>
    exact ⟨_, rfl⟩

/-- An action leaves the input, the stacks, the events and the step count as they are, whether
it succeeds or fails. -/
theorem runAction_engine (cfg : Config α) (grp : Group) (s : State α) :
    ((runAction cfg grp).run s).2.events = s.events ∧ ((runAction cfg grp).run s).2.steps = s.steps := by
  cases ho : grp.owner with
  | none =>
    obtain ⟨e, he⟩ := run_runAction_of_none cfg ho s
    simp [he]
  | some o => exact ⟨(confined_runAction ho s).events, (confined_runAction ho s).steps⟩

end Operations

/-- **What a step that succeeds does.** It matches the lookahead against the terminal on top,
holding a number or an identifier for its action; or it expands the non-terminal on top by the
production the table selects for the lookahead; or it executes the action on top, whose group is
on top of the attribute stack unless it has left it, whose owner belongs to the group on top
once that group is gone, and whose semantic action succeeds. -/
inductive Transition (cfg : Config α) (st : State α) : State α → Prop
  | matched {s : Symbol} {rest : List Entry} (hs : st.syms = .terminal s :: rest)
      (hla : st.lookahead.symbol = s)
      (hheld : s = .number ∨ s = .identifier →
        st.held = none ∧ ∃ lit, Literal.read cfg st.lookahead = some lit) :
      Transition cfg st (({ st.popTo cfg (.terminal s) rest with
        held := if s = .number ∨ s = .identifier then Literal.read cfg st.lookahead
          else st.held } : State α).matchedTo cfg st.lookahead)
  | expanded {k : Kind} {i : Nat} {rest : List Entry} {p : Production}
      (hs : st.syms = .nonterminal k i :: rest)
      (hp : cfg.table.select k.code st.lookahead.symbol = some p) :
      Transition cfg st (st.expanded cfg (.nonterminal k i) rest p i)
  | executed {id : Int} {g o : Nat} {rest : List Entry} {grp : Group} {s₂ : State α}
      (hs : st.syms = .action id g :: rest) (hg : st.groupTable[g]? = some grp)
      (ho : grp.owner = some o) (htop : grp.popped = false → st.topGroup = some g)
      (hholds : (st.released cfg id g rest grp).topHolds (some o) = true)
      (hrun : (runAction cfg grp).run (st.released cfg id g rest grp) = (.ok (), s₂)) :
      Transition cfg st (s₂.closed cfg grp o)

section Steps

variable {cfg : Config α} {st st' : State α}

theorem matchTerminal_ok {s : Symbol} {u : Unit} (h : (matchTerminal cfg s).run st = (.ok u, st')) :
    st.lookahead.symbol = s ∧
      (s = .number ∨ s = .identifier →
        st.held = none ∧ ∃ lit, Literal.read cfg st.lookahead = some lit) ∧
      st' = ({ st with held := if s = .number ∨ s = .identifier then Literal.read cfg st.lookahead
        else st.held } : State α).matchedTo cfg st.lookahead := by
  rw [run_matchTerminal_eq] at h
  by_cases hla : st.lookahead.symbol = s
  · rw [if_pos hla] at h
    rcases hh : (if s = .number ∨ s = .identifier then hold cfg st.lookahead st.cursor
      else pure ()).run st with ⟨_ | _, st₁⟩ <;> rw [hh] at h
    · cases h
    obtain ⟨-, rfl⟩ := Prod.mk.inj h
    by_cases hc : s = .number ∨ s = .identifier
    · rw [if_pos hc] at hh
      rcases run_hold_cases hh with ⟨-, hheld, lit, hlit, rfl⟩ | ⟨⟨e, he⟩, -⟩
      · exact ⟨hla, fun _ => ⟨hheld, lit, hlit⟩, by rw [if_pos hc, hlit]⟩
      · cases he
    · rw [if_neg hc, run_pure] at hh
      obtain ⟨-, rfl⟩ := Prod.mk.inj hh
      exact ⟨hla, fun h => absurd h hc, by rw [if_neg hc]⟩
  · rw [if_neg hla] at h
    cases h

/-- A failed match leaves the state as it is. -/
theorem matchTerminal_error {s : Symbol} {e : TranslateError}
    (h : (matchTerminal cfg s).run st = (.error e, st')) : st' = st := by
  rw [run_matchTerminal_eq] at h
  by_cases hla : st.lookahead.symbol = s
  · rw [if_pos hla] at h
    rcases hh : (if s = .number ∨ s = .identifier then hold cfg st.lookahead st.cursor
      else pure ()).run st with ⟨r, st₁⟩
    rw [hh] at h
    by_cases hc : s = .number ∨ s = .identifier
    · rw [if_pos hc] at hh
      rcases run_hold_cases hh with ⟨rfl, -⟩ | ⟨-, rfl⟩
      · cases h
      · cases r with
        | ok _ => cases h
        | error _ => exact (Prod.mk.inj h).2.symm
    · rw [if_neg hc, run_pure] at hh
      obtain ⟨rfl, rfl⟩ := Prod.mk.inj hh
      cases h
  · rw [if_neg hla] at h
    exact (Prod.mk.inj h).2.symm

theorem expand_ok {k : Kind} {i : Nat} {u : Unit} (h : (expand cfg k i).run st = (.ok u, st')) :
    ∃ p, cfg.table.select k.code st.lookahead.symbol = some p ∧
      st' = (st.noted cfg fun _ => .chosen p).expandBy p i st.cursor := by
  rw [run_expand_eq] at h
  split at h
  · cases h
  · exact ⟨_, ‹_›, (Prod.mk.inj h).2.symm⟩

/-- A failed expansion leaves the state as it is. -/
theorem expand_error {k : Kind} {i : Nat} {e : TranslateError}
    (h : (expand cfg k i).run st = (.error e, st')) : st' = st := by
  rw [run_expand_eq] at h
  split at h
  · exact (Prod.mk.inj h).2.symm
  · cases h

theorem execute_ok {g : Nat} {u : Unit} (h : (execute cfg g).run st = (.ok u, st')) :
    ∃ grp o s₂, st.groupTable[g]? = some grp ∧ grp.owner = some o ∧
      (grp.popped = false → st.topGroup = some g) ∧
      (if grp.popped then st else st.leave g).topHolds (some o) = true ∧
      (runAction cfg grp).run (if grp.popped then st else st.leave g) = (.ok (), s₂) ∧
      st' = s₂.closed cfg grp o := by
  rw [run_execute_eq] at h
  split at h
  · cases h
  rename_i grp hg
  by_cases htop : grp.popped = false ∧ st.topGroup ≠ some g
  · rw [if_pos htop] at h
    cases h
  rw [if_neg htop] at h
  by_cases hholds : (if grp.popped then st else st.leave g).topHolds grp.owner = false
  · rw [if_pos hholds] at h
    cases h
  rw [if_neg hholds] at h
  rcases hr : (runAction cfg grp).run (if grp.popped then st else st.leave g) with ⟨_ | _, s₂⟩ <;>
    rw [hr] at h
  · cases h
  cases ho : grp.owner with
  | none =>
    obtain ⟨e, he⟩ := run_runAction_of_none cfg ho (if grp.popped then st else st.leave g)
    rw [hr] at he
    cases he
  | some o =>
    rw [ho] at h hholds
    exact ⟨grp, o, s₂, hg, ho, fun hp => Decidable.of_not_not fun hne => htop ⟨hp, hne⟩,
      by simpa using hholds, hr, (Prod.mk.inj h).2.symm⟩

/-- A failed execution ends where it started, after its group left the attribute stack, or
where its failed action left it. -/
theorem execute_error_state {g : Nat} {e : TranslateError}
    (h : (execute cfg g).run st = (.error e, st')) :
    ∃ s₁ : State α, (s₁ = st ∨ s₁ = st.leave g) ∧
      (st' = s₁ ∨ ∃ grp e', (runAction cfg grp).run s₁ = (.error e', st')) := by
  rw [run_execute_eq] at h
  split at h
  · exact ⟨st, .inl rfl, .inl (Prod.mk.inj h).2.symm⟩
  rename_i grp _
  have hs₁ : (if grp.popped then st else st.leave g) = st ∨
      (if grp.popped then st else st.leave g) = st.leave g := by
    split
    · exact .inl rfl
    · exact .inr rfl
  by_cases htop : grp.popped = false ∧ st.topGroup ≠ some g
  · rw [if_pos htop] at h
    exact ⟨st, .inl rfl, .inl (Prod.mk.inj h).2.symm⟩
  rw [if_neg htop] at h
  by_cases hholds : (if grp.popped then st else st.leave g).topHolds grp.owner = false
  · rw [if_pos hholds] at h
    exact ⟨_, hs₁, .inl (Prod.mk.inj h).2.symm⟩
  rw [if_neg hholds] at h
  rcases hr : (runAction cfg grp).run (if grp.popped then st else st.leave g) with ⟨_ | _, s₂⟩ <;>
    rw [hr] at h
  · obtain ⟨-, rfl⟩ := Prod.mk.inj h
    exact ⟨_, hs₁, .inr ⟨grp, _, hr⟩⟩
  · cases ho : grp.owner <;> simp only [ho] at h <;> cases (Prod.mk.inj h).1

/-- **Every step that succeeds is a transition.** -/
theorem transition_of_step (h : (step cfg).run st = (.ok true, st')) : Transition cfg st st' := by
  cases hs : st.syms with
  | nil =>
    rw [run_step_nil hs] at h
    cases h
  | cons top rest =>
    cases top with
    | terminal s =>
      rw [run_step_terminal hs] at h
      rcases hm : (matchTerminal cfg s).run (st.popTo cfg (.terminal s) rest) with ⟨_ | _, s₁⟩ <;>
        rw [hm] at h
      · cases h
      obtain ⟨-, rfl⟩ := Prod.mk.inj h
      obtain ⟨hla, hheld, rfl⟩ := matchTerminal_ok hm
      simp only [popTo_lookahead, popTo_held] at hla hheld ⊢
      exact .matched hs hla hheld
    | nonterminal k i =>
      rw [run_step_nonterminal hs] at h
      rcases hm : (expand cfg k i).run (st.popTo cfg (.nonterminal k i) rest) with ⟨_ | _, s₁⟩ <;>
        rw [hm] at h
      · cases h
      obtain ⟨-, rfl⟩ := Prod.mk.inj h
      obtain ⟨p, hp, rfl⟩ := expand_ok hm
      simp only [popTo_lookahead, popTo_cursor] at hp ⊢
      exact .expanded hs hp
    | action id g =>
      rw [run_step_action hs] at h
      rcases hm : (execute cfg g).run (st.popTo cfg (.action id g) rest) with ⟨_ | _, s₁⟩ <;>
        rw [hm] at h
      · cases h
      obtain ⟨-, rfl⟩ := Prod.mk.inj h
      obtain ⟨grp, o, s₂, hg, ho, htop, hholds, hrun, rfl⟩ := execute_ok hm
      simp only [popTo_groupTable, State.topGroup, popTo_groups] at hg htop
      exact .executed hs hg ho htop hholds hrun

/-- **What a step that fails leaves.** The state after the pop; for an action, also the state
once its group left the attribute stack, or where its failed semantic action left it. -/
theorem step_error_state {e : TranslateError} (h : (step cfg).run st = (.error e, st')) :
    ∃ top rest, st.syms = top :: rest ∧ (st' = st.popTo cfg top rest ∨
      ∃ id g, top = .action id g ∧ ∃ s₁ : State α,
        (s₁ = st.popTo cfg top rest ∨ s₁ = (st.popTo cfg top rest).leave g) ∧
        (st' = s₁ ∨ ∃ grp e', (runAction cfg grp).run s₁ = (.error e', st'))) := by
  cases hs : st.syms with
  | nil =>
    rw [run_step_nil hs] at h
    cases h
  | cons top rest =>
    refine ⟨top, rest, rfl, ?_⟩
    cases top with
    | terminal s =>
      rw [run_step_terminal hs] at h
      rcases hm : (matchTerminal cfg s).run (st.popTo cfg (.terminal s) rest) with ⟨_ | _, s₁⟩ <;>
        rw [hm] at h
      · obtain ⟨-, rfl⟩ := Prod.mk.inj h
        exact .inl (matchTerminal_error hm)
      · cases h
    | nonterminal k i =>
      rw [run_step_nonterminal hs] at h
      rcases hm : (expand cfg k i).run (st.popTo cfg (.nonterminal k i) rest) with ⟨_ | _, s₁⟩ <;>
        rw [hm] at h
      · obtain ⟨-, rfl⟩ := Prod.mk.inj h
        exact .inl (expand_error hm)
      · cases h
    | action id g =>
      rw [run_step_action hs] at h
      rcases hm : (execute cfg g).run (st.popTo cfg (.action id g) rest) with ⟨_ | _, s₁⟩ <;>
        rw [hm] at h
      · obtain ⟨-, rfl⟩ := Prod.mk.inj h
        exact .inr ⟨id, g, rfl, execute_error_state hm⟩
      · cases h

/-- **A step that fails has recorded only its pop.** It took one step, and its state is the
state after the pop but for the holding area, the records and the code. -/
theorem step_error {e : TranslateError} (h : (step cfg).run st = (.error e, st')) :
    ∃ top rest, st.syms = top :: rest ∧ st'.steps = st.steps + 1 ∧
      st'.events = (st.popTo cfg top rest).events := by
  obtain ⟨top, rest, hs, hcase⟩ := step_error_state h
  refine ⟨top, rest, hs, ?_⟩
  rcases hcase with rfl | ⟨id, g, -, s₁, hs₁, hend⟩
  · simp
  · -- leaving the attribute stack and a failed action keep the events and the step count
    have h₁ : s₁.steps = st.steps + 1 ∧ s₁.events = (st.popTo cfg top rest).events := by
      rcases hs₁ with rfl | rfl <;> simp
    rcases hend with rfl | ⟨grp, e', hrun⟩
    · exact h₁
    · have hengine := runAction_engine cfg grp s₁
      rw [hrun] at hengine
      exact ⟨hengine.2.trans h₁.1, hengine.1.trans h₁.2⟩

end Steps

/-! ### Runs -/

/-- The states a run reaches: the first one, and those after each step that succeeds. -/
inductive Reachable (cfg : Config α) (tokens : List Token) : State α → Prop
  | initial : Reachable cfg tokens (initial cfg tokens)
  | step {st st' : State α} : Reachable cfg tokens st → (step cfg).run st = (.ok true, st') →
      Reachable cfg tokens st'

section Runs

variable {cfg : Config α} {tokens : List Token} {st st' : State α}

/-- A step reports that nothing is left to do only on an empty stack, which it leaves as it is. -/
theorem step_ok_false (h : (step cfg).run st = (.ok false, st')) : st.syms = [] ∧ st' = st := by
  cases hs : st.syms with
  | nil =>
    rw [run_step_nil hs] at h
    exact ⟨rfl, (Prod.mk.inj h).2.symm⟩
  | cons top rest =>
    cases top with
    | terminal s =>
      rw [run_step_terminal hs] at h
      rcases hm : (matchTerminal cfg s).run (st.popTo cfg (.terminal s) rest) with ⟨_ | _, s₁⟩ <;>
        rw [hm] at h <;> cases h
    | nonterminal k i =>
      rw [run_step_nonterminal hs] at h
      rcases hm : (expand cfg k i).run (st.popTo cfg (.nonterminal k i) rest) with ⟨_ | _, s₁⟩ <;>
        rw [hm] at h <;> cases h
    | action id g =>
      rw [run_step_action hs] at h
      rcases hm : (execute cfg g).run (st.popTo cfg (.action id g) rest) with ⟨_ | _, s₁⟩ <;>
        rw [hm] at h <;> cases h

/-- A run that finishes from a reachable state ends in a reachable state with an empty stack. -/
theorem Reachable.finished {fuel : Nat} (h : Reachable cfg tokens st)
    (hr : runSteps cfg fuel st = (.finished, st')) : Reachable cfg tokens st' ∧ st'.syms = [] := by
  induction fuel generalizing st with
  | zero =>
    unfold runSteps at hr
    by_cases hs : st.syms.isEmpty = true
    · rw [if_pos hs] at hr
      obtain ⟨-, rfl⟩ := Prod.mk.inj hr
      exact ⟨h, List.isEmpty_iff.mp hs⟩
    · rw [if_neg hs] at hr
      cases hr
  | succ fuel ih =>
    unfold runSteps at hr
    rcases hstep : (ExprTranslate.step cfg).run st with ⟨_ | b, s₁⟩ <;> rw [hstep] at hr
    · cases hr
    · cases b
      · obtain ⟨hs, rfl⟩ := step_ok_false hstep
        obtain ⟨-, rfl⟩ := Prod.mk.inj hr
        exact ⟨h, hs⟩
      · exact ih (h.step hstep) hr

/-- A run that fails from a reachable state fails at a step from a reachable state. -/
theorem Reachable.failed {fuel : Nat} {e : TranslateError} (h : Reachable cfg tokens st)
    (hr : runSteps cfg fuel st = (.failed e, st')) :
    ∃ st₀, Reachable cfg tokens st₀ ∧ (ExprTranslate.step cfg).run st₀ = (.error e, st') := by
  induction fuel generalizing st with
  | zero =>
    unfold runSteps at hr
    by_cases hs : st.syms.isEmpty = true
    · rw [if_pos hs] at hr; cases hr
    · rw [if_neg hs] at hr; cases hr
  | succ fuel ih =>
    unfold runSteps at hr
    rcases hstep : (ExprTranslate.step cfg).run st with ⟨_ | b, s₁⟩ <;> rw [hstep] at hr
    · obtain ⟨he, rfl⟩ := Prod.mk.inj hr
      cases he
      exact ⟨st, h, hstep⟩
    · cases b
      · cases hr
      · exact ih (h.step hstep) hr

/-- A run that runs out of fuel from a reachable state ends in a reachable state. -/
theorem Reachable.exhausted {fuel : Nat} (h : Reachable cfg tokens st)
    (hr : runSteps cfg fuel st = (.exhausted, st')) : Reachable cfg tokens st' := by
  induction fuel generalizing st with
  | zero =>
    unfold runSteps at hr
    by_cases hs : st.syms.isEmpty = true
    · rw [if_pos hs] at hr; cases hr
    · rw [if_neg hs] at hr
      obtain ⟨-, rfl⟩ := Prod.mk.inj hr
      exact h
  | succ fuel ih =>
    unfold runSteps at hr
    rcases hstep : (ExprTranslate.step cfg).run st with ⟨_ | b, s₁⟩ <;> rw [hstep] at hr
    · cases hr
    · cases b
      · cases hr
      · exact ih (h.step hstep) hr

/-- A transition moves the input and the symbol stack as `Moves` says. -/
theorem Transition.moves (ht : Transition cfg st st') : Moves cfg st st' := by
  cases ht with
  | matched hs hla hheld =>
    refine .matched hs hla (fun hn => ?_) (by simp) (by simp) (by simp)
    obtain ⟨-, lit, hlit⟩ := hheld (.inl hn)
    unfold Literal.read at hlit
    rw [if_pos (hla.trans hn)] at hlit
    cases hv : cfg.arith.numeral st.lookahead.lexeme with
    | ok v => exact ⟨v, rfl⟩
    | error e => rw [hv] at hlit; cases hlit
  | expanded hs hp => exact .expanded hs hp (by simp) (by simp) (by simp)
  | @executed id g o rest grp s₂ hs hg ho _ _ hrun =>
    have hc := Confined.of_runAction ho hrun
    refine .executed hs ?_ ?_ ?_
    · rw [closed_tokens, hc.tokens]; unfold State.released; split <;> simp
    · rw [closed_cursor, hc.cursor]; unfold State.released; split <;> simp
    · rw [closed_syms, hc.syms]; unfold State.released; split <;> simp

/-- A transition counts one step. -/
theorem Transition.steps (ht : Transition cfg st st') : st'.steps = st.steps + 1 := by
  cases ht with
  | matched => simp
  | expanded => simp [State.expanded]
  | @executed id g o rest grp s₂ _ _ ho _ _ hrun =>
    have hc := Confined.of_runAction ho hrun
    rw [closed_steps, hc.steps]
    unfold State.released; split <;> simp

/-- `n` steps count `n`. -/
theorem Steps.steps_eq {n : Nat} (h : Steps cfg n st st') : st'.steps = st.steps + n := by
  induction h with
  | refl => rfl
  | cons hs _ _ ih => rw [ih, (transition_of_step hs).steps, Nat.add_right_comm, Nat.add_assoc]

end Runs

end ExprTranslate
