import ExprTranslate.Translate.Engine
/-!
# Running the translator step by step

The translator's computations run in `Run`, an exception monad over its state. This module
gives the equations of `Run` that later proofs use instead of unfolding the monad, the state
after an event is noted, and the relation `Steps cfg n st st'`: `n` steps from `st`, each
popping a symbol and succeeding, that end in `st'`.

* `run_bind`, `run_pure`, … say what a computation built from the monad's operations does;
* `run_step_terminal`, `run_step_nonterminal`, `run_step_action` and `run_step_nil` say what
  one step does with the symbol on top of the stack;
* `runSteps_add` turns `n` steps into `n` units of fuel of `runSteps`, and
  `runSteps_of_empty`, `runSteps_of_error` say how a run ends.
-/

namespace ExprTranslate

variable {α β γ : Type}

namespace Run

@[simp] theorem run_bind (x : Run α β) (f : β → Run α γ) (s : State α) :
    (x >>= f).run s = match x.run s with
      | (.ok a, s') => (f a).run s'
      | (.error e, s') => (.error e, s') := by
  rcases h : x.run s with ⟨_ | _, s'⟩
  · simp_all [bind, ExceptT.bind, ExceptT.mk, ExceptT.bindCont, StateT.bind, ExceptT.run]
    rfl
  · simp_all [bind, ExceptT.bind, ExceptT.mk, ExceptT.bindCont, StateT.bind, ExceptT.run]

@[simp] theorem run_pure (b : β) (s : State α) : (pure b : Run α β).run s = (.ok b, s) := rfl

@[simp] theorem run_get (s : State α) : (get : Run α (State α)).run s = (.ok s, s) := rfl

@[simp] theorem run_modify (f : State α → State α) (s : State α) :
    (modify f : Run α Unit).run s = (.ok (), f s) := rfl

@[simp] theorem run_modifyGet (f : State α → β × State α) (s : State α) :
    (modifyGet f : Run α β).run s = (.ok (f s).1, (f s).2) := rfl

@[simp] theorem run_throw (e : TranslateError) (s : State α) :
    (throw e : Run α β).run s = (.error e, s) := rfl

@[simp] theorem run_map (g : β → γ) (x : Run α β) (s : State α) :
    (g <$> x).run s = match x.run s with
      | (.ok a, s') => (.ok (g a), s')
      | (.error e, s') => (.error e, s') := by
  rw [map_eq_pure_bind, run_bind]
  rcases x.run s with ⟨_ | _, s'⟩ <;> rfl

@[simp] theorem run_tryCatch (x : Run α β) (h : TranslateError → Run α β) (s : State α) :
    (tryCatch x h).run s = match x.run s with
      | (.ok a, s') => (.ok a, s')
      | (.error e, s') => (h e).run s' := by
  rcases hx : x.run s with ⟨_ | _, s'⟩
  · simp_all [tryCatch, tryCatchThe, MonadExceptOf.tryCatch, ExceptT.tryCatch, ExceptT.mk,
      StateT.bind, ExceptT.run, bind]
  · simp_all [tryCatch, tryCatchThe, MonadExceptOf.tryCatch, ExceptT.tryCatch, ExceptT.mk,
      StateT.bind, ExceptT.run, bind]
    rfl

end Run

open Run

/-- The state after `note cfg e`: the event is recorded only when the configuration asks for
events. -/
def State.noted (cfg : Config α) (e : State α → Event α) (s : State α) : State α :=
  if cfg.observe then { s with events := s.events.push (e s) } else s

@[simp] theorem run_note (cfg : Config α) (e : State α → Event α) (s : State α) :
    (note cfg e).run s = (.ok (), s.noted cfg e) := by
  unfold note State.noted
  split <;> rfl

section Noted

variable (cfg : Config α) (e : State α → Event α) (s : State α)

-- Noting an event changes the events and nothing else.
@[simp] theorem noted_tokens : (s.noted cfg e).tokens = s.tokens := by
  unfold State.noted; split <;> rfl
@[simp] theorem noted_cursor : (s.noted cfg e).cursor = s.cursor := by
  unfold State.noted; split <;> rfl
@[simp] theorem noted_steps : (s.noted cfg e).steps = s.steps := by
  unfold State.noted; split <;> rfl
@[simp] theorem noted_syms : (s.noted cfg e).syms = s.syms := by
  unfold State.noted; split <;> rfl
@[simp] theorem noted_groups : (s.noted cfg e).groups = s.groups := by
  unfold State.noted; split <;> rfl
@[simp] theorem noted_records : (s.noted cfg e).records = s.records := by
  unfold State.noted; split <;> rfl
@[simp] theorem noted_groupTable : (s.noted cfg e).groupTable = s.groupTable := by
  unfold State.noted; split <;> rfl
@[simp] theorem noted_held : (s.noted cfg e).held = s.held := by
  unfold State.noted; split <;> rfl
@[simp] theorem noted_code : (s.noted cfg e).code = s.code := by
  unfold State.noted; split <;> rfl
@[simp] theorem noted_temps : (s.noted cfg e).temps = s.temps := by
  unfold State.noted; split <;> rfl

end Noted

/-! ### One step -/

/-- The state once the top symbol `top` is popped, leaving `rest`, and the pop is noted. -/
def State.popTo (cfg : Config α) (s : State α) (top : Entry) (rest : List Entry) : State α :=
  State.noted cfg (fun st => .popped top st.lookahead st.cursor st.syms st.groups)
    { s with syms := rest, steps := s.steps + 1 }

section PopTo

variable (cfg : Config α) (s : State α) (top : Entry) (rest : List Entry)

@[simp] theorem popTo_tokens : (s.popTo cfg top rest).tokens = s.tokens := by simp [State.popTo]
@[simp] theorem popTo_cursor : (s.popTo cfg top rest).cursor = s.cursor := by simp [State.popTo]
@[simp] theorem popTo_lookahead : (s.popTo cfg top rest).lookahead = s.lookahead := by
  simp [State.popTo, State.lookahead]
@[simp] theorem popTo_steps : (s.popTo cfg top rest).steps = s.steps + 1 := by simp [State.popTo]
@[simp] theorem popTo_syms : (s.popTo cfg top rest).syms = rest := by simp [State.popTo]
@[simp] theorem popTo_groups : (s.popTo cfg top rest).groups = s.groups := by simp [State.popTo]
@[simp] theorem popTo_records : (s.popTo cfg top rest).records = s.records := by simp [State.popTo]
@[simp] theorem popTo_groupTable : (s.popTo cfg top rest).groupTable = s.groupTable := by
  simp [State.popTo]
@[simp] theorem popTo_held : (s.popTo cfg top rest).held = s.held := by simp [State.popTo]
@[simp] theorem popTo_code : (s.popTo cfg top rest).code = s.code := by simp [State.popTo]
@[simp] theorem popTo_temps : (s.popTo cfg top rest).temps = s.temps := by simp [State.popTo]

end PopTo

section Step

variable {cfg : Config α} {st : State α} {rest : List Entry}

theorem run_step_nil (h : st.syms = []) : (step cfg).run st = (.ok false, st) := by
  simp [step, h]

theorem run_step_terminal {s : Symbol} (h : st.syms = .terminal s :: rest) :
    (step cfg).run st = match (matchTerminal cfg s).run (st.popTo cfg (.terminal s) rest) with
      | (.ok _, st') => (.ok true, st')
      | (.error e, st') => (.error e, st') := by
  simp only [step, run_bind, run_modifyGet, h, run_note, State.popTo]
  rcases (matchTerminal cfg s).run _ with ⟨_ | _, _⟩ <;> rfl

theorem run_step_nonterminal {k : Kind} {i : Nat} (h : st.syms = .nonterminal k i :: rest) :
    (step cfg).run st = match (expand cfg k i).run (st.popTo cfg (.nonterminal k i) rest) with
      | (.ok _, st') => (.ok true, st')
      | (.error e, st') => (.error e, st') := by
  simp only [step, run_bind, run_modifyGet, h, run_note, State.popTo]
  rcases (expand cfg k i).run _ with ⟨_ | _, _⟩ <;> rfl

theorem run_step_action {id : Int} {g : Nat} (h : st.syms = .action id g :: rest) :
    (step cfg).run st = match (execute cfg g).run (st.popTo cfg (.action id g) rest) with
      | (.ok _, st') => (.ok true, st')
      | (.error e, st') => (.error e, st') := by
  simp only [step, run_bind, run_modifyGet, h, run_note, State.popTo]
  rcases (execute cfg g).run _ with ⟨_ | _, _⟩ <;> rfl

end Step

/-! ### Runs of steps -/

/-- What a step that succeeds does to the input and the symbol stack: it matches the lookahead
against the terminal on top, reading it if it is a number; or it replaces the non-terminal on
top by the right-hand side of the production the table selects, with fresh records numbered
from the first free one and the action of the production's new group; or it takes an action
off. -/
inductive Moves (cfg : Config α) (st st' : State α) : Prop
  | matched {s : Symbol} {rest : List Entry} (hs : st.syms = .terminal s :: rest)
      (hla : st.lookahead.symbol = s)
      (hnum : s = .number → ∃ v, cfg.arith.numeral st.lookahead.lexeme = .ok v)
      (htok : st'.tokens = st.tokens) (hcur : st'.cursor = st.cursor + 1) (hsyms : st'.syms = rest)
  | expanded {k : Kind} {i : Nat} {rest : List Entry} {p : Production}
      (hs : st.syms = .nonterminal k i :: rest)
      (hp : cfg.table.select k.code st.lookahead.symbol = some p)
      (htok : st'.tokens = st.tokens) (hcur : st'.cursor = st.cursor)
      (hsyms : st'.syms = rhsEntries p.rhs st.records.size ++ .action p.id st.groupTable.size :: rest)
  | executed {id : Int} {g : Nat} {rest : List Entry} (hs : st.syms = .action id g :: rest)
      (htok : st'.tokens = st.tokens) (hcur : st'.cursor = st.cursor) (hsyms : st'.syms = rest)

theorem Moves.tokens {cfg : Config α} {st st' : State α} (h : Moves cfg st st') :
    st'.tokens = st.tokens := by
  cases h <;> assumption

/-- `n` steps from `st`, each popping a symbol and succeeding, that end in `st'`. -/
inductive Steps (cfg : Config α) : Nat → State α → State α → Prop
  | refl (st : State α) : Steps cfg 0 st st
  | cons {n : Nat} {st st₁ st₂ : State α} :
      (step cfg).run st = (.ok true, st₁) → Moves cfg st st₁ → Steps cfg n st₁ st₂ →
        Steps cfg (n + 1) st st₂

namespace Steps

variable {cfg : Config α} {m n : Nat} {st st₁ st₂ : State α}

theorem single (h : (step cfg).run st = (.ok true, st₁)) (hm : Moves cfg st st₁) :
    Steps cfg 1 st st₁ :=
  .cons h hm (.refl _)

theorem trans (h₁ : Steps cfg m st st₁) (h₂ : Steps cfg n st₁ st₂) : Steps cfg (m + n) st st₂ := by
  induction h₁ with
  | refl => simpa using h₂
  | cons hs hm _ ih =>
    rw [Nat.add_right_comm]
    exact .cons hs hm (ih h₂)

theorem of_eq (h : Steps cfg m st st₁) (he : m = n) : Steps cfg n st st₁ := he ▸ h

theorem tokens (h : Steps cfg n st st₁) : st₁.tokens = st.tokens := by
  induction h with
  | refl => rfl
  | cons _ hm _ ih => rw [ih, hm.tokens]

end Steps

section Fuel

variable {cfg : Config α} {st st' : State α}

/-- `n` steps take `n` units of fuel, whatever follows them. -/
theorem runSteps_add {n : Nat} (h : Steps cfg n st st') (f : Nat) :
    runSteps cfg (n + f) st = runSteps cfg f st' := by
  induction h with
  | refl => simp
  | cons hs _ _ ih =>
    rw [Nat.add_right_comm, runSteps, hs]
    exact ih

/-- A run from an empty stack has finished, with any fuel. -/
theorem runSteps_of_empty (h : st.syms = []) (f : Nat) : runSteps cfg f st = (.finished, st) := by
  cases f with
  | zero => simp [runSteps, h]
  | succ f => simp [runSteps, run_step_nil h]

/-- A step that fails ends the run with its error. -/
theorem runSteps_of_error {e : TranslateError} (h : (step cfg).run st = (.error e, st')) (f : Nat) :
    runSteps cfg (f + 1) st = (.failed e, st') := by
  simp [runSteps, h]

end Fuel

end ExprTranslate
