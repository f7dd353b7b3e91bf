import ExprTranslate.Proofs.Transition
import ExprTranslate.Proofs.Viability
/-!
# What an observer is told

With `observe` set, the translator records an event for every symbol it pops, and one more for
each production it chooses, each token it matches and each action it executes. This module
shows what these reports amount to:

* `counted_translate`: for every table and every run, the steps are the pops, and they are the
  chosen productions, the matched tokens and the executed actions together, one more if the run
  failed, the failing step being popped but not reported;
* `Tree.trace`: what the parse of a tree reports, its production chosen first and executed last,
  with what its children and tokens report in between; its chosen productions are the tree's
  pre-order, its executed ones its post-order and its matched tokens its tokens;
* `Spells`, `Traced`: the simulation of an accepted run. Each entry of the stack stands for what
  it will report: a terminal the token it will match, a non-terminal the trace of a tree, an
  action its execution. `Traced.step` shows that every step keeps this, so an accepted run reports
  exactly the trace of the input's tree and the end marker;
* `reports_follow_parse_tree`: both together, for a translation.
-/

namespace ExprTranslate

variable {α : Type}

/-! ### Reports -/

/-- What an observer hears of an event besides a pop: the production chosen, the token matched,
or the production whose action was executed. -/
inductive Report
  | chosen (id : Int)
  | matched (tok : Token)
  | executed (id : Int)
  deriving DecidableEq

namespace Report

def chosenId? : Report → Option Int
  | chosen id => some id
  | _ => none

def executedId? : Report → Option Int
  | executed id => some id
  | _ => none

def token? : Report → Option Token
  | matched tok => some tok
  | _ => none

/-- The reports of a production's parse: chosen first, then what is between, executed last. -/
def wrap (p : Production) (body : List Report) : List Report :=
  .chosen p.id :: body ++ [.executed p.id]

end Report

namespace Event

/-- What an observer hears of an event, a pop apart. -/
def report? : Event α → Option Report
  | .popped .. => none
  | .chosen p => some (.chosen p.id)
  | .matched t => some (.matched t)
  | .executed p _ _ => some (.executed p.id)

/-- Whether an event is a pop. -/
def isPopped : Event α → Bool
  | .popped .. => true
  | _ => false

end Event

/-- The reports among events, in order. -/
def reports (es : List (Event α)) : List Report := es.filterMap Event.report?

/-- Whether translating ended in a failure: an error, or an abort. -/
def Ending.failed : Ending α → Bool
  | .failure _ | .aborted _ => true
  | .success .. | .stepLimit => false

/-! ### The traversals of a tree -/

namespace Tree

/-- The productions of a tree in pre-order: each before those of its subtrees, left to right. -/
def preorder : {k : Kind} → Tree k → List Int
  | _, exprRule s t h => Production.exprRule.id :: (s.preorder ++ t.preorder ++ h.preorder)
  | _, signAddOp a => Production.signAddOp.id :: a.preorder
  | _, termRule f h => Production.termRule.id :: (f.preorder ++ h.preorder)
  | _, factorParens _ _ e _ _ => Production.factorParens.id :: e.preorder
  | _, exprTailMore a t h => Production.exprTailMore.id :: (a.preorder ++ t.preorder ++ h.preorder)
  | _, termTailMore m f h => Production.termTailMore.id :: (m.preorder ++ f.preorder ++ h.preorder)
  | _, t => [t.rule.id]

/-- The productions of a tree in post-order: each after those of its subtrees, left to right. -/
def postorder : {k : Kind} → Tree k → List Int
  | _, exprRule s t h => s.postorder ++ t.postorder ++ h.postorder ++ [Production.exprRule.id]
  | _, signAddOp a => a.postorder ++ [Production.signAddOp.id]
  | _, termRule f h => f.postorder ++ h.postorder ++ [Production.termRule.id]
  | _, factorParens _ _ e _ _ => e.postorder ++ [Production.factorParens.id]
  | _, exprTailMore a t h => a.postorder ++ t.postorder ++ h.postorder ++ [Production.exprTailMore.id]
  | _, termTailMore m f h => m.postorder ++ f.postorder ++ h.postorder ++ [Production.termTailMore.id]
  | _, t => [t.rule.id]

/-- What the parse of a tree reports: its production chosen, then the parses of its subtrees and
the matches of its tokens left to right, and its production executed. -/
def trace : {k : Kind} → Tree k → List Report
  | _, exprRule s t h => Report.wrap Production.exprRule (s.trace ++ t.trace ++ h.trace)
  | _, signAddOp a => Report.wrap Production.signAddOp a.trace
  | _, signNone => Report.wrap Production.signNone []
  | _, termRule f h => Report.wrap Production.termRule (f.trace ++ h.trace)
  | _, factorNumber tok _ => Report.wrap Production.factorNumber [.matched tok]
  | _, factorParens lp _ e rp _ =>
    Report.wrap Production.factorParens (.matched lp :: e.trace ++ [.matched rp])
  | _, addOpPlus tok _ => Report.wrap Production.addOpPlus [.matched tok]
  | _, addOpMinus tok _ => Report.wrap Production.addOpMinus [.matched tok]
  | _, mulOpTimes tok _ => Report.wrap Production.mulOpTimes [.matched tok]
  | _, mulOpSlash tok _ => Report.wrap Production.mulOpSlash [.matched tok]
  | _, exprTailMore a t h => Report.wrap Production.exprTailMore (a.trace ++ t.trace ++ h.trace)
  | _, exprTailEnd => Report.wrap Production.exprTailEnd []
  | _, termTailMore m f h => Report.wrap Production.termTailMore (m.trace ++ f.trace ++ h.trace)
  | _, termTailEnd => Report.wrap Production.termTailEnd []
  | _, factorIdentifier tok _ => Report.wrap Production.factorIdentifier [.matched tok]

variable {k : Kind}

/-- The productions chosen in a parse are the tree's pre-order. -/
theorem trace_chosen (t : Tree k) : t.trace.filterMap Report.chosenId? = t.preorder := by
  induction t <;> simp [trace, preorder, rule, Report.wrap, Report.chosenId?, List.filterMap_cons, *]

/-- The productions executed in a parse are the tree's post-order. -/
theorem trace_executed (t : Tree k) : t.trace.filterMap Report.executedId? = t.postorder := by
  induction t <;>
    simp [trace, postorder, rule, Report.wrap, Report.executedId?, List.filterMap_cons, *]

/-- The tokens matched in a parse are the tree's tokens. -/
theorem trace_tokens (t : Tree k) : t.trace.filterMap Report.token? = t.tokens := by
  induction t <;> simp [trace, tokens, Report.wrap, Report.token?, List.filterMap_cons, *]

end Tree

/-! ### The reports of a step -/

/-- The pops among events. -/
def pops (es : List (Event α)) : Nat := es.countP Event.isPopped

@[simp] theorem reports_push (es : Array (Event α)) (e : Event α) :
    reports (es.push e).toList = reports es.toList ++ e.report?.toList := by
  simp only [reports, Array.toList_push, List.filterMap_append, List.filterMap_cons,
    List.filterMap_nil]
  cases e.report? <;> rfl

@[simp] theorem pops_push (es : Array (Event α)) (e : Event α) :
    pops (es.push e).toList = pops es.toList + if e.isPopped then 1 else 0 := by
  simp [pops, List.countP_append]

section Steps

variable {cfg : Config α} (hobs : cfg.observe = true) {st : State α}
include hobs

-- A pop is counted and not reported; each kind of step then reports one event.
theorem reports_popTo (st : State α) (top : Entry) (rest : List Entry) :
    reports (st.popTo cfg top rest).events.toList = reports st.events.toList ∧
      pops (st.popTo cfg top rest).events.toList = pops st.events.toList + 1 := by
  simp only [State.popTo, noted_events, hobs, if_true, reports_push, pops_push]
  simp [Event.report?, Event.isPopped]

theorem reports_matched (st : State α) {s : Symbol} {rest : List Entry} (held : Option (Literal α))
    (la : Token) :
    reports (({ st.popTo cfg (.terminal s) rest with held := held } : State α).matchedTo cfg
        la).events.toList = reports st.events.toList ++ [.matched la] ∧
      pops (({ st.popTo cfg (.terminal s) rest with held := held } : State α).matchedTo cfg
        la).events.toList = pops st.events.toList + 1 := by
  have h := reports_popTo hobs st (.terminal s) rest
  simp only [matchedTo_events, noted_events, hobs, if_true, reports_push, pops_push] at h ⊢
  simp [h, Event.report?, Event.isPopped]

theorem reports_expanded (st : State α) {top : Entry} {rest : List Entry} {p : Production} {r : Nat} :
    reports (st.expanded cfg top rest p r).events.toList = reports st.events.toList ++ [.chosen p.id] ∧
      pops (st.expanded cfg top rest p r).events.toList = pops st.events.toList + 1 := by
  have h := reports_popTo hobs st top rest
  simp only [State.expanded, expandBy_events, noted_events, hobs, if_true, reports_push,
    pops_push] at h ⊢
  simp [h, Event.report?, Event.isPopped]

theorem reports_executed {id : Int} {g o : Nat} {rest : List Entry} {grp : Group} {s₂ : State α}
    (hc : Confined o (st.released cfg id g rest grp) s₂) :
    reports (s₂.closed cfg grp o).events.toList = reports st.events.toList ++ [.executed grp.prod.id] ∧
      pops (s₂.closed cfg grp o).events.toList = pops st.events.toList + 1 := by
  have h := reports_popTo hobs st (.action id g) rest
  have hev : s₂.events = (st.popTo cfg (.action id g) rest).events := by
    rw [hc.events]; unfold State.released; split <;> simp
  simp only [State.closed, noted_events, hobs, if_true, reports_push, pops_push, hev] at h ⊢
  simp [h, State.actionEvent, Event.report?, Event.isPopped]

end Steps

/-! ### Counting the reports of a run -/

/-- Every step so far was popped once and reported once. -/
structure Counted (st : State α) : Prop where
  popped : pops st.events.toList = st.steps
  reported : (reports st.events.toList).length = st.steps

section Counting

variable {cfg : Config α} (hobs : cfg.observe = true) {st st' : State α}
include hobs

/-- A step that succeeds is popped and reported once. -/
theorem Counted.step (hc : Counted st) (ht : Transition cfg st st') : Counted st' := by
  have hsteps := ht.steps
  have h : (reports st'.events.toList).length = (reports st.events.toList).length + 1 ∧
      pops st'.events.toList = pops st.events.toList + 1 := by
    cases ht with
    | matched =>
      obtain ⟨h₁, h₂⟩ := reports_matched hobs st _ _
      exact ⟨(congrArg List.length h₁).trans (by simp), h₂⟩
    | expanded =>
      obtain ⟨h₁, h₂⟩ := reports_expanded hobs st
      exact ⟨(congrArg List.length h₁).trans (by simp), h₂⟩
    | @executed id g o rest grp s₂ _ _ ho _ _ hrun =>
      have hc := Confined.of_runAction ho hrun
      obtain ⟨h₁, h₂⟩ := reports_executed hobs hc
      exact ⟨(congrArg List.length h₁).trans (by simp), h₂⟩
  exact ⟨by rw [h.2, hc.popped, hsteps], by rw [h.1, hc.reported, hsteps]⟩

/-- Every state a run reaches has every step popped and reported once. -/
theorem counted_of_reachable {tokens : List Token} (h : Reachable cfg tokens st) : Counted st := by
  induction h with
  | initial => exact ⟨by simp [pops, initial], by simp [reports, initial]⟩
  | step _ hstep ih => exact ih.step hobs (transition_of_step hstep)

/-- A step that fails is popped but not reported. -/
theorem Counted.error {e : TranslateError} (hc : Counted st)
    (h : (ExprTranslate.step cfg).run st = (.error e, st')) :
    pops st'.events.toList = st'.steps ∧ (reports st'.events.toList).length + 1 = st'.steps := by
  obtain ⟨top, rest, -, hsteps, hev⟩ := step_error h
  obtain ⟨h₁, h₂⟩ := reports_popTo hobs st top rest
  rw [hev, hsteps, h₁, h₂, hc.popped, hc.reported]
  exact ⟨rfl, rfl⟩

end Counting

/-! ### The simulation of an accepted run -/

/-- The production number of each group. -/
def State.groupIds (st : State α) (g : Nat) : Option Int := st.groupTable[g]?.map (·.prod.id)

/-- What the entries of a stack will report in a run that accepts, and the tokens they will
match there: a terminal its token, a non-terminal the trace of a tree of its kind, and an action
the execution of its group's production, whose number `ids` gives. -/
inductive Spells (ids : Nat → Option Int) : List Entry → List Report → List Token → Prop
  | nil : Spells ids [] [] []
  | terminal {s : Symbol} {rest : List Entry} {R : List Report} {w : List Token} (tok : Token)
      (hs : tok.symbol = s) :
      Spells ids rest R w → Spells ids (.terminal s :: rest) (.matched tok :: R) (tok :: w)
  | nonterminal {k : Kind} {i : Nat} {rest : List Entry} {R : List Report} {w : List Token}
      (t : Tree k) :
      Spells ids rest R w → Spells ids (.nonterminal k i :: rest) (t.trace ++ R) (t.tokens ++ w)
  | action {id : Int} {g : Nat} {rest : List Entry} {R : List Report} {w : List Token}
      (hg : ids g = some id) :
      Spells ids rest R w → Spells ids (.action id g :: rest) (.executed id :: R) w

namespace Spells

variable {ids ids' : Nat → Option Int} {syms : List Entry} {R : List Report} {w : List Token}

/-- Groups that keep their productions keep what a stack spells. -/
theorem mono (h : ∀ g id, ids g = some id → ids' g = some id) (hs : Spells ids syms R w) :
    Spells ids' syms R w := by
  induction hs with
  | nil => exact .nil
  | terminal tok htok _ ih => exact .terminal tok htok ih
  | nonterminal t _ ih => exact .nonterminal t ih
  | action hg _ ih => exact .action (h _ _ hg) ih

/-- A stack derives the symbols of the tokens it spells. -/
theorem derives (hs : Spells ids syms R w) : Derives syms (w.map Token.symbol) := by
  induction hs with
  | nil => exact .nil
  | terminal tok htok _ ih => exact htok ▸ .terminal ih
  | nonterminal t _ ih => simpa [Tree.symbols] using Derives.nonterminal t ih
  | action _ _ ih => exact .action ih

end Spells

open Production in
/-- The entries a tree's production pushes, with its action below them, spell what the tree
reports between choosing and executing its production, and then that execution. -/
theorem spells_rule (ids : Nat → Option Int) {k : Kind} (t : Tree k) (f g : Nat)
    {rest : List Entry} {R : List Report} {w : List Token} (hg : ids g = some t.rule.id)
    (h : Spells ids rest R w) : ∃ inner, t.trace = .chosen t.rule.id :: inner ++ [.executed t.rule.id] ∧
      Spells ids (rhsEntries t.rule.rhs f ++ .action t.rule.id g :: rest)
        (inner ++ .executed t.rule.id :: R) (t.tokens ++ w) := by
  have ha : Spells ids (.action t.rule.id g :: rest) (.executed t.rule.id :: R) w := .action hg h
  cases t with
  | exprRule s t e | exprTailMore s t e | termTailMore s t e =>
    exact ⟨_, rfl, by
      simpa [Tree.rule, rhsEntries, exprRule, exprTailMore, termTailMore, Tree.tokens,
        Tree.trace] using Spells.nonterminal s (.nonterminal t (.nonterminal e ha))⟩
  | termRule f' e =>
    exact ⟨_, rfl, by
      simpa [Tree.rule, rhsEntries, termRule, Tree.tokens] using
        Spells.nonterminal f' (.nonterminal e ha)⟩
  | signAddOp a =>
    exact ⟨_, rfl, by simpa [Tree.rule, rhsEntries, signAddOp, Tree.tokens] using Spells.nonterminal a ha⟩
  | signNone | exprTailEnd | termTailEnd =>
    exact ⟨_, rfl, by simpa [Tree.rule, rhsEntries, signNone, exprTailEnd, termTailEnd, Tree.tokens,
      Symbol.empty] using ha⟩
  | factorNumber tok h' | factorIdentifier tok h' | addOpPlus tok h' | addOpMinus tok h'
  | mulOpTimes tok h' | mulOpSlash tok h' =>
    exact ⟨_, rfl, by
      simpa [Tree.rule, rhsEntries, factorNumber, factorIdentifier, addOpPlus, addOpMinus,
        mulOpTimes, mulOpSlash, Tree.tokens, Symbol.number, Symbol.identifier, Symbol.plus,
        Symbol.minus, Symbol.times, Symbol.slash, Symbol.empty] using Spells.terminal tok h' ha⟩
  | factorParens lp hl e rp hr =>
    exact ⟨_, rfl, by
      simpa [Tree.rule, rhsEntries, factorParens, Tree.tokens, Symbol.lparen, Symbol.rparen,
        Symbol.empty] using Spells.terminal lp hl (.nonterminal e (.terminal rp hr ha))⟩

section Simulation

variable {cfg : Config α} {st st' : State α}

-- The steps keep the production of every group: a group leaving the attribute stack keeps it,
-- and an expansion adds a group.
theorem groupIds_leave {g : Nat} : (st.leave g).groupIds = st.groupIds := by
  funext x
  simp only [State.groupIds, leave_groupTable, Array.getElem?_modify]
  split <;> cases st.groupTable[x]? <;> rfl

theorem groupIds_matchedTo {la : Token} : (st.matchedTo cfg la).groupIds = st.groupIds := by
  simp only [State.matchedTo]
  split
  · rw [groupIds_leave]; funext x; simp [State.groupIds]
  · funext x; simp [State.groupIds]

theorem groupIds_expanded {top : Entry} {rest : List Entry} {p : Production} {r : Nat} (x : Nat) :
    (st.expanded cfg top rest p r).groupIds x =
      if x = st.groupTable.size then some p.id else st.groupIds x := by
  simp only [State.groupIds, expanded_groupTable, Array.getElem?_push]
  split <;> rfl

theorem groupIds_released {id : Int} {g : Nat} {rest : List Entry} {grp : Group} :
    (st.released cfg id g rest grp).groupIds = st.groupIds := by
  unfold State.released
  split
  · funext x; simp [State.groupIds]
  · rw [groupIds_leave]; funext x; simp [State.groupIds]

/-- The input from the cursor on starts with the lookahead. -/
theorem lookahead_of_drop {tok : Token} {x : List Token}
    (h : st.tokens.toList.drop st.cursor = tok :: x) :
    st.lookahead = tok ∧ st.tokens.toList.drop (st.cursor + 1) = x := by
  have hlt : st.cursor < st.tokens.size := by
    refine Nat.lt_of_not_le fun hle => ?_
    rw [List.drop_eq_nil_of_le (by simpa using hle)] at h
    cases h
  rw [drop_cursor hlt, List.cons.injEq] at h
  exact h

/-- **The invariant of a run that reports `total`.** The reports so far, followed by what the
stack spells, are `total`, and the tokens the stack spells are next in the input. -/
def Traced (total : List Report) (st : State α) : Prop :=
  ∃ R w more, Spells st.groupIds st.syms R w ∧ st.tokens.toList.drop st.cursor = w ++ more ∧
    reports st.events.toList ++ R = total

/-- An empty stack spells nothing: the reports are all there. -/
theorem Traced.final {total : List Report} (htr : Traced total st) (hs : st.syms = []) :
    reports st.events.toList = total := by
  obtain ⟨R, w, more, hsp, -, hrep⟩ := htr
  rw [hs] at hsp
  cases hsp
  simpa using hrep

/-- The first state spells the trace of a tree of the input, then the end marker. -/
theorem traced_initial (hT : cfg.table = expressionTable) {tokens : List Token} {t : Tree .expr}
    {eoi : Token} {more : List Token} (hsplit : terminated tokens = t.tokens ++ eoi :: more)
    (heoi : eoi.symbol = .endOfInput) : Traced (t.trace ++ [.matched eoi]) (initial cfg tokens) := by
  have hsyms : (initial cfg tokens).syms = [.nonterminal .expr 0, .terminal .endOfInput] := by
    simp [initial, hT, expressionTable_start]
  refine ⟨t.trace ++ [.matched eoi], t.tokens ++ [eoi], more, ?_, by simp [initial, hsplit],
    by simp [reports, initial]⟩
  rw [hsyms]
  exact .nonterminal t (.terminal eoi heoi .nil)

/-- **The table chooses the production of the tree the input spells.** When a non-terminal heads
a correct-prefix stack and the input from the cursor starts with the tokens of a tree of its kind,
then tokens that the rest of the stack derives, the table selects the tree's production. -/
theorem select_eq_rule (hT : cfg.table = expressionTable) (hpre : Prefixed cfg st) {k : Kind}
    {i : Nat} {rest : List Entry} (hs : st.syms = .nonterminal k i :: rest) (t : Tree k)
    {w more : List Token} (hw : Derives rest (w.map Token.symbol))
    (hdrop : st.tokens.toList.drop st.cursor = t.tokens ++ w ++ more) {p : Production}
    (hp : cfg.table.select k.code st.lookahead.symbol = some p) : p = t.rule := by
  have hf := hpre.followed
  have hb := hpre.bottom
  rw [hs] at hf hb
  -- the rest of the stack spells the end marker at least, so the lookahead is spelled
  have hne : w.map Token.symbol ≠ [] :=
    hb.tail.derives_ne_nil (by rcases hb.of_cons with ⟨h, -⟩ | ⟨l, rfl⟩ <;> simp_all) hw
  obtain ⟨a, y, hay⟩ : ∃ a y, t.tokens ++ w = a :: y := by
    cases hw : t.tokens ++ w with
    | nil => simp_all
    | cons a y => exact ⟨a, y, rfl⟩
  obtain ⟨hla, -⟩ := lookahead_of_drop (hdrop.trans (by rw [hay, List.cons_append]))
  rw [hT, select_expressionTable] at hp
  have he : st.lookahead.symbol :: y.map Token.symbol = t.symbols ++ w.map Token.symbol := by
    rw [hla, ← List.map_cons, ← hay]; simp [Tree.symbols]
  rw [predict_of_derives t hf.1 hw he] at hp
  exact (Option.some.inj hp).symm

variable (hT : cfg.table = expressionTable) (hobs : cfg.observe = true)
include hT hobs

omit hT in
/-- A match keeps the simulation: it reports the token the terminal spells, the next token of
the input. -/
theorem Traced.matched {total : List Report} (htr : Traced total st) {s : Symbol}
    {rest : List Entry} (hs : st.syms = .terminal s :: rest) (held : Option (Literal α)) :
    Traced total (({ st.popTo cfg (.terminal s) rest with held := held } : State α).matchedTo cfg
      st.lookahead) := by
  obtain ⟨R, w, more, hsp, hdrop, hrep⟩ := htr
  rw [hs] at hsp
  cases hsp with
  | @terminal _ _ R' w' tok _ hsp =>
    obtain ⟨hla, hdrop'⟩ := lookahead_of_drop (hdrop.trans (List.cons_append ..))
    have hids : (({ st.popTo cfg (.terminal s) rest with held := held } : State α).matchedTo cfg
        st.lookahead).groupIds = st.groupIds := by
      rw [groupIds_matchedTo]; funext x; simp [State.groupIds]
    refine ⟨R', w', more, ?_, ?_, ?_⟩
    · rw [matchedTo_syms, hids]
      simpa using hsp
    · simpa using hdrop'
    · rw [(reports_matched hobs _ _ _).1, hla, ← hrep]
      simp

/-- An expansion keeps the simulation: the table selects the production of the tree the
non-terminal spells, whose trace now stands above the entries below. -/
theorem Traced.expanded {total : List Report} (hpre : Prefixed cfg st) (htr : Traced total st)
    {k : Kind} {i : Nat} {rest : List Entry} {p : Production}
    (hs : st.syms = .nonterminal k i :: rest)
    (hp : cfg.table.select k.code st.lookahead.symbol = some p) :
    Traced total (st.expanded cfg (.nonterminal k i) rest p i) := by
  obtain ⟨R, w, more, hsp, hdrop, hrep⟩ := htr
  rw [hs] at hsp
  cases hsp with
  | @nonterminal _ _ _ R' w t hsp =>
    have hrule : p = t.rule := select_eq_rule hT hpre hs t hsp.derives hdrop hp
    subst hrule
    -- the groups so far keep their productions, and the new group has the tree's
    have hold : ∀ g id, st.groupIds g = some id →
        (st.expanded cfg (.nonterminal k i) rest t.rule i).groupIds g = some id := fun g id h => by
      have : g < st.groupTable.size := by
        simp only [State.groupIds, Option.map_eq_some_iff] at h
        obtain ⟨grp, hg, -⟩ := h
        exact (Array.getElem?_eq_some_iff.mp hg).1
      rw [groupIds_expanded, if_neg (Nat.ne_of_lt this)]
      exact h
    obtain ⟨inner, htrace, hsp'⟩ :=
      spells_rule (st.expanded cfg (.nonterminal k i) rest t.rule i).groupIds t st.records.size
        st.groupTable.size (by rw [groupIds_expanded, if_pos rfl]) (hsp.mono hold)
    refine ⟨_, t.tokens ++ w, more, by rw [expanded_syms]; exact hsp', by simpa using hdrop, ?_⟩
    rw [(reports_expanded hobs _).1, ← hrep, htrace]
    simp

omit hT in
/-- An action keeps the simulation: it reports its group's production, the one the stack
spelled for it. -/
theorem Traced.executed {total : List Report} (htr : Traced total st) {id : Int} {g o : Nat}
    {rest : List Entry} {grp : Group} {s₂ : State α} (hs : st.syms = .action id g :: rest)
    (hg : st.groupTable[g]? = some grp) (ho : grp.owner = some o)
    (hrun : (runAction cfg grp).run (st.released cfg id g rest grp) = (.ok (), s₂)) :
    Traced total (s₂.closed cfg grp o) := by
  obtain ⟨R, w, more, hsp, hdrop, hrep⟩ := htr
  have hc := Confined.of_runAction ho hrun
  have hids : (s₂.closed cfg grp o).groupIds = st.groupIds := by
    have e : (s₂.closed cfg grp o).groupIds = (st.released cfg id g rest grp).groupIds := by
      funext x
      simp only [State.groupIds, closed_groupTable]
      rw [hc.groupTable]
    rw [e, groupIds_released]
  rw [hs] at hsp
  cases hsp with
  | @action _ _ _ R' _ hid hsp =>
    have hid' : id = grp.prod.id := by
      simp [State.groupIds, hg] at hid
      exact hid.symm
    refine ⟨R', w, more, ?_, ?_, ?_⟩
    · rw [closed_syms, hc.syms, hids]
      unfold State.released
      split <;> simpa using hsp
    · rw [closed_tokens, closed_cursor, hc.tokens, hc.cursor]
      unfold State.released
      split <;> simpa using hdrop
    · rw [(reports_executed hobs hc).1, ← hrep, hid']
      simp

/-- **One step keeps the simulation.** A match reports the token the terminal spells; an
expansion chooses the production of the tree the non-terminal spells, since the table selects
it on the lookahead; an action reports its group's production. -/
theorem Traced.step {total : List Report} (hpre : Prefixed cfg st) (htr : Traced total st)
    (ht : Transition cfg st st') : Traced total st' := by
  cases ht with
  | matched hs _ _ => exact Traced.matched hobs htr hs _
  | expanded hs hp => exact Traced.expanded hT hobs hpre htr hs hp
  | executed hs hg ho _ _ hrun => exact Traced.executed hobs htr hs hg ho hrun

/-- Every state of the run keeps the simulation that its first state starts. -/
theorem traced_of_reachable {tokens : List Token} {total : List Report}
    (h₀ : Traced total (initial cfg tokens)) (h : Reachable cfg tokens st) : Traced total st := by
  -- the correct-prefix invariant rides along: the expansion step needs it
  suffices Prefixed cfg st ∧ Traced total st from this.2
  induction h with
  | initial => exact ⟨prefixed_initial hT tokens, h₀⟩
  | step _ hstep ih =>
    have ht := transition_of_step hstep
    exact ⟨ht.moves.prefixed hT ih.1, ih.2.step hT hobs ih.1 ht⟩

end Simulation

/-! ### The reports of a translation -/

section Translation

variable {cfg : Config α}

/-- Without a limit, translating runs on the step budget. -/
theorem translate_some_fuel (cfg : Config α) (tokens : List Token) (limit : Option Nat)
    (abort : Bool) : ∃ fuel, translate cfg tokens limit abort = translate cfg tokens (some fuel) abort := by
  cases limit with
  | none => exact ⟨stepBudget tokens, rfl⟩
  | some l => exact ⟨l, rfl⟩

/-- Translating runs the steps from the first state, and its ending tells how the run halted:
a finished run does not fail, a failed one fails or aborts, and one out of fuel hits the limit. -/
theorem translate_halts (tokens : List Token) (limit : Option Nat) (abort : Bool) :
    ∃ fuel st, (translate cfg tokens limit abort).steps = st.steps ∧
      (translate cfg tokens limit abort).events = st.events.toList ∧
      ((runSteps cfg fuel (initial cfg tokens) = (.finished, st) ∧
          (translate cfg tokens limit abort).ending.failed = false) ∨
        (∃ e, runSteps cfg fuel (initial cfg tokens) = (.failed e, st) ∧
          (translate cfg tokens limit abort).ending.failed = true) ∨
        (runSteps cfg fuel (initial cfg tokens) = (.exhausted, st) ∧
          (translate cfg tokens limit abort).ending = .stepLimit)) := by
  obtain ⟨fuel, hf⟩ := translate_some_fuel cfg tokens limit abort
  rw [hf]
  rcases hr : runSteps cfg fuel (initial cfg tokens) with ⟨_ | e | _, st⟩
  all_goals refine ⟨fuel, st, by simp [translate, hr], by simp [translate, hr], ?_⟩
  · refine .inl ⟨hr, ?_⟩
    -- a finished run succeeds, whatever the start symbol's record holds
    simp only [translate, hr]
    cases st.records[0]? with
    | none => rfl
    | some x => dsimp only; cases x.attr <;> rfl
  · refine .inr (.inl ⟨e, hr, ?_⟩)
    simp only [translate, hr]
    cases e <;> simp [Ending.failed]
    cases abort <;> rfl
  · exact .inr (.inr ⟨hr, by simp [translate, hr]⟩)

/-- **Every step is popped once and reported once, but a failing one.** With any table and any
limit, the steps of a translation are its popped events, and its reports are one fewer when it
failed. -/
theorem counted_translate (hobs : cfg.observe = true) (tokens : List Token) (limit : Option Nat)
    (abort : Bool) :
    pops (translate cfg tokens limit abort).events = (translate cfg tokens limit abort).steps ∧
      (reports (translate cfg tokens limit abort).events).length +
        (translate cfg tokens limit abort).ending.failed.toNat =
        (translate cfg tokens limit abort).steps := by
  obtain ⟨fuel, st, hsteps, hev, hend⟩ := translate_halts tokens limit abort
  rw [hsteps, hev]
  rcases hend with ⟨hr, hf⟩ | ⟨e, hr, hf⟩ | ⟨hr, hf⟩
  · have hc := counted_of_reachable hobs (Reachable.finished .initial hr).1
    rw [hf]
    exact ⟨hc.popped, by simpa using hc.reported⟩
  · -- the failing step is popped after the last reachable state
    obtain ⟨st₀, h₀, he⟩ := Reachable.failed .initial hr
    have hc := (counted_of_reachable hobs h₀).error hobs he
    rw [hf]
    exact ⟨hc.1, by simpa using hc.2⟩
  · have hc := counted_of_reachable hobs (Reachable.exhausted .initial hr)
    rw [hf]
    exact ⟨hc.popped, by simpa [Ending.failed] using hc.reported⟩

/-- **The reports of a translation follow its parse tree.** With any table, the steps are the
popped events and, but for a failing last step, the reports. With the expression grammar's
table, a translation that succeeds has read the tokens of the one tree of its input up to the end
marker: it chose that tree's productions in pre-order, executed them in post-order and matched
its tokens and then the end marker. -/
theorem reports_follow_parse_tree (hobs : cfg.observe = true) (tokens : List Token) :
    (∀ limit abort,
      pops (translate cfg tokens limit abort).events = (translate cfg tokens limit abort).steps ∧
        (reports (translate cfg tokens limit abort).events).length +
          (translate cfg tokens limit abort).ending.failed.toNat =
          (translate cfg tokens limit abort).steps) ∧
    (cfg.table = expressionTable → ∀ abort v p,
      (translate cfg tokens none abort).ending = .success v p →
      ∃ (t : Tree .expr) (eoi : Token) (more : List Token),
        terminated tokens = t.tokens ++ eoi :: more ∧ eoi.symbol = .endOfInput ∧
        (∀ (t' : Tree .expr) (eoi' : Token) (more' : List Token),
          terminated tokens = t'.tokens ++ eoi' :: more' → eoi'.symbol = .endOfInput → t' = t) ∧
        (translate cfg tokens none abort).cursor = t.tokens.length + 1 ∧
        (reports (translate cfg tokens none abort).events).filterMap Report.chosenId? = t.preorder ∧
        (reports (translate cfg tokens none abort).events).filterMap Report.executedId? =
          t.postorder ∧
        (reports (translate cfg tokens none abort).events).filterMap Report.token? =
          t.tokens ++ [eoi]) := by
  refine ⟨counted_translate hobs tokens, fun hT abort v p hend => ?_⟩
  -- the run accepted, so a tree spells the input up to an end marker
  obtain ⟨t, eoi, more, hsplit, heoi, -, -, -, hcur⟩ :=
    (@translate_outcome α cfg hT tokens abort).resolve_right fun ⟨_, _, _, _, _, hfail⟩ => by
      rw [hend] at hfail
      cases hfail
  -- and the run ended on an empty stack, where the simulation has reported everything
  obtain ⟨fuel, st, -, hev, hr⟩ := @translate_halts α cfg tokens none abort
  rcases hr with ⟨hr, -⟩ | ⟨e, -, hf⟩ | ⟨-, hf⟩
  · obtain ⟨hreach, hsyms⟩ := Reachable.finished .initial hr
    have hrep := (traced_of_reachable hT hobs (traced_initial hT hsplit heoi) hreach).final hsyms
    refine ⟨t, eoi, more, hsplit, heoi, fun t' eoi' more' h' he' =>
      Tree.eq_of_terminated (h'.symm.trans hsplit) he' heoi, hcur, ?_, ?_, ?_⟩ <;>
    rw [hev, hrep, List.filterMap_append]
    · simp [Tree.trace_chosen, Report.chosenId?]
    · simp [Tree.trace_executed, Report.executedId?]
    · simp [Tree.trace_tokens, Report.token?]
  · rw [hend] at hf
    cases hf
  · rw [hend] at hf
    cases hf

/-- The expression grammar's table, observed, on `1 + x`. -/
theorem observed_reports_follow_parse_tree :
    let cfg : Config Float := ⟨Arith.float, expressionTable, true, [], true⟩
    let tokens : List Token := [⟨"1", .number, 1⟩, ⟨"+", .plus, 1⟩, ⟨"x", .identifier, 1⟩]
    cfg.observe = true ∧
    (∀ limit abort,
      pops (translate cfg tokens limit abort).events = (translate cfg tokens limit abort).steps ∧
        (reports (translate cfg tokens limit abort).events).length +
          (translate cfg tokens limit abort).ending.failed.toNat =
          (translate cfg tokens limit abort).steps) ∧
    (cfg.table = expressionTable → ∀ abort v p,
      (translate cfg tokens none abort).ending = .success v p →
      ∃ (t : Tree .expr) (eoi : Token) (more : List Token),
        terminated tokens = t.tokens ++ eoi :: more ∧ eoi.symbol = .endOfInput ∧
        (∀ (t' : Tree .expr) (eoi' : Token) (more' : List Token),
          terminated tokens = t'.tokens ++ eoi' :: more' → eoi'.symbol = .endOfInput → t' = t) ∧
        (translate cfg tokens none abort).cursor = t.tokens.length + 1 ∧
        (reports (translate cfg tokens none abort).events).filterMap Report.chosenId? = t.preorder ∧
        (reports (translate cfg tokens none abort).events).filterMap Report.executedId? =
          t.postorder ∧
        (reports (translate cfg tokens none abort).events).filterMap Report.token? =
          t.tokens ++ [eoi]) := by
  intro cfg tokens
  exact ⟨rfl, reports_follow_parse_tree rfl tokens⟩

end Translation

end ExprTranslate
