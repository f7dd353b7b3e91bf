import ExprTranslate.Translate.Action
/-!
# The predictive translator

The parser starts with the end marker and the start symbol on the symbol
stack, the start symbol's record in the bottom group of the attribute stack,
and then pops one symbol at a time:

* a terminal must equal the lookahead's symbol; a matched number or
  identifier is held for its action; the cursor moves on; if the group on
  top of the attribute stack is then fully synthesized, it leaves the stack;
* a non-terminal is replaced by the production the table selects for the
  lookahead: its action symbol, then its right-hand side without `ε`, last
  symbol first; it gets a fresh span at the cursor, and a new group of fresh
  records for the non-terminals of the right-hand side goes onto the
  attribute stack (an ε-production's group is done at once);
* an action symbol takes its group off the attribute stack if it is still
  there (it must then be on top), checks that its owner belongs to the group
  now on top, runs the production's action, and closes the owner's span at
  the cursor.

The parse ends when the symbol stack is empty, or at the first error. A
token sequence that does not end with the end marker gets one, on the line
of its last token.
-/

namespace ExprTranslate

variable {α : Type}

/-- Whether every member of a group is fully synthesized. -/
def State.groupDone (st : State α) (g : Nat) : Bool :=
  match st.groupTable[g]? with
  | some grp => grp.members.all fun i => (st.records[i]?.map (·.resolved)).getD false
  | none => false

/-- Takes the group on top of the attribute stack off it. -/
def popGroup (g : Nat) : Run α Unit :=
  modify fun st =>
    { st with groups := st.groups.drop 1,
              groupTable := st.groupTable.modify g fun grp => { grp with popped := true } }

/-- Matches a terminal against the lookahead. -/
def matchTerminal (cfg : Config α) (s : Symbol) : Run α Unit := do
  let (la, cursor) ← (fun st => (st.lookahead, st.cursor)) <$> get
  if la.symbol ≠ s then
    throw (.syntaxError ⟨cursor, la, [s], false, .expr⟩)
  if la.symbol = .number ∨ la.symbol = .identifier then hold cfg la cursor
  note cfg fun _ => .matched la
  modify fun st => { st with cursor := st.cursor + 1 }
  let done ← (fun st => st.topGroup.filter st.groupDone) <$> get
  if let some g := done then popGroup g

/-- The entries a production pushes for its right-hand side, first symbol first: terminals
other than `ε`, and non-terminals with the records numbered from `next` on. -/
def rhsEntries : List GSym → Nat → List Entry
  | [], _ => []
  | .nonterminal k :: rest, next => .nonterminal k next :: rhsEntries rest (next + 1)
  | .terminal s :: rest, next =>
    if s = .empty then rhsEntries rest next else .terminal s :: rhsEntries rest next
  | .action id :: rest, next => .action id 0 :: rhsEntries rest next

/-- The state after expanding the non-terminal with record `inst` by `prod` at `cursor`. -/
def State.expandBy (st : State α) (prod : Production) (inst cursor : Nat) : State α :=
  let first := st.records.size
  let kinds := prod.nonTerminals
  let g := st.groupTable.size
  let grp : Group :=
    { prod, owner := some inst, members := (List.range kinds.length).map (first + ·),
      popped := prod.isEpsilon }
  let records := st.records.modify inst fun r => { r with span := Span.atPos cursor }
  { st with
    records := kinds.foldl (fun rs k => rs.push (Instance.fresh k cursor)) records
    groupTable := st.groupTable.push grp
    syms := rhsEntries prod.rhs first ++ Entry.action prod.id g :: st.syms
    groups := if prod.isEpsilon then st.groups else g :: st.groups }

/-- Expands a non-terminal by the production selected for the lookahead. -/
def expand (cfg : Config α) (k : Kind) (inst : Nat) : Run α Unit := do
  let (la, cursor) ← (fun st => (st.lookahead, st.cursor)) <$> get
  match cfg.table.select k.code la.symbol with
  | none => throw (.syntaxError ⟨cursor, la, cfg.table.expected k, true, k⟩)
  | some prod =>
    note cfg fun _ => .chosen prod
    modify fun st => st.expandBy prod inst cursor

/-- The record of the owner and the records of the groups on the attribute stack. -/
def State.actionEvent (st : State α) (grp : Group) (o : Nat) : Event α :=
  let owner := (st.records[o]?).getD (Instance.fresh grp.prod.lhs 0)
  let groups := st.groups.map fun gi =>
    ((st.groupTable[gi]?.map (·.members)).getD []).filterMap fun i => st.records[i]?
  .executed grp.prod owner groups

/-- Whether the group on top of the attribute stack holds a record. -/
def State.topHolds (st : State α) (o : Option Nat) : Bool :=
  match st.topGroup, o with
  | some e, some o => ((st.groupTable[e]?.map (·.members.contains o))).getD false
  | _, _ => false

/-- Executes the action of a completed production. -/
def execute (cfg : Config α) (g : Nat) : Run α Unit := do
  let grp ← getGroup g
  if !grp.popped then
    if (← get).topGroup ≠ some g then
      throw (.internal ⟨grp.prod.id, "attribute group is not on top of the attribute stack"⟩)
    popGroup g
  if !((← get).topHolds grp.owner) then
    throw (.internal ⟨grp.prod.id, "owner is not part of the enclosing attribute group"⟩)
  runAction cfg grp
  if let some o := grp.owner then
    modify fun st =>
      { st with records := st.records.modify o fun r => { r with span := r.span.close st.cursor } }
    note cfg fun st => st.actionEvent grp o

/-- Pops the top symbol and processes it; `false` when the stack was empty. -/
def step (cfg : Config α) : Run α Bool := do
  let top ← modifyGet fun st =>
    match st.syms with
    | [] => (none, st)
    | top :: rest => (some top, { st with syms := rest, steps := st.steps + 1 })
  match top with
  | none => pure false
  | some top =>
    note cfg fun st => .popped top st.lookahead st.cursor st.syms st.groups
    match top with
    | .terminal s => matchTerminal cfg s
    | .nonterminal k inst => expand cfg k inst
    | .action _ g => execute cfg g
    pure true

/-- How a run ended: the stack emptied, an error, or the step budget ran out. -/
inductive Halt
  | finished
  | failed (e : TranslateError)
  | exhausted

/-- Runs steps until the stack is empty, an error occurs, or `fuel` steps have been taken. -/
def runSteps (cfg : Config α) : Nat → State α → Halt × State α
  | 0, st => if st.syms.isEmpty then (.finished, st) else (.exhausted, st)
  | fuel + 1, st =>
    match (step cfg).run st with
    | (.ok true, st') => runSteps cfg fuel st'
    | (.ok false, st') => (.finished, st')
    | (.error e, st') => (.failed e, st')

/-- The tokens with an end marker appended unless the last one is one already; it takes the
line of the last token, or 0. -/
def terminated (tokens : List Token) : List Token :=
  match tokens.getLast? with
  | some t => if t.symbol = .endOfInput then tokens else tokens ++ [Token.endMarker t.line]
  | none => [Token.endMarker 0]

/-- The state before the first step: end marker and start symbol on the stack, the start
symbol's record alone in the bottom group. -/
def initial (cfg : Config α) (tokens : List Token) : State α :=
  let start := cfg.table.grammar.start
  { tokens := (terminated tokens).toArray
    syms := [.nonterminal start 0, .terminal .endOfInput]
    groups := [0]
    records := #[Instance.fresh start 0]
    groupTable := #[{ prod := ⟨0, .expr, []⟩, owner := none, members := [0] }] }

/-- The steps translating with the expression grammar may take at most; the parse of a
valid input takes fewer than twenty steps a token. -/
def stepBudget (tokens : List Token) : Nat := 64 * (tokens.length + 2)

/-- How translating ended. -/
inductive Ending (α : Type)
  | success (value : α) (place : String)
  | failure (e : TranslateError)
  /-- More steps were needed than allowed. -/
  | stepLimit
  /-- An internal error, when the configuration turns internal errors into aborts. -/
  | aborted (msg : String)

/-- What translating gives: the code emitted (also the partial code of a failed one), how
many temporaries and steps it took, the final sizes of the stacks and cursor, the events, and
how it ended. -/
structure Translated (α : Type) where
  code : List Instr
  temporaries : Nat
  steps : Nat
  depth : Nat × Nat
  cursor : Nat
  events : List (Event α)
  ending : Ending α

/-- Translates tokens. With a step limit, a run that needs more steps ends with `stepLimit`;
without one the budget is `stepBudget`. With `abortOnInternal`, an internal error aborts. -/
def translate (cfg : Config α) (tokens : List Token) (limit : Option Nat := none)
    (abortOnInternal : Bool := false) : Translated α :=
  let fuel := match limit with
    | some l => l
    | none => stepBudget tokens
  let (halt, st) := runSteps cfg fuel (initial cfg tokens)
  let ending : Ending α := match halt with
    | .finished =>
      match st.records[0]? with
      | some r =>
        match r.attr with
        | some (v, p) => .success v p
        | none => .success cfg.arith.zero ""
      | none => .success cfg.arith.zero ""
    | .failed (.internal e) => if abortOnInternal then .aborted e.message else .failure (.internal e)
    | .failed e => .failure e
    | .exhausted => .stepLimit
  { code := st.code.toList, temporaries := st.temps, steps := st.steps, depth := st.depth,
    cursor := st.cursor, events := st.events.toList, ending }

end ExprTranslate
