import ExprTranslate.Proofs.Translation
import ExprTranslate.Proofs.Unambiguity
/-!
# Viable prefixes and the stack

A predictive parser never consumes a token that cannot start the rest of a valid input, and
stops at the first one that cannot. The symbol stack says why: what it derives is exactly what
may follow the tokens consumed so far.

* `Derives syms y`: the stack `syms` derives the symbols `y`, a non-terminal deriving the symbols
  of any tree of its kind;
* `Complete x`: the symbols of an expression followed by the end marker; `Viable v`: the start
  of such an input. These are the sentences of the expression grammar and of its EBNF
  description, and their prefixes (`complete_iff_generates`, `viable_iff_matches`);
* `Prefixed cfg st`: the invariant of a run. Whatever the stack derives completes the consumed
  tokens (`sound`), every completion that goes on with the lookahead is derived by the stack
  (`complete`), and every non-terminal on the stack is followed by symbols that may follow its
  kind (`followed`), which is what lets the table choose an empty production on the lookahead;
* `Moves.prefixed`, `Steps.prefixed`: one step, and so every run, keeps the invariant;
* `Prefixed.viable`, `Prefixed.not_viable`: the consumed tokens are a viable prefix, and a state
  stuck on a syntax error has a lookahead that no valid input continues them with.
-/

namespace ExprTranslate

/-! ### What a stack derives -/

/-- The symbols a stack derives, top first: an action derives nothing, a terminal itself, and a
non-terminal the symbols of any tree of its kind. -/
inductive Derives : List Entry → List Symbol → Prop
  | nil : Derives [] []
  | terminal {s : Symbol} {rest : List Entry} {y : List Symbol} :
      Derives rest y → Derives (.terminal s :: rest) (s :: y)
  | nonterminal {k : Kind} {i : Nat} {rest : List Entry} {y : List Symbol} (t : Tree k) :
      Derives rest y → Derives (.nonterminal k i :: rest) (t.symbols ++ y)
  | action {id : Int} {g : Nat} {rest : List Entry} {y : List Symbol} :
      Derives rest y → Derives (.action id g :: rest) y

namespace Derives

variable {rest : List Entry} {y : List Symbol}

theorem terminal_iff {s : Symbol} :
    Derives (.terminal s :: rest) y ↔ ∃ y', y = s :: y' ∧ Derives rest y' := by
  constructor
  · rintro (_ | ⟨h⟩)
    exact ⟨_, rfl, h⟩
  · rintro ⟨y', rfl, h⟩
    exact .terminal h

theorem nonterminal_iff {k : Kind} {i : Nat} :
    Derives (.nonterminal k i :: rest) y ↔ ∃ (t : Tree k) (y' : List Symbol),
      y = t.symbols ++ y' ∧ Derives rest y' := by
  constructor
  · rintro (_ | _ | ⟨t, h⟩)
    exact ⟨t, _, rfl, h⟩
  · rintro ⟨t, y', rfl, h⟩
    exact .nonterminal t h

theorem action_iff {id : Int} {g : Nat} : Derives (.action id g :: rest) y ↔ Derives rest y := by
  constructor
  · rintro (_ | _ | _ | h)
    exact h
  · exact .action

/-- A stack in two parts derives what the parts derive, one after the other. -/
theorem append_iff {l : List Entry} :
    Derives (l ++ rest) y ↔ ∃ x z, y = x ++ z ∧ Derives l x ∧ Derives rest z := by
  induction l generalizing y with
  | nil =>
    constructor
    · exact fun h => ⟨[], y, rfl, .nil, h⟩
    · rintro ⟨x, z, rfl, hx, hz⟩
      cases hx
      exact hz
  | cons e l ih =>
    cases e with
    | terminal s =>
      simp only [List.cons_append, terminal_iff, ih]
      constructor
      · rintro ⟨y', rfl, x, z, rfl, hx, hz⟩
        exact ⟨s :: x, z, rfl, ⟨x, rfl, hx⟩, hz⟩
      · rintro ⟨x, z, rfl, ⟨x', rfl, hx'⟩, hz⟩
        exact ⟨x' ++ z, rfl, x', z, rfl, hx', hz⟩
    | nonterminal k i =>
      simp only [List.cons_append, nonterminal_iff, ih]
      constructor
      · rintro ⟨t, y', rfl, x, z, rfl, hx, hz⟩
        exact ⟨t.symbols ++ x, z, by simp, ⟨t, x, rfl, hx⟩, hz⟩
      · rintro ⟨x, z, rfl, ⟨t, x', rfl, hx'⟩, hz⟩
        exact ⟨t, x' ++ z, by simp, x', z, rfl, hx', hz⟩
    | action id g => simp only [List.cons_append, action_iff, ih]

end Derives

/-- A tree of each kind, to show that every non-terminal derives something: `x` for an
expression, a term and a factor, `+` and `*` for the operators, nothing for the others. -/
def Tree.some : (k : Kind) → Tree k
  | .expr =>
    .exprRule .signNone (.termRule (.factorIdentifier ⟨"x", .identifier, 0⟩ rfl) .termTailEnd)
      .exprTailEnd
  | .term => .termRule (.factorIdentifier ⟨"x", .identifier, 0⟩ rfl) .termTailEnd
  | .factor => .factorIdentifier ⟨"x", .identifier, 0⟩ rfl
  | .sign => .signNone
  | .exprTail => .exprTailEnd
  | .termTail => .termTailEnd
  | .addOp => .addOpPlus ⟨"+", .plus, 0⟩ rfl
  | .mulOp => .mulOpTimes ⟨"*", .times, 0⟩ rfl

/-- Every stack derives something. -/
theorem Derives.exists (syms : List Entry) : ∃ y, Derives syms y := by
  induction syms with
  | nil => exact ⟨[], .nil⟩
  | cons e rest ih =>
    obtain ⟨y, hy⟩ := ih
    cases e with
    | terminal s => exact ⟨_, .terminal hy⟩
    | nonterminal k i => exact ⟨_, .nonterminal (Tree.some k) hy⟩
    | action id g => exact ⟨_, .action hy⟩

/-! ### Valid inputs and their prefixes -/

/-- A complete input: the symbols of an expression, then the end marker. -/
def Complete (x : List Symbol) : Prop := ∃ t : Tree .expr, x = t.symbols ++ [.endOfInput]

/-- A viable prefix: the start of a complete input. -/
def Viable (v : List Symbol) : Prop := ∃ y, Complete (v ++ y)

theorem Viable.of_append {v w : List Symbol} (h : Viable (v ++ w)) : Viable v := by
  obtain ⟨y, hy⟩ := h
  exact ⟨w ++ y, by simpa using hy⟩

theorem Tree.endOfInput_not_mem_symbols {k : Kind} (t : Tree k) :
    Symbol.endOfInput ∉ t.symbols := by
  intro h
  obtain ⟨tok, htok, he⟩ := List.mem_map.mp h
  exact t.endOfInput_not_mem htok he

/-- The end marker ends a complete input: nothing comes after an end marker in it. -/
theorem Complete.eq_nil_of_endOfInput {v y : List Symbol} (h : Complete (v ++ .endOfInput :: y)) :
    y = [] := by
  obtain ⟨t, ht⟩ := h
  have hlen := congrArg List.length ht
  simp only [List.length_append, List.length_cons, List.length_nil] at hlen
  -- an end marker before the last symbol would lie inside the expression
  refine List.eq_nil_of_length_eq_zero (Nat.eq_zero_of_not_pos fun hy => ?_)
  have hat : (v ++ .endOfInput :: y)[v.length]? = some .endOfInput := by simp
  rw [ht, List.getElem?_append_left (by omega)] at hat
  exact t.endOfInput_not_mem_symbols (List.mem_of_getElem? hat)

/-! ### What comes first and what follows -/

/-- The kinds that derive the empty string: the sign and the tails of sums and products. -/
def Kind.nullable : Kind → Bool
  | .sign | .exprTail | .termTail => true
  | .expr | .term | .factor | .addOp | .mulOp => false

/-- The symbols that may follow a non-terminal of each kind in a complete input: the FOLLOW
sets of the expression grammar. -/
def Kind.follow : Kind → List Symbol
  | .expr | .exprTail => [.rparen, .endOfInput]
  | .term | .termTail => [.plus, .minus, .rparen, .endOfInput]
  | .factor => [.plus, .minus, .times, .slash, .rparen, .endOfInput]
  | .sign | .addOp | .mulOp => [.lparen, .number, .identifier]

/-- The symbols start with a symbol of `S`. -/
def HeadIn (S z : List Symbol) : Prop := ∃ b ∈ z.head?, b ∈ S

theorem HeadIn.mono {S S' z : List Symbol} (h : HeadIn S z) (hs : S ⊆ S') : HeadIn S' z := by
  obtain ⟨b, hb, hbs⟩ := h
  exact ⟨b, hb, hs hbs⟩

/-- The symbols that what the entries derive, followed by symbols that start with one of `T`,
starts with. -/
def entriesFirst : List Entry → List Symbol → List Symbol
  | [], T => T
  | .terminal s :: _, _ => [s]
  | .nonterminal k _ :: rest, T => k.first ++ if k.nullable then entriesFirst rest T else []
  | .action _ _ :: rest, T => entriesFirst rest T

namespace Tree

variable {k : Kind}

theorem head_symbols_mem_first (t : Tree k) : ∀ b ∈ t.symbols.head?, b ∈ k.first := by
  intro b hb
  cases ht : t.tokens with
  | nil => simp [symbols, ht] at hb
  | cons tok toks =>
    simp only [symbols, ht, List.map_cons, List.head?_cons, Option.mem_def,
      Option.some.injEq] at hb
    exact hb ▸ head_mem_first t tok (by simp [ht])

/-- Only the kinds that derive the empty string have trees without tokens. -/
theorem nullable_of_symbols_eq_nil (t : Tree k) (h : t.symbols = []) : k.nullable = true := by
  cases t with
  | signNone | exprTailEnd | termTailEnd => rfl
  | exprRule _ t _ | termRule t _ | exprTailMore _ t _ | termTailMore _ t _ =>
    simp only [symbols, tokens, List.map_append, List.append_eq_nil_iff, List.map_eq_nil_iff] at h
    exact absurd (by simp_all) (tokens_ne_nil t (by simp))
  | signAddOp a =>
    simp only [symbols, tokens, List.map_eq_nil_iff] at h
    exact absurd h (op_ne_nil a (.inl rfl))
  | _ => simp [symbols, tokens] at h

/-- A tree without tokens is one of an empty production. -/
theorem isEpsilon_of_symbols_eq_nil (t : Tree k) (h : t.symbols = []) : t.rule.isEpsilon = true := by
  cases t with
  | signNone | exprTailEnd | termTailEnd => rfl
  | exprRule _ t _ | termRule t _ | exprTailMore _ t _ | termTailMore _ t _ =>
    simp only [symbols, tokens, List.map_append, List.append_eq_nil_iff, List.map_eq_nil_iff] at h
    exact absurd (by simp_all) (tokens_ne_nil t (by simp))
  | signAddOp a =>
    simp only [symbols, tokens, List.map_eq_nil_iff] at h
    exact absurd h (op_ne_nil a (.inl rfl))
  | _ => simp [symbols, tokens] at h

end Tree

/-- What entries derive, followed by symbols that start with one of `T`, starts with a symbol
of `entriesFirst`. -/
theorem Derives.headIn {l : List Entry} {x z : List Symbol} {T : List Symbol} (hx : Derives l x)
    (hz : HeadIn T z) : HeadIn (entriesFirst l T) (x ++ z) := by
  induction hx with
  | nil => exact hz
  | terminal _ => exact ⟨_, rfl, List.mem_singleton_self _⟩
  | @nonterminal k _ _ y t _ ih =>
    cases hs : t.symbols with
    | nil =>
      -- an empty tree: its kind is nullable, and what follows comes first
      have hn := t.nullable_of_symbols_eq_nil hs
      simp only [List.nil_append, entriesFirst, hn, if_true]
      exact ih.mono (List.subset_append_right _ _)
    | cons b bs =>
      have hb := t.head_symbols_mem_first b (by simp [hs])
      exact ⟨b, by simp, List.mem_append_left _ hb⟩
  | action _ ih => exact ih

/-- Entries whose first symbols, with `T` after them, are among `S`, put above a stack whose
derivations start with one of `T`, derive only what starts with one of `S`. -/
theorem headIn_of_append {l rest : List Entry} {S T : List Symbol} (hl : entriesFirst l T ⊆ S)
    (hrest : ∀ z, Derives rest z → HeadIn T z) : ∀ z, Derives (l ++ rest) z → HeadIn S z := by
  intro z hz
  obtain ⟨x, z', rfl, hx, hz'⟩ := Derives.append_iff.mp hz
  exact (hx.headIn (hrest z' hz')).mono hl

/-- Every non-terminal of the stack is followed by entries whose derivations start with a
symbol that may follow its kind. -/
def Followed : List Entry → Prop
  | [] => True
  | .terminal _ :: rest => Followed rest
  | .nonterminal k _ :: rest => (∀ z, Derives rest z → HeadIn k.follow z) ∧ Followed rest
  | .action _ _ :: rest => Followed rest

/-- Whether every non-terminal among the entries is followed by entries, and then by symbols
starting with one of `T`, whose first symbols may follow its kind. -/
def followsWithin : List Entry → List Symbol → Bool
  | [], _ => true
  | .nonterminal k _ :: rest, T => (entriesFirst rest T).all (· ∈ k.follow) && followsWithin rest T
  | .terminal _ :: rest, T | .action _ _ :: rest, T => followsWithin rest T

/-- Entries checked by `followsWithin`, put above a followed stack whose derivations start with
one of `T`, make a followed stack. -/
theorem Followed.append {l rest : List Entry} {T : List Symbol} (hl : followsWithin l T = true)
    (hrest : ∀ z, Derives rest z → HeadIn T z) (hf : Followed rest) : Followed (l ++ rest) := by
  induction l with
  | nil => exact hf
  | cons e l ih =>
    cases e with
    | nonterminal k i =>
      simp only [followsWithin, Bool.and_eq_true, List.all_eq_true, decide_eq_true_eq] at hl
      exact ⟨headIn_of_append hl.1 hrest, ih hl.2⟩
    | terminal s => exact ih hl
    | action id g => exact ih hl

/-! ### The table and the trees -/

section Table

open Production

variable {k : Kind}

theorem Derives.nil_iff {y : List Symbol} : Derives [] y ↔ y = [] := by
  constructor
  · rintro ⟨⟩
    rfl
  · rintro rfl
    exact .nil

/-- The table selects the production at the root of a tree with tokens by its first symbol. -/
theorem predict_of_head (t : Tree k) {a : Symbol} (ha : a ∈ t.symbols.head?) :
    predict k a = some t.rule := by
  have hk := t.head_symbols_mem_first a ha
  cases t with
  | factorNumber tok h | factorIdentifier tok h | addOpPlus tok h | addOpMinus tok h
  | mulOpTimes tok h | mulOpSlash tok h | factorParens tok h =>
    -- a leaf, or a parenthesis, is chosen by its own token
    simp only [Tree.symbols, Tree.tokens, List.cons_append, List.map_cons, List.head?_cons,
      Option.mem_def, Option.some.injEq] at ha
    subst ha
    rw [h]
    rfl
  | signNone | exprTailEnd | termTailEnd => simp [Tree.symbols, Tree.tokens] at ha
  | exprRule => exact (by decide : ∀ b ∈ Kind.expr.first, predict .expr b = some exprRule) a hk
  | signAddOp => exact (by decide : ∀ b ∈ Kind.sign.first, predict .sign b = some signAddOp) a hk
  | termRule => exact (by decide : ∀ b ∈ Kind.term.first, predict .term b = some termRule) a hk
  | exprTailMore =>
    exact (by decide : ∀ b ∈ Kind.exprTail.first, predict .exprTail b = some exprTailMore) a hk
  | termTailMore =>
    exact (by decide : ∀ b ∈ Kind.termTail.first, predict .termTail b = some termTailMore) a hk

/-- The table selects an empty production on a symbol that may follow its kind. -/
theorem predict_of_follow (t : Tree k) (hs : t.symbols = []) {a : Symbol} (ha : a ∈ k.follow) :
    predict k a = some t.rule := by
  cases t with
  | signNone => exact (by decide : ∀ b ∈ Kind.sign.follow, predict .sign b = some signNone) a ha
  | exprTailEnd =>
    exact (by decide : ∀ b ∈ Kind.exprTail.follow, predict .exprTail b = some exprTailEnd) a ha
  | termTailEnd =>
    exact (by decide : ∀ b ∈ Kind.termTail.follow, predict .termTail b = some termTailEnd) a ha
  | _ => exact absurd (Tree.isEpsilon_of_symbols_eq_nil _ hs) Bool.false_ne_true

/-- The entries a tree's production pushes, with the production's action below them, derive
the tree's symbols. -/
theorem derives_rule (t : Tree k) (f : Nat) (id : Int) (g : Nat) {rest : List Entry}
    {z : List Symbol} (hz : Derives rest z) :
    Derives (rhsEntries t.rule.rhs f ++ .action id g :: rest) (t.symbols ++ z) := by
  cases t with
  | exprRule s t e | exprTailMore s t e | termTailMore s t e =>
    simpa [Tree.rule, rhsEntries, exprRule, exprTailMore, termTailMore, Tree.symbols,
      Tree.tokens] using
      Derives.nonterminal s (.nonterminal t (.nonterminal e
        (Derives.action hz : Derives (.action id g :: rest) z)))
  | termRule f e =>
    simpa [Tree.rule, rhsEntries, termRule, Tree.symbols, Tree.tokens] using
      Derives.nonterminal f (.nonterminal e (Derives.action hz : Derives (.action id g :: rest) z))
  | signAddOp a =>
    simpa [Tree.rule, rhsEntries, signAddOp, Tree.symbols, Tree.tokens] using
      Derives.nonterminal a (Derives.action hz : Derives (.action id g :: rest) z)
  | signNone | exprTailEnd | termTailEnd =>
    simpa [Tree.rule, rhsEntries, signNone, exprTailEnd, termTailEnd, Tree.symbols,
      Tree.tokens] using (Derives.action hz : Derives (.action id g :: rest) z)
  | factorNumber tok h | factorIdentifier tok h | addOpPlus tok h | addOpMinus tok h
  | mulOpTimes tok h | mulOpSlash tok h =>
    have ht : Derives (.terminal tok.symbol :: .action id g :: rest) (tok.symbol :: z) :=
      .terminal (.action hz)
    simpa [Tree.rule, rhsEntries, factorNumber, factorIdentifier, addOpPlus, addOpMinus,
      mulOpTimes, mulOpSlash, Tree.symbols, Tree.tokens, h, Symbol.number, Symbol.identifier,
      Symbol.plus, Symbol.minus, Symbol.times, Symbol.slash, Symbol.empty] using ht
  | factorParens lp hl e rp hr =>
    have ht : Derives (.terminal lp.symbol :: .nonterminal .expr f :: .terminal rp.symbol ::
        .action id g :: rest) (lp.symbol :: (e.symbols ++ rp.symbol :: z)) :=
      .terminal (.nonterminal e (.terminal (.action hz)))
    simpa [Tree.rule, rhsEntries, factorParens, Tree.symbols, Tree.tokens, hl, hr,
      Symbol.lparen, Symbol.rparen, Symbol.empty] using ht

/-- What the entries of a production of `k` derive is spelled by a tree of `k`. -/
theorem tree_of_rhs {a : Symbol} {p : Production} (hp : predict k a = some p) (f : Nat)
    {x : List Symbol} (h : Derives (rhsEntries p.rhs f) x) : ∃ t : Tree k, t.symbols = x := by
  -- the production is one of the kind's; its entries derive the symbols of its members
  cases k <;> simp only [predict] at hp <;> repeat' split at hp
  all_goals cases hp
  all_goals simp only [rhsEntries, exprRule, signAddOp, signNone, exprTailMore, exprTailEnd,
    termRule, termTailMore, termTailEnd, factorNumber, factorParens, factorIdentifier, addOpPlus,
    addOpMinus, mulOpTimes, mulOpSlash, Derives.nonterminal_iff, Derives.nil_iff, if_true] at h
  case expr.isTrue =>
    obtain ⟨s, _, rfl, t, _, rfl, e, _, rfl, rfl⟩ := h
    exact ⟨.exprRule s t e, by simp [Tree.symbols, Tree.tokens]⟩
  case sign.isTrue =>
    obtain ⟨o, _, rfl, rfl⟩ := h
    exact ⟨.signAddOp o, by simp [Tree.symbols, Tree.tokens]⟩
  case exprTail.isTrue =>
    obtain ⟨o, _, rfl, t, _, rfl, e, _, rfl, rfl⟩ := h
    exact ⟨.exprTailMore o t e, by simp [Tree.symbols, Tree.tokens]⟩
  case term.isTrue =>
    obtain ⟨f, _, rfl, e, _, rfl, rfl⟩ := h
    exact ⟨.termRule f e, by simp [Tree.symbols, Tree.tokens]⟩
  case termTail.isTrue =>
    obtain ⟨o, _, rfl, t, _, rfl, e, _, rfl, rfl⟩ := h
    exact ⟨.termTailMore o t e, by simp [Tree.symbols, Tree.tokens]⟩
  case sign.isFalse.isTrue => exact ⟨.signNone, by simp [h, Tree.symbols, Tree.tokens]⟩
  case exprTail.isFalse.isTrue => exact ⟨.exprTailEnd, by simp [h, Tree.symbols, Tree.tokens]⟩
  case termTail.isFalse.isTrue => exact ⟨.termTailEnd, by simp [h, Tree.symbols, Tree.tokens]⟩
  -- the leaves: the entries are the terminals themselves, and any token of the symbol will do
  all_goals simp only [Symbol.number, Symbol.identifier, Symbol.lparen, Symbol.rparen,
    Symbol.plus, Symbol.minus, Symbol.times, Symbol.slash, Symbol.empty, Symbol.mk.injEq,
    Int.reduceEq, ↓reduceIte, Derives.terminal_iff, Derives.nonterminal_iff, Derives.nil_iff] at h
  case factor.isTrue =>
    obtain ⟨_, rfl, rfl⟩ := h
    exact ⟨.factorNumber ⟨"", .number, 0⟩ rfl, rfl⟩
  case factor.isFalse.isTrue =>
    obtain ⟨_, rfl, e, _, rfl, _, rfl, rfl⟩ := h
    exact ⟨.factorParens ⟨"(", .lparen, 0⟩ rfl e ⟨")", .rparen, 0⟩ rfl,
      by simp [Tree.symbols, Tree.tokens, Symbol.lparen, Symbol.rparen]⟩
  case factor.isFalse.isFalse.isTrue =>
    obtain ⟨_, rfl, rfl⟩ := h
    exact ⟨.factorIdentifier ⟨"", .identifier, 0⟩ rfl, rfl⟩
  case addOp.isTrue =>
    obtain ⟨_, rfl, rfl⟩ := h
    exact ⟨.addOpPlus ⟨"+", .plus, 0⟩ rfl, rfl⟩
  case addOp.isFalse.isTrue =>
    obtain ⟨_, rfl, rfl⟩ := h
    exact ⟨.addOpMinus ⟨"-", .minus, 0⟩ rfl, rfl⟩
  case mulOp.isTrue =>
    obtain ⟨_, rfl, rfl⟩ := h
    exact ⟨.mulOpTimes ⟨"*", .times, 0⟩ rfl, rfl⟩
  case mulOp.isFalse.isTrue =>
    obtain ⟨_, rfl, rfl⟩ := h
    exact ⟨.mulOpSlash ⟨"/", .slash, 0⟩ rfl, rfl⟩

/-- The productions of each kind. -/
def Kind.rules : Kind → List Production
  | .expr => [exprRule]
  | .sign => [signAddOp, signNone]
  | .exprTail => [exprTailMore, exprTailEnd]
  | .term => [termRule]
  | .termTail => [termTailMore, termTailEnd]
  | .factor => [factorNumber, factorParens, factorIdentifier]
  | .addOp => [addOpPlus, addOpMinus]
  | .mulOp => [mulOpTimes, mulOpSlash]

theorem mem_rules_of_predict {a : Symbol} {p : Production} (hp : predict k a = some p) :
    p ∈ k.rules := by
  cases k <;> simp only [predict] at hp <;> repeat' split at hp
  all_goals cases hp <;> simp [Kind.rules]

/-- The entries of a production the table selects, with its action, are followed as their kind
is: what follows a non-terminal among them may follow its kind. -/
theorem followsWithin_rhs {a : Symbol} {p : Production} (hp : predict k a = some p) (f : Nat)
    (id : Int) (g : Nat) : followsWithin (rhsEntries p.rhs f ++ [.action id g]) k.follow = true := by
  have hmem := mem_rules_of_predict hp
  cases k <;> simp only [Kind.rules, List.mem_cons, List.not_mem_nil, or_false] at hmem <;>
    rcases hmem with rfl | rfl | rfl <;>
    simp [rhsEntries, exprRule, signAddOp, signNone, exprTailMore, exprTailEnd, termRule,
      termTailMore, termTailEnd, factorNumber, factorParens, factorIdentifier, addOpPlus,
      addOpMinus, mulOpTimes, mulOpSlash, followsWithin, entriesFirst, Kind.follow, Kind.first,
      Kind.nullable, Symbol.number, Symbol.identifier, Symbol.lparen, Symbol.rparen, Symbol.plus,
      Symbol.minus, Symbol.times, Symbol.slash, Symbol.empty, Symbol.endOfInput]

/-- The table selects a tree's production on the first symbol of what the tree and the rest of
a stack that its kind may be followed by derive. -/
theorem predict_of_derives {rest : List Entry} {a : Symbol} {y z : List Symbol} (t : Tree k)
    (hf : ∀ z, Derives rest z → HeadIn k.follow z) (hz : Derives rest z)
    (he : a :: y = t.symbols ++ z) : predict k a = some t.rule := by
  cases hs : t.symbols with
  | nil =>
    -- an empty tree: the symbol comes from the rest, so it may follow the kind
    rw [hs, List.nil_append] at he
    obtain ⟨b, hb, hbf⟩ := hf z hz
    rw [← he, List.head?_cons, Option.mem_def, Option.some.injEq] at hb
    exact predict_of_follow t hs (hb ▸ hbf)
  | cons b bs =>
    rw [hs, List.cons_append, List.cons.injEq] at he
    exact predict_of_head t (by simp [hs, he.1])

end Table

/-! ### The invariant of a run -/

/-- A stack that is empty or has the end marker at its bottom. -/
def Bottomed (syms : List Entry) : Prop := syms = [] ∨ ∃ l, syms = l ++ [.terminal .endOfInput]

namespace Bottomed

variable {e : Entry} {rest : List Entry}

/-- Below the top of a stack with the end marker at its bottom is the end marker's stack, or
nothing if the top was the end marker. -/
theorem of_cons (h : Bottomed (e :: rest)) :
    (e = .terminal .endOfInput ∧ rest = []) ∨ ∃ l, rest = l ++ [.terminal .endOfInput] := by
  rcases h with h | ⟨l, hl⟩
  · cases h
  cases l with
  | nil =>
    simp only [List.nil_append, List.cons.injEq] at hl
    exact .inl hl
  | cons e' l =>
    simp only [List.cons_append, List.cons.injEq] at hl
    exact .inr ⟨l, hl.2⟩

theorem tail (h : Bottomed (e :: rest)) : Bottomed rest := by
  rcases h.of_cons with ⟨_, rfl⟩ | hl
  · exact .inl rfl
  · exact .inr hl

/-- Entries pushed in place of a top other than the end marker keep the end marker below. -/
theorem push (h : Bottomed (e :: rest)) (he : e ≠ .terminal .endOfInput) (l : List Entry) :
    Bottomed (l ++ rest) := by
  rcases h.of_cons with ⟨he', _⟩ | ⟨l', rfl⟩
  · exact absurd he' he
  · exact .inr ⟨l ++ l', by simp⟩

/-- A stack with the end marker at its bottom derives only what holds the end marker. -/
theorem derives_ne_nil {syms : List Entry} {y : List Symbol} (h : Bottomed syms)
    (hs : syms ≠ []) (hy : Derives syms y) : y ≠ [] := by
  rcases h with h | ⟨l, rfl⟩
  · exact absurd h hs
  obtain ⟨x, z, rfl, _, hz⟩ := Derives.append_iff.mp hy
  obtain ⟨z', rfl, _⟩ := Derives.terminal_iff.mp hz
  simp

end Bottomed

section Runs

variable {α : Type} {cfg : Config α} {st st' : State α}

/-- The symbols of the tokens consumed so far. -/
def State.consumed (st : State α) : List Symbol := (st.tokens.toList.take st.cursor).map Token.symbol

/-- **The invariant of a run.** What the stack derives completes the consumed tokens; every
completion that goes on with the lookahead is derived by the stack; every non-terminal on the
stack is followed by what may follow its kind; the end marker is at the bottom; the numbers
consumed were read; and the input ends with an end marker. -/
structure Prefixed (cfg : Config α) (st : State α) : Prop where
  sound : ∀ y, Derives st.syms y → Complete (st.consumed ++ y)
  complete : ∀ y, Complete (st.consumed ++ st.lookahead.symbol :: y) →
    Derives st.syms (st.lookahead.symbol :: y)
  followed : Followed st.syms
  bottom : Bottomed st.syms
  readable : Readable cfg (st.tokens.toList.take st.cursor)
  ends : ∃ t, st.tokens.back? = some t ∧ t.symbol = .endOfInput

theorem lookahead_congr (htok : st'.tokens = st.tokens) (hcur : st'.cursor = st.cursor) :
    st'.lookahead = st.lookahead := by
  unfold State.lookahead
  rw [htok, hcur]

/-- Before the end of the tokens, one more token consumed is the lookahead. -/
theorem take_cursor_succ (h : st.cursor < st.tokens.size) :
    st.tokens.toList.take (st.cursor + 1) = st.tokens.toList.take st.cursor ++ [st.lookahead] := by
  rw [List.take_add_one, Array.getElem?_toList, getElem?_cursor h, Option.toList_some]

namespace Prefixed

/-- While the stack is not empty, the end marker has not been consumed. -/
theorem endOfInput_not_mem (h : Prefixed cfg st) (hs : st.syms ≠ []) :
    Symbol.endOfInput ∉ st.consumed := by
  intro hmem
  obtain ⟨y, hy⟩ := Derives.exists st.syms
  obtain ⟨a, b, hab⟩ := List.append_of_mem hmem
  have hc := h.sound y hy
  rw [hab, List.append_assoc, List.cons_append] at hc
  have hnil := Complete.eq_nil_of_endOfInput hc
  exact h.bottom.derives_ne_nil hs hy (List.append_eq_nil_iff.mp hnil).2

/-- While the stack is not empty, the cursor is at a token. -/
theorem cursor_lt (h : Prefixed cfg st) (hs : st.syms ≠ []) : st.cursor < st.tokens.size := by
  refine Nat.lt_of_not_le fun hle => h.endOfInput_not_mem hs ?_
  -- past the end, everything is consumed, the end marker at the back too
  obtain ⟨t, ht, hte⟩ := h.ends
  have hall : st.tokens.toList.take st.cursor = st.tokens.toList := List.take_of_length_le (by simpa)
  rw [State.consumed, hall, ← hte]
  exact List.mem_map_of_mem (List.mem_of_getLast? (by rwa [Array.getLast?_toList]))

/-- A step that keeps the input and changes only the stack keeps the invariant if the new
stack derives only what the old one did, and all that the old one derived after the
lookahead. -/
theorem of_stack (h : Prefixed cfg st) (htok : st'.tokens = st.tokens)
    (hcur : st'.cursor = st.cursor) (hsound : ∀ y, Derives st'.syms y → Derives st.syms y)
    (hcomplete : ∀ y, Derives st.syms (st.lookahead.symbol :: y) →
      Derives st'.syms (st.lookahead.symbol :: y))
    (hf : Followed st'.syms) (hb : Bottomed st'.syms) : Prefixed cfg st' := by
  have hcons : st'.consumed = st.consumed := by simp [State.consumed, htok, hcur]
  have hla := lookahead_congr htok hcur
  refine ⟨fun y hy => ?_, fun y hy => ?_, hf, hb, by rw [htok, hcur]; exact h.readable,
    by rw [htok]; exact h.ends⟩
  · rw [hcons]
    exact h.sound y (hsound y hy)
  · rw [hcons, hla] at hy
    rw [hla]
    exact hcomplete y (h.complete y hy)

/-- The consumed tokens are a viable prefix. -/
theorem viable (h : Prefixed cfg st) : Viable st.consumed := by
  obtain ⟨y, hy⟩ := Derives.exists st.syms
  exact ⟨y, h.sound y hy⟩

/-- The terminal on top of the stack may come next. -/
theorem viable_terminal {s : Symbol} {rest : List Entry} (h : Prefixed cfg st)
    (hs : st.syms = .terminal s :: rest) : Viable (st.consumed ++ [s]) := by
  obtain ⟨y, hy⟩ := Derives.exists rest
  exact ⟨y, by simpa using h.sound (s :: y) (hs ▸ .terminal hy)⟩

end Prefixed

@[simp] theorem consumed_initial (tokens : List Token) : (initial cfg tokens).consumed = [] := by
  simp [State.consumed, initial]

variable (hT : cfg.table = expressionTable)
include hT

/-- **One step keeps the invariant.** A match consumes the lookahead, which the terminal on
top derives; an expansion replaces a non-terminal by a production that derives trees of its
kind, and the one every completion after the lookahead needs; an action derives nothing. -/
theorem Moves.prefixed (hm : Moves cfg st st') (h : Prefixed cfg st) : Prefixed cfg st' := by
  have hb := h.bottom
  have hf := h.followed
  cases hm with
  | @matched s rest hs hla hnum htok hcur hsyms =>
    have hlt := h.cursor_lt (by simp [hs])
    have htake : st'.tokens.toList.take st'.cursor =
        st.tokens.toList.take st.cursor ++ [st.lookahead] := by
      rw [htok, hcur, take_cursor_succ hlt]
    have hcons : st'.consumed = st.consumed ++ [s] := by simp [State.consumed, htake, hla]
    rw [hs] at hb hf
    refine ⟨fun y hy => ?_, fun y hy => ?_, hsyms ▸ hf, hsyms ▸ hb.tail, ?_, htok ▸ h.ends⟩
    · rw [hcons, List.append_assoc, List.singleton_append]
      rw [hsyms] at hy
      exact h.sound _ (hs ▸ .terminal hy)
    · rw [hcons, List.append_assoc, List.singleton_append, ← hla] at hy
      obtain ⟨y', he, hy'⟩ := Derives.terminal_iff.mp (hs ▸ h.complete _ hy)
      rw [hsyms, (List.cons.inj he).2]
      exact hy'
    · rw [htake, readable_append]
      refine ⟨h.readable, fun tok hmem hn => ?_⟩
      rw [List.mem_singleton] at hmem
      subst hmem
      exact hnum (hla ▸ hn)
  | @expanded k i rest p hs hp htok hcur hsyms =>
    rw [hT, select_expressionTable] at hp
    rw [hs] at hb hf
    have hsyms' : st'.syms =
        (rhsEntries p.rhs st.records.size ++ [.action p.id st.groupTable.size]) ++ rest := by
      simp [hsyms]
    refine h.of_stack htok hcur (fun y hy => ?_) (fun y hy => ?_) ?_ ?_
    · -- what the production derives is a tree of the kind
      rw [hsyms] at hy
      obtain ⟨x, z, rfl, hx, hz⟩ := Derives.append_iff.mp hy
      obtain ⟨t, rfl⟩ := tree_of_rhs hp _ hx
      rw [hs]
      exact .nonterminal t (Derives.action_iff.mp hz)
    · -- a completion after the lookahead has a tree of the kind whose production the table selects
      rw [hs] at hy
      obtain ⟨t, z, he, hz⟩ := Derives.nonterminal_iff.mp hy
      have hrule := predict_of_derives t hf.1 hz he
      rw [hp, Option.some.injEq] at hrule
      rw [hsyms, he, hrule]
      exact derives_rule t _ _ _ hz
    · rw [hsyms']
      exact Followed.append (followsWithin_rhs hp _ _ _) hf.1 hf.2
    · rw [hsyms']
      exact hb.push (by simp) _
  | @executed id g rest hs htok hcur hsyms =>
    rw [hs] at hb hf
    refine h.of_stack htok hcur (fun y hy => ?_) (fun y hy => ?_) (hsyms ▸ hf) (hsyms ▸ hb.tail)
    · rw [hs]
      exact .action (hsyms ▸ hy)
    · rw [hs] at hy
      rw [hsyms]
      exact Derives.action_iff.mp hy

/-- **Every run keeps the invariant.** -/
theorem Steps.prefixed {n : Nat} (h : Steps cfg n st st') (hp : Prefixed cfg st) :
    Prefixed cfg st' := by
  induction h with
  | refl => exact hp
  | cons _ hm _ ih => exact ih (hm.prefixed hT hp)

/-- At first nothing is consumed and the stack derives exactly the complete inputs. -/
theorem prefixed_initial (tokens : List Token) : Prefixed cfg (initial cfg tokens) := by
  have hsyms : (initial cfg tokens).syms = [.nonterminal .expr 0, .terminal .endOfInput] := by
    simp [initial, hT, expressionTable_start]
  refine ⟨fun y hy => ?_, fun y hy => ?_, ?_, .inr ⟨[.nonterminal .expr 0], by simp [hsyms]⟩,
    by simp [initial], ?_⟩
  · rw [hsyms] at hy
    obtain ⟨t, y', rfl, hy'⟩ := Derives.nonterminal_iff.mp hy
    obtain ⟨y'', rfl, hy''⟩ := Derives.terminal_iff.mp hy'
    rw [Derives.nil_iff.mp hy'']
    exact ⟨t, by simp⟩
  · obtain ⟨t, ht⟩ := hy
    rw [consumed_initial, List.nil_append] at ht
    rw [hsyms, ht]
    exact .nonterminal t (.terminal .nil)
  · rw [hsyms]
    simp [Followed, Derives.terminal_iff, Derives.nil_iff, HeadIn, Kind.follow]
  · obtain ⟨t, ht, he⟩ := terminated_getLast tokens
    exact ⟨t, by simp [initial, ht], he⟩

/-- **A syntax error stops at the first token that no valid input has there.** The stack
derives every completion that goes on with the lookahead, so a terminal that differs from it,
or a non-terminal without a production for it, leaves none. -/
theorem Prefixed.not_viable {e : SyntaxError} (h : Prefixed cfg st)
    (hs : Stuck cfg st (.syntaxError e)) : ¬ Viable (st.consumed ++ [st.lookahead.symbol]) := by
  rintro ⟨y, hy⟩
  have hd := h.complete y (by simpa using hy)
  cases hs with
  | noProduction hs hp =>
    rw [hT, select_expressionTable] at hp
    have hf := h.followed
    rw [hs] at hf hd
    obtain ⟨t, z, he, hz⟩ := Derives.nonterminal_iff.mp hd
    rw [predict_of_derives t hf.1 hz he] at hp
    cases hp
  | mismatch hs hla =>
    rw [hs] at hd
    obtain ⟨y', he, _⟩ := Derives.terminal_iff.mp hd
    exact hla (List.cons.inj he).1

end Runs

end ExprTranslate
