import Mathlib
import ExprTranslate.Proofs.Viability
import ExprTranslate.Proofs.Derivations
import ExprTranslate.Grammar.Ebnf
/-!
# The language of the expression grammar

The parse trees of `Tree` are the derivations of the expression grammar as its rules describe
it, and the strings the grammar's EBNF description matches at the level of tokens: the symbols
the trees of a kind spell are exactly the strings of terminals the grammar derives from that
kind, and exactly what the kind's expression of the description matches. So the inputs that the
translator's correctness speaks of, `Complete` and `Viable`, are the sentences of both followed
by the end marker, and their prefixes.

* `Grammar.Generates g u w`: the form `u` derives a form whose symbols, the silent ones left
  out, are the terminals `w`;
* `Tree.generates`: the symbols of a tree are generated from its kind, by induction on the tree;
* `derives_rhsEntries`: the entries the parser pushes for a form derive, on the stack, what
  the form's derivations spell, which by `tree_of_rhs` gives the converse;
* `exists_tree_iff_generates`: the trees of a kind spell what the grammar generates from it;
* `complete_iff_generates`, `viable_iff_generates`: complete inputs and viable prefixes in the
  grammar's terms;
* `Ebnf.check_description`: the description reads and verifies as `Ebnf.expressionProductions`;
* `Ebnf.Matches`: what an expression of the description matches over token symbols;
* `Tree.matches`, `Ebnf.Matches.spells`: a tree matches its kind's expression (`Kind.ebnf`), and
  a match spells a tree, by induction on the match;
* `Ebnf.matches_iff_generates`, `viable_iff_matches`: the description and the grammar describe
  one language, and viable prefixes in the description's terms.
-/

namespace ExprTranslate

/-- The form `u` generates the terminals `w`: it derives a form whose symbols, the silent ones
left out, are the terminals of `w`. -/
def Grammar.Generates (g : Grammar) (u : List GSym) (w : List Symbol) : Prop :=
  ∃ v, g.Derives u v ∧ v.filter (fun s => !s.silent) = w.map .terminal

namespace Grammar.Generates

variable {g : Grammar} {u u' : List GSym} {w w' : List Symbol}

theorem nil : g.Generates [] [] := ⟨[], .nil, rfl⟩

/-- A terminal other than `ε` generates itself. -/
theorem terminal {a : Symbol} (ha : a ≠ .empty) (h : g.Generates u w) :
    g.Generates (.terminal a :: u) (a :: w) := by
  obtain ⟨v, hv, hf⟩ := h
  refine ⟨.terminal a :: v, .keep _ hv, ?_⟩
  rw [List.filter_cons_of_pos (by simp [GSym.silent, ha]), hf, List.map_cons]

/-- A silent symbol generates nothing. -/
theorem silent {s : GSym} (hs : s.silent = true) (h : g.Generates u w) :
    g.Generates (s :: u) w := by
  obtain ⟨v, hv, hf⟩ := h
  exact ⟨s :: v, .keep _ hv, by simp [hs, hf]⟩

theorem append (h : g.Generates u w) (h' : g.Generates u' w') :
    g.Generates (u ++ u') (w ++ w') := by
  obtain ⟨v, hv, hf⟩ := h
  obtain ⟨v', hv', hf'⟩ := h'
  exact ⟨v ++ v', hv.append hv', by simp [List.filter_append, hf, hf']⟩

/-- A non-terminal generates what the right-hand side of one of its productions generates. -/
theorem rule {p : Production} (hp : p ∈ g.rules) (h : g.Generates p.rhs w) :
    g.Generates [.nonterminal p.lhs] w := by
  obtain ⟨v, hv, hf⟩ := h
  exact ⟨v ++ [], .expand hp hv .nil, by simpa using hf⟩

end Grammar.Generates

open Production in
/-- The productions of the expression grammar, in the order of its rules. -/
theorem expressionGrammar_rules : expressionGrammar.rules =
    [exprRule, signAddOp, signNone, exprTailMore, exprTailEnd, termRule, termTailMore, termTailEnd,
      factorNumber, factorParens, factorIdentifier, addOpPlus, addOpMinus, mulOpTimes,
      mulOpSlash] := by
  decide +kernel

theorem expressionGrammar_start : expressionGrammar.start = .expr := by decide +kernel

/-! ### From trees to derivations -/

namespace Tree

/-- The production a node is named after is a rule of the expression grammar. -/
theorem rule_mem {k : Kind} (t : Tree k) : t.rule ∈ expressionGrammar.rules := by
  cases t <;> simp [rule, expressionGrammar_rules]

/-- **A tree is a derivation.** The symbols of a tree are generated from its kind: each node
rewrites its kind by its production, whose right-hand side generates the children's symbols. -/
theorem generates {k : Kind} (t : Tree k) :
    expressionGrammar.Generates [.nonterminal k] t.symbols := by
  induction t with
  | exprRule s t e ihs iht ihe =>
    refine .rule (exprRule s t e).rule_mem ?_
    simpa [rule, Production.exprRule, symbols, tokens] using ihs.append (iht.append ihe)
  | exprTailMore a t e iha iht ihe =>
    refine .rule (exprTailMore a t e).rule_mem ?_
    simpa [rule, Production.exprTailMore, symbols, tokens] using iha.append (iht.append ihe)
  | termTailMore m f e ihm ihf ihe =>
    refine .rule (termTailMore m f e).rule_mem ?_
    simpa [rule, Production.termTailMore, symbols, tokens] using ihm.append (ihf.append ihe)
  | termRule f e ihf ihe =>
    refine .rule (termRule f e).rule_mem ?_
    simpa [rule, Production.termRule, symbols, tokens] using ihf.append ihe
  | signAddOp a iha => exact .rule (signAddOp a).rule_mem iha
  | factorParens lp hl e rp hr ih =>
    refine .rule (factorParens lp hl e rp hr).rule_mem ?_
    simpa [rule, Production.factorParens, symbols, tokens, hl, hr] using
      Grammar.Generates.terminal (by decide) (ih.append (.terminal (by decide) .nil))
  | signNone => exact .rule signNone.rule_mem (.silent rfl .nil)
  | exprTailEnd => exact .rule exprTailEnd.rule_mem (.silent rfl .nil)
  | termTailEnd => exact .rule termTailEnd.rule_mem (.silent rfl .nil)
  -- a leaf: its production's one terminal is the symbol of its token
  | factorNumber tok h =>
    refine .rule (factorNumber tok h).rule_mem ?_
    simp only [rule, Production.factorNumber, symbols, tokens, List.map_cons, List.map_nil, h]
    exact .terminal (by decide) .nil
  | factorIdentifier tok h =>
    refine .rule (factorIdentifier tok h).rule_mem ?_
    simp only [rule, Production.factorIdentifier, symbols, tokens, List.map_cons, List.map_nil, h]
    exact .terminal (by decide) .nil
  | addOpPlus tok h =>
    refine .rule (addOpPlus tok h).rule_mem ?_
    simp only [rule, Production.addOpPlus, symbols, tokens, List.map_cons, List.map_nil, h]
    exact .terminal (by decide) .nil
  | addOpMinus tok h =>
    refine .rule (addOpMinus tok h).rule_mem ?_
    simp only [rule, Production.addOpMinus, symbols, tokens, List.map_cons, List.map_nil, h]
    exact .terminal (by decide) .nil
  | mulOpTimes tok h =>
    refine .rule (mulOpTimes tok h).rule_mem ?_
    simp only [rule, Production.mulOpTimes, symbols, tokens, List.map_cons, List.map_nil, h]
    exact .terminal (by decide) .nil
  | mulOpSlash tok h =>
    refine .rule (mulOpSlash tok h).rule_mem ?_
    simp only [rule, Production.mulOpSlash, symbols, tokens, List.map_cons, List.map_nil, h]
    exact .terminal (by decide) .nil

end Tree

/-! ### From derivations to trees

The converse goes through the stack: the entries the parser pushes for a form derive, in the
sense of `Derives`, what the form's derivations spell, and the entries of a production's
right-hand side derive only what a tree of its kind spells (`tree_of_rhs`). -/

/-- Each production of the expression grammar is selected on some lookahead. -/
theorem exists_predict_of_mem {p : Production} (hp : p ∈ expressionGrammar.rules) :
    ∃ a, predict p.lhs a = some p := by
  simp only [expressionGrammar_rules, List.mem_cons, List.not_mem_nil, or_false] at hp
  rcases hp with rfl | rfl | rfl | rfl | rfl | rfl | rfl | rfl | rfl | rfl | rfl | rfl | rfl |
    rfl | rfl
  · exact ⟨.number, by decide⟩
  · exact ⟨.plus, by decide⟩
  · exact ⟨.number, by decide⟩
  · exact ⟨.plus, by decide⟩
  · exact ⟨.endOfInput, by decide⟩
  · exact ⟨.number, by decide⟩
  · exact ⟨.times, by decide⟩
  · exact ⟨.plus, by decide⟩
  · exact ⟨.number, by decide⟩
  · exact ⟨.lparen, by decide⟩
  · exact ⟨.identifier, by decide⟩
  · exact ⟨.plus, by decide⟩
  · exact ⟨.minus, by decide⟩
  · exact ⟨.times, by decide⟩
  · exact ⟨.slash, by decide⟩

/-- **The stack spells a derivation.** If the form `u` derives `v`, whose symbols that are not
silent are the terminals `w`, then the entries the parser pushes for `u` derive `w`. -/
theorem derives_rhsEntries {u v : List GSym} (h : expressionGrammar.Derives u v) :
    ∀ {w : List Symbol} (f : Nat), v.filter (fun s => !s.silent) = w.map .terminal →
      Derives (rhsEntries u f) w := by
  induction h with
  | nil =>
    intro w f hw
    obtain rfl : w = [] := List.map_eq_nil_iff.mp hw.symm
    exact .nil
  | keep s _ ih =>
    intro w f hw
    cases s with
    | terminal a =>
      by_cases ha : a = .empty
      · -- `ε` is silent, and the parser pushes nothing for it
        subst ha
        rw [List.filter_cons_of_neg (by simp [GSym.silent])] at hw
        simpa [rhsEntries] using ih f hw
      · rw [List.filter_cons_of_pos (by simp [GSym.silent, ha])] at hw
        obtain ⟨b, w', rfl, hb, hw'⟩ := List.map_eq_cons_iff.mp hw.symm
        cases hb
        simpa [rhsEntries, ha] using Derives.terminal (ih f hw'.symm)
    | nonterminal k =>
      -- a non-terminal left in the form is no terminal of `w`
      rw [List.filter_cons_of_pos (by simp [GSym.silent])] at hw
      obtain ⟨b, w', -, hb, -⟩ := List.map_eq_cons_iff.mp hw.symm
      cases hb
    | action id =>
      rw [List.filter_cons_of_neg (by simp [GSym.silent])] at hw
      exact .action (ih f hw)
  | expand hp _ _ ih₁ ih₂ =>
    intro w f hw
    rw [List.filter_append] at hw
    obtain ⟨x₁, x₂, rfl, h₁, h₂⟩ := List.map_eq_append_iff.mp hw.symm
    obtain ⟨a, hpa⟩ := exists_predict_of_mem hp
    obtain ⟨t, rfl⟩ := tree_of_rhs hpa 0 (ih₁ 0 h₁.symm)
    exact .nonterminal t (ih₂ (f + 1) h₂.symm)

/-- **Trees spell the grammar's language.** The symbols of the trees of a kind are exactly the
strings of terminals the expression grammar generates from that kind. -/
theorem exists_tree_iff_generates (k : Kind) (w : List Symbol) :
    (∃ t : Tree k, t.symbols = w) ↔ expressionGrammar.Generates [.nonterminal k] w := by
  constructor
  · rintro ⟨t, rfl⟩
    exact t.generates
  · rintro ⟨v, hv, hf⟩
    -- the one entry of the kind derives `w`, so a tree of the kind spells it
    have h := derives_rhsEntries hv 0 hf
    simp only [rhsEntries] at h
    obtain ⟨t, w', rfl, hw'⟩ := Derives.nonterminal_iff.mp h
    cases hw'
    exact ⟨t, by simp⟩

/-- **Complete inputs are the grammar's sentences.** A complete input is a string of terminals
the expression grammar generates from its start symbol, followed by the end marker. -/
theorem complete_iff_generates (x : List Symbol) :
    Complete x ↔ ∃ w, expressionGrammar.Generates [.nonterminal expressionGrammar.start] w ∧
      x = w ++ [.endOfInput] := by
  rw [expressionGrammar_start]
  constructor
  · rintro ⟨t, rfl⟩
    exact ⟨t.symbols, t.generates, rfl⟩
  · rintro ⟨w, hw, rfl⟩
    obtain ⟨t, rfl⟩ := (exists_tree_iff_generates .expr w).mpr hw
    exact ⟨t, rfl⟩

/-- Viable prefixes are the prefixes of the grammar's sentences followed by the end marker. -/
theorem viable_iff_generates (v : List Symbol) :
    Viable v ↔ ∃ y w, expressionGrammar.Generates [.nonterminal expressionGrammar.start] w ∧
      v ++ y = w ++ [.endOfInput] := by
  simp only [Viable, complete_iff_generates]

/-! ### The EBNF description

`Ebnf.description` states the language in extended Backus–Naur form, over characters: its
lexical productions, with lower-case names, spell the words the scanner classifies. The parser
reads tokens, so at its level a lexical name stands for one token of its class and a quoted text
for one token of the symbol the lexicon gives that word (`Ebnf.Matches`). -/

namespace Ebnf

/-- The productions the description reads as, in its order. -/
def expressionProductions : List Production :=
  [⟨"Expr", .sequence [.option (.name "AddOp"), .name "Term",
      .repetition (.sequence [.name "AddOp", .name "Term"])]⟩,
   ⟨"Term", .sequence [.name "Factor", .repetition (.sequence [.name "MulOp", .name "Factor"])]⟩,
   ⟨"Factor", .alternative [.name "identifier", .name "number",
      .sequence [.token "(", .name "Expr", .token ")"]]⟩,
   ⟨"AddOp", .alternative [.token "+", .token "-"]⟩,
   ⟨"MulOp", .alternative [.token "*", .token "/"]⟩,
   ⟨"identifier", .sequence [.name "letter",
      .repetition (.alternative [.name "letter", .name "digit"])]⟩,
   ⟨"number", .sequence [.name "digit", .repetition (.name "digit")]⟩,
   ⟨"letter", .range "a" "z"⟩,
   ⟨"digit", .range "0" "9"⟩]

set_option maxRecDepth 20000 in
theorem parse_description : parse description = .ok expressionProductions := by
  cbv

set_option maxRecDepth 20000 in
theorem verify_expressionProductions :
    (verify expressionProductions Kind.expr.name).toBool = true := by
  decide +kernel

/-- The check passes with what the description reads as, when that verifies from `Expr`. -/
theorem check_of_parse {g : List Production} (h : parse description = .ok g)
    (hv : (verify g Kind.expr.name).toBool = true) : check = .ok g := by
  unfold check
  rw [h]
  cases hg : verify g Kind.expr.name with
  | ok u => simp only [hg]
  | error e => simp [hg, Except.toBool] at hv

/-- **The description checks.** It reads and verifies from `Expr`, and its productions are
`expressionProductions`. -/
theorem check_description : check = .ok expressionProductions :=
  check_of_parse parse_description verify_expressionProductions

/-- The token symbol a lexical production stands for once the scanner has classified its words:
`identifier` and `number`. -/
def lexicalSymbol : String → Option Symbol
  | "identifier" => some .identifier
  | "number" => some .number
  | _ => none

/-- The strings of token symbols an expression matches in the productions `g`, read at the level
of tokens: a syntactic name matches what the body of its production matches, a lexical name one
token of its symbol, a quoted text one token of the symbol the lexicon gives that word; groups,
options, repetitions, sequences and alternatives as EBNF reads them. A range spells characters
and matches no token. -/
inductive Matches (g : List Production) : Expr → List Symbol → Prop
  | name {n : String} {p : Production} {w : List Symbol} (hn : isLexical n = false)
      (hp : lookup g n = some p) (h : Matches g p.body w) : Matches g (.name n) w
  | lexical {n : String} {s : Symbol} (hs : lexicalSymbol n = some s) : Matches g (.name n) [s]
  | token (t : String) : Matches g (.token t) [Lexicon.classify t]
  | group {e : Expr} {w : List Symbol} (h : Matches g e w) : Matches g (.group e) w
  | optionNone (e : Expr) : Matches g (.option e) []
  | optionSome {e : Expr} {w : List Symbol} (h : Matches g e w) : Matches g (.option e) w
  | repetitionNil (e : Expr) : Matches g (.repetition e) []
  | repetitionCons {e : Expr} {w w' : List Symbol} (h : Matches g e w)
      (h' : Matches g (.repetition e) w') : Matches g (.repetition e) (w ++ w')
  | sequenceNil : Matches g (.sequence []) []
  | sequenceCons {e : Expr} {es : List Expr} {w w' : List Symbol} (h : Matches g e w)
      (h' : Matches g (.sequence es) w') : Matches g (.sequence (e :: es)) (w ++ w')
  | alternative {e : Expr} {es : List Expr} {w : List Symbol} (he : e ∈ es)
      (h : Matches g e w) : Matches g (.alternative es) w
  | empty : Matches g .empty []

section Matching

variable {g : List Production} {e e₁ e₂ e₃ : Expr} {w w₁ w₂ w₃ : List Symbol}

theorem Matches.pair (h₁ : Matches g e₁ w₁) (h₂ : Matches g e₂ w₂) :
    Matches g (.sequence [e₁, e₂]) (w₁ ++ w₂) := by
  simpa using h₁.sequenceCons (h₂.sequenceCons .sequenceNil)

theorem Matches.triple (h₁ : Matches g e₁ w₁) (h₂ : Matches g e₂ w₂) (h₃ : Matches g e₃ w₃) :
    Matches g (.sequence [e₁, e₂, e₃]) (w₁ ++ w₂ ++ w₃) := by
  simpa using h₁.sequenceCons (h₂.pair h₃)

/-- A syntactic name whose production is a choice matches what one of its choices matches. -/
theorem Matches.choice {n : String} {es : List Expr} (hn : isLexical n = false)
    (hp : lookup g n = some ⟨n, .alternative es⟩) (he : e ∈ es) (h : Matches g e w) :
    Matches g (.name n) w :=
  .name hn hp (.alternative he h)

/-- A syntactic name whose production is a choice matches one token of the symbol that one of
its choices matches alone. -/
theorem Matches.leaf {n : String} {es : List Expr} {s : Symbol} {tok : Token}
    (hn : isLexical n = false) (hp : lookup g n = some ⟨n, .alternative es⟩) (he : e ∈ es)
    (h : Matches g e [s]) (hs : tok.symbol = s) : Matches g (.name n) [tok.symbol] :=
  hs ▸ .choice hn hp he h

end Matching

/-- The symbols the lexicon gives the description's quoted texts. -/
theorem classify_quoted : Lexicon.classify "(" = .lparen ∧ Lexicon.classify ")" = .rparen ∧
    Lexicon.classify "+" = .plus ∧ Lexicon.classify "-" = .minus ∧
    Lexicon.classify "*" = .times ∧ Lexicon.classify "/" = .slash := by
  decide

end Ebnf

/-- The expression of the description each kind of the grammar stands for: a syntactic
production by its name, a sign an optional additive operator, and the tails of sums and
products the repetitions after their first term or factor. -/
def Kind.ebnf : Kind → Ebnf.Expr
  | .expr => .name "Expr"
  | .term => .name "Term"
  | .factor => .name "Factor"
  | .addOp => .name "AddOp"
  | .mulOp => .name "MulOp"
  | .sign => .option (.name "AddOp")
  | .exprTail => .repetition (.sequence [.name "AddOp", .name "Term"])
  | .termTail => .repetition (.sequence [.name "MulOp", .name "Factor"])

theorem Kind.name_injective {a b : Kind} (h : a.name = b.name) : a = b := by
  cases a <;> cases b <;> simp_all [Kind.name]

/-! ### From trees to matches -/

open Ebnf in
/-- **Every tree matches the description.** The symbols of a tree match the expression of the
description its kind stands for. -/
theorem Tree.matches {k : Kind} (t : Tree k) :
    Matches expressionProductions k.ebnf t.symbols := by
  induction t with
  | exprRule s t e ihs iht ihe =>
    refine .name (by decide +kernel) rfl ?_
    simpa [Kind.ebnf, symbols, tokens] using ihs.triple iht ihe
  | termRule f e ihf ihe =>
    refine .name (by decide +kernel) rfl ?_
    simpa [Kind.ebnf, symbols, tokens] using ihf.pair ihe
  | signAddOp a iha => exact .optionSome iha
  | signNone => exact .optionNone _
  | exprTailMore a t e iha iht ihe =>
    simpa [Kind.ebnf, symbols, tokens] using (iha.pair iht).repetitionCons ihe
  | exprTailEnd => exact .repetitionNil _
  | termTailMore m f e ihm ihf ihe =>
    simpa [Kind.ebnf, symbols, tokens] using (ihm.pair ihf).repetitionCons ihe
  | termTailEnd => exact .repetitionNil _
  | factorParens lp hl e rp hr ih =>
    have h : Matches expressionProductions (.sequence [.token "(", .name "Expr", .token ")"])
        (factorParens lp hl e rp hr).symbols := by
      simpa [Kind.ebnf, symbols, tokens, hl, hr, classify_quoted] using
        (Matches.token "(").triple ih (.token ")")
    exact .choice (by decide +kernel) rfl (by simp) h
  -- a leaf: one token, of the symbol its choice in the description matches
  | factorNumber tok h =>
    exact .leaf (by decide +kernel) rfl (by simp) (.lexical (n := "number") rfl) h
  | factorIdentifier tok h =>
    exact .leaf (by decide +kernel) rfl (by simp) (.lexical (n := "identifier") rfl) h
  | addOpPlus tok h =>
    exact .leaf (by decide +kernel) rfl (by simp) (.token "+") (by simp [h, classify_quoted])
  | addOpMinus tok h =>
    exact .leaf (by decide +kernel) rfl (by simp) (.token "-") (by simp [h, classify_quoted])
  | mulOpTimes tok h =>
    exact .leaf (by decide +kernel) rfl (by simp) (.token "*") (by simp [h, classify_quoted])
  | mulOpSlash tok h =>
    exact .leaf (by decide +kernel) rfl (by simp) (.token "/") (by simp [h, classify_quoted])

/-! ### From matches to trees

A match is read back through `Spells`, the meaning of each expression once every name stands for
the symbols of the trees of its kind: each production's body spells only trees of its kind, so
by induction on the match, whatever the description matches some tree spells. -/

namespace Ebnf

/-- What a name stands for when names are read through the grammar's trees: the symbols of a
tree of the kind of that name, or one token of a lexical name's symbol. -/
def NameSpells (n : String) (w : List Symbol) : Prop :=
  (∃ k : Kind, k.name = n ∧ ∃ t : Tree k, t.symbols = w) ∨
    ∃ s, lexicalSymbol n = some s ∧ w = [s]

/-- What an expression stands for when each name stands for what `NameSpells` gives it; every
other form reads as in `Matches`. -/
def Spells : Expr → List Symbol → Prop
  | .name n, w => NameSpells n w
  | .token t, w => w = [Lexicon.classify t]
  | .range _ _, _ => False
  | .group e, w => Spells e w
  | .option e, w => w = [] ∨ Spells e w
  | .repetition e, w => ∃ ws : List (List Symbol), w = ws.flatten ∧ ∀ x ∈ ws, Spells e x
  | .sequence es, w => sequence es w
  | .alternative es, w => alternative es w
  | .empty, w => w = []
where
  /-- What a sequence of expressions stands for. -/
  sequence : List Expr → List Symbol → Prop
    | [], w => w = []
    | e :: es, w => ∃ w₁ w₂, w = w₁ ++ w₂ ∧ Spells e w₁ ∧ sequence es w₂
  /-- What a choice among expressions stands for. -/
  alternative : List Expr → List Symbol → Prop
    | [], _ => False
    | e :: es, w => Spells e w ∨ alternative es w

section Spelling

variable {e x y : Expr} {w : List Symbol}

theorem Spells.alternative_of_mem {es : List Expr} (he : e ∈ es) (h : Spells e w) :
    Spells.alternative es w := by
  induction es with
  | nil => cases he
  | cons e' es ih =>
    rcases List.mem_cons.mp he with rfl | he
    · exact .inl h
    · exact .inr (ih he)

/-- A name of a kind spells only what the trees of that kind spell. -/
theorem tree_of_nameSpells {k : Kind} (h : NameSpells k.name w) :
    ∃ t : Tree k, t.symbols = w := by
  rcases h with ⟨k', hk, t, rfl⟩ | ⟨s, hs, -⟩
  · obtain rfl := Kind.name_injective hk
    exact ⟨t, rfl⟩
  · cases k <;> simp [Kind.name, lexicalSymbol] at hs

/-- A lexical name spells one token of its symbol: no kind has its name. -/
theorem eq_of_nameSpells {n : String} {s : Symbol} (hs : lexicalSymbol n = some s)
    (h : NameSpells n w) : w = [s] := by
  rcases h with ⟨k, rfl, -⟩ | ⟨s', hs', rfl⟩
  · cases k <;> simp [Kind.name, lexicalSymbol] at hs
  · rw [hs'] at hs
    cases hs
    rfl

/-- A repetition of two expressions spells only what is built from nothing by putting a string
of each in front, as the tails of sums and products are built. -/
theorem Spells.repetition_pair {P : List Symbol → Prop} (hnil : P [])
    (hcons : ∀ {a b c}, Spells x a → Spells y b → P c → P (a ++ b ++ c))
    (h : Spells (.repetition (.sequence [x, y])) w) : P w := by
  obtain ⟨ws, rfl, hws⟩ := h
  -- the repetition's strings, one by one from the front
  induction ws with
  | nil => exact hnil
  | cons u ws ih =>
    obtain ⟨a, _, rfl, ha, b, _, rfl, hb, rfl⟩ := hws u (by simp)
    simpa using hcons ha hb (ih fun v hv => hws v (by simp [hv]))

/-- **An expression of a kind spells only its trees.** -/
theorem tree_of_spells : (k : Kind) → Spells k.ebnf w → ∃ t : Tree k, t.symbols = w
  | .expr, h | .term, h | .factor, h | .addOp, h | .mulOp, h => tree_of_nameSpells h
  | .sign, h => by
    rcases h with rfl | h
    · exact ⟨.signNone, rfl⟩
    · obtain ⟨a, rfl⟩ := tree_of_nameSpells (k := .addOp) h
      exact ⟨.signAddOp a, rfl⟩
  | .exprTail, h => by
    refine Spells.repetition_pair (P := fun w => ∃ t : Tree .exprTail, t.symbols = w)
      ⟨.exprTailEnd, rfl⟩ (fun ha hb hc => ?_) h
    obtain ⟨a, rfl⟩ := tree_of_nameSpells (k := .addOp) ha
    obtain ⟨t, rfl⟩ := tree_of_nameSpells (k := .term) hb
    obtain ⟨e, rfl⟩ := hc
    exact ⟨.exprTailMore a t e, by simp [Tree.symbols, Tree.tokens]⟩
  | .termTail, h => by
    refine Spells.repetition_pair (P := fun w => ∃ t : Tree .termTail, t.symbols = w)
      ⟨.termTailEnd, rfl⟩ (fun hm hf hc => ?_) h
    obtain ⟨m, rfl⟩ := tree_of_nameSpells (k := .mulOp) hm
    obtain ⟨f, rfl⟩ := tree_of_nameSpells (k := .factor) hf
    obtain ⟨e, rfl⟩ := hc
    exact ⟨.termTailMore m f e, by simp [Tree.symbols, Tree.tokens]⟩

/-- A syntactic name spells what the body of its production spells: each production of the
description builds the trees of its kind from those of the kinds it names. -/
theorem nameSpells_of_body {n : String} {p : Production} (hn : isLexical n = false)
    (hp : lookup expressionProductions n = some p) (h : Spells p.body w) : NameSpells n w := by
  have hmem := List.mem_of_find?_eq_some hp
  have hname : p.name = n := by simpa using List.find?_some hp
  simp only [expressionProductions, List.mem_cons, List.not_mem_nil, or_false] at hmem
  rcases hmem with rfl | rfl | rfl | rfl | rfl | rfl | rfl | rfl | rfl <;> subst hname
  · -- `Expr = [ AddOp ] Term { AddOp Term }`
    obtain ⟨_, _, rfl, hs, _, _, rfl, ht, _, _, rfl, he, rfl⟩ := h
    obtain ⟨s, rfl⟩ := tree_of_spells .sign hs
    obtain ⟨t, rfl⟩ := tree_of_spells .term ht
    obtain ⟨e, rfl⟩ := tree_of_spells .exprTail he
    exact .inl ⟨.expr, rfl, .exprRule s t e, by simp [Tree.symbols, Tree.tokens]⟩
  · -- `Term = Factor { MulOp Factor }`
    obtain ⟨_, _, rfl, hf, _, _, rfl, he, rfl⟩ := h
    obtain ⟨f, rfl⟩ := tree_of_spells .factor hf
    obtain ⟨e, rfl⟩ := tree_of_spells .termTail he
    exact .inl ⟨.term, rfl, .termRule f e, by simp [Tree.symbols, Tree.tokens]⟩
  · -- `Factor = identifier | number | "(" Expr ")"`
    refine .inl ⟨.factor, rfl, ?_⟩
    rcases h with h | h | ⟨_, _, rfl, rfl, _, _, rfl, he, _, _, rfl, rfl, rfl⟩ | (⟨⟩ : False)
    · obtain rfl := eq_of_nameSpells rfl h
      exact ⟨.factorIdentifier ⟨"", .identifier, 0⟩ rfl, rfl⟩
    · obtain rfl := eq_of_nameSpells rfl h
      exact ⟨.factorNumber ⟨"", .number, 0⟩ rfl, rfl⟩
    · obtain ⟨e, rfl⟩ := tree_of_spells .expr he
      exact ⟨.factorParens ⟨"(", .lparen, 0⟩ rfl e ⟨")", .rparen, 0⟩ rfl,
        by simp [Tree.symbols, Tree.tokens, classify_quoted]⟩
  · -- `AddOp = "+" | "-"`
    refine .inl ⟨.addOp, rfl, ?_⟩
    rcases h with rfl | rfl | (⟨⟩ : False)
    · exact ⟨.addOpPlus ⟨"+", .plus, 0⟩ rfl, by simp [Tree.symbols, Tree.tokens, classify_quoted]⟩
    · exact ⟨.addOpMinus ⟨"-", .minus, 0⟩ rfl,
        by simp [Tree.symbols, Tree.tokens, classify_quoted]⟩
  · -- `MulOp = "*" | "/"`
    refine .inl ⟨.mulOp, rfl, ?_⟩
    rcases h with rfl | rfl | (⟨⟩ : False)
    · exact ⟨.mulOpTimes ⟨"*", .times, 0⟩ rfl,
        by simp [Tree.symbols, Tree.tokens, classify_quoted]⟩
    · exact ⟨.mulOpSlash ⟨"/", .slash, 0⟩ rfl,
        by simp [Tree.symbols, Tree.tokens, classify_quoted]⟩
  -- the lexical productions are never unfolded at the level of tokens
  all_goals exact absurd hn (by decide +kernel)

/-- **A match spells trees.** Whatever an expression matches in the description, it spells when
each name is read through the trees of its kind. -/
theorem Matches.spells (h : Matches expressionProductions e w) : Spells e w := by
  induction h with
  | name hn hp _ ih => exact nameSpells_of_body hn hp ih
  | lexical hs => exact .inr ⟨_, hs, rfl⟩
  | token t => rfl
  | group _ ih => exact ih
  | optionNone e => exact .inl rfl
  | optionSome _ ih => exact .inr ih
  | repetitionNil e => exact ⟨[], rfl, by simp⟩
  | repetitionCons _ _ ih ih' =>
    obtain ⟨ws, rfl, hws⟩ := ih'
    refine ⟨_ :: ws, rfl, ?_⟩
    simpa [ih] using hws
  | sequenceNil => rfl
  | sequenceCons _ _ ih ih' => exact ⟨_, _, rfl, ih, ih'⟩
  | alternative he _ ih => exact Spells.alternative_of_mem he ih
  | empty => rfl

end Spelling

/-- **The description and the trees agree.** For every kind, the strings of token symbols the
kind's expression matches in the description are exactly the symbols of the kind's trees. -/
theorem matches_iff_exists_tree (k : Kind) (w : List Symbol) :
    Matches expressionProductions k.ebnf w ↔ ∃ t : Tree k, t.symbols = w := by
  constructor
  · intro h
    exact tree_of_spells k h.spells
  · rintro ⟨t, rfl⟩
    exact t.matches

/-- **The description and the grammar describe one language.** Over token symbols, the strings
the description's `Expr` matches are those the expression grammar generates from its start
symbol. -/
theorem matches_iff_generates (w : List Symbol) :
    Matches expressionProductions (.name "Expr") w ↔
      expressionGrammar.Generates [.nonterminal expressionGrammar.start] w := by
  rw [expressionGrammar_start, ← exists_tree_iff_generates]
  exact matches_iff_exists_tree .expr w

end Ebnf

/-- **Viable prefixes in the description's terms.** A viable prefix is a prefix of a string the
description's `Expr` matches, followed by the end marker. -/
theorem viable_iff_matches (v : List Symbol) :
    Viable v ↔ ∃ y w, Ebnf.Matches Ebnf.expressionProductions (.name "Expr") w ∧
      v ++ y = w ++ [.endOfInput] := by
  simp only [viable_iff_generates, Ebnf.matches_iff_generates]

end ExprTranslate
