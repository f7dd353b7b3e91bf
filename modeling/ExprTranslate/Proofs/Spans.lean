import ExprTranslate.Proofs.Reports
import ExprTranslate.Proofs.Discipline
/-!
# The spans of the instances

Every non-terminal instance gets a span of token positions: an empty one at the cursor when it is
made, again when its own production is expanded, and its end set to the cursor when that
production's action runs. This module shows that in a run that accepts, the span an instance has
when its action is reported is exactly the run of tokens it derives.

* `Placed`, `Tree.placed`: the nodes of a parse tree in post-order, each with the position of its
  first token; `Tree.parts`: the symbols of a node's production, a token or a subtree each;
* `placed_within`, `parts_placed`: a placed node sits on its own tokens, and the parts of its
  production lie end to end over them, each subtree placed where the parts before it end;
* `SpanSpells`, `SpanTraced`: the simulation of an accepted run. A terminal stands for one
  position, a non-terminal for the nodes of a tree placed from where it starts, and an action for
  its owner, whose span starts where the owner was expanded and will end where the action runs;
  `SpanTraced.step` shows that every step keeps this, the stack discipline keeping apart the
  records that different entries stand for;
* `action_spans_cover_tokens`: the instances reported with their actions are the tree's nodes in
  post-order, each spanning its own tokens, the root spanning everything before the end marker.
-/

namespace ExprTranslate

variable {α : Type}

/-! ### Placed nodes of a parse tree -/

/-- A node of a parse tree with the position of its first token. -/
structure Placed where
  kind : Kind
  tree : Tree kind
  pos : Nat

/-- The positions a placed node covers: from its first token to just after its last one. -/
def Placed.span (x : Placed) : Span :=
  ⟨Span.word x.pos, Span.word (x.pos + x.tree.tokens.length)⟩

/-- A symbol of a production as a parse has it: the token a terminal matched, or the subtree of a
non-terminal. -/
inductive Part
  | token (tok : Token)
  | node {k : Kind} (t : Tree k)

/-- The tokens a part derives. -/
def Part.tokens : Part → List Token
  | .token tok => [tok]
  | .node t => t.tokens

namespace Tree

/-- The nodes of a tree in post-order, each placed after the tokens of the nodes before it, when
the tree's first token is at `pos`. -/
def placed : {k : Kind} → Nat → Tree k → List Placed
  | _, pos, exprRule s m h => s.placed pos ++ m.placed (pos + s.tokens.length) ++
      h.placed (pos + s.tokens.length + m.tokens.length) ++ [⟨_, exprRule s m h, pos⟩]
  | _, pos, signAddOp a => a.placed pos ++ [⟨_, signAddOp a, pos⟩]
  | _, pos, termRule f h => f.placed pos ++ h.placed (pos + f.tokens.length) ++
      [⟨_, termRule f h, pos⟩]
  | _, pos, factorParens lp hl e rp hr => e.placed (pos + 1) ++ [⟨_, factorParens lp hl e rp hr, pos⟩]
  | _, pos, exprTailMore a m h => a.placed pos ++ m.placed (pos + a.tokens.length) ++
      h.placed (pos + a.tokens.length + m.tokens.length) ++ [⟨_, exprTailMore a m h, pos⟩]
  | _, pos, termTailMore o f h => o.placed pos ++ f.placed (pos + o.tokens.length) ++
      h.placed (pos + o.tokens.length + f.tokens.length) ++ [⟨_, termTailMore o f h, pos⟩]
  | _, pos, t => [⟨_, t, pos⟩]

/-- The parts of a tree's production, left to right; an `ε`-production has none. -/
def parts : {k : Kind} → Tree k → List Part
  | _, factorIdentifier tok _ => [.token tok]
  | _, exprRule s m h => [.node s, .node m, .node h]
  | _, signAddOp a => [.node a]
  | _, signNone => []
  | _, termRule f h => [.node f, .node h]
  | _, factorNumber tok _ => [.token tok]
  | _, factorParens lp _ e rp _ => [.token lp, .node e, .token rp]
  | _, addOpPlus tok _ => [.token tok]
  | _, addOpMinus tok _ => [.token tok]
  | _, mulOpTimes tok _ => [.token tok]
  | _, mulOpSlash tok _ => [.token tok]
  | _, exprTailMore a m h => [.node a, .node m, .node h]
  | _, exprTailEnd => []
  | _, termTailMore o f h => [.node o, .node f, .node h]
  | _, termTailEnd => []

variable {k : Kind}

/-- The parts of a production together derive the node's tokens. -/
theorem parts_tokens (t : Tree k) : t.parts.flatMap Part.tokens = t.tokens := by
  cases t <;> simp [parts, tokens, Part.tokens]

/-- A tree's own node comes last, after the nodes of its subtrees. -/
theorem getLast?_placed (t : Tree k) (pos : Nat) : (t.placed pos).getLast? = Option.some ⟨k, t, pos⟩ := by
  cases t <;> simp only [placed, List.getLast?_append, List.getLast?_singleton, Option.some_or]

end Tree

/-- A placed node sits on its tokens within `toks`, which start at `pos`: the tokens before it fill
the positions up to the node's. -/
def Placed.Within (x : Placed) (pos : Nat) (toks : List Token) : Prop :=
  ∃ pre post, toks = pre ++ x.tree.tokens ++ post ∧ x.pos = pos + pre.length

/-- A node within a run of tokens is within every run that holds it. -/
theorem Placed.Within.extend {x : Placed} {pos q : Nat} {c toks : List Token} (A B : List Token)
    (hx : x.Within q c) (hq : q = pos + A.length) (htoks : toks = A ++ c ++ B) :
    x.Within pos toks := by
  obtain ⟨pre, post, rfl, hpos⟩ := hx
  exact ⟨A ++ pre, post ++ B, by simp [htoks], by simp [hpos, hq, Nat.add_assoc]⟩

namespace Tree

variable {k : Kind}

/-- **A placed node sits on its own tokens**: the tokens before it in the tree fill the positions
from the tree's start up to the node's. -/
theorem placed_within (t : Tree k) (pos : Nat) : ∀ x ∈ t.placed pos, x.Within pos t.tokens := by
  have hself : ∀ {k} (t : Tree k) pos, (⟨k, t, pos⟩ : Placed).Within pos t.tokens :=
    fun t pos => ⟨[], [], by simp, by simp⟩
  induction t generalizing pos with
  | exprRule s m h ihs ihm ihh | exprTailMore s m h ihs ihm ihh | termTailMore s m h ihs ihm ihh =>
    intro x hx
    simp only [placed, List.mem_append, List.mem_singleton] at hx
    rcases hx with ((hx | hx) | hx) | rfl
    · exact (ihs pos x hx).extend [] (m.tokens ++ h.tokens) (by simp) (by simp [tokens])
    · exact (ihm _ x hx).extend s.tokens h.tokens rfl (by simp [tokens])
    · exact (ihh _ x hx).extend (s.tokens ++ m.tokens) [] (by simp [Nat.add_assoc])
        (by simp [tokens])
    · exact hself _ pos
  | termRule f h ihf ihh =>
    intro x hx
    simp only [placed, List.mem_append, List.mem_singleton] at hx
    rcases hx with (hx | hx) | rfl
    · exact (ihf pos x hx).extend [] h.tokens (by simp) (by simp [tokens])
    · exact (ihh _ x hx).extend f.tokens [] rfl (by simp [tokens])
    · exact hself _ pos
  | signAddOp a iha =>
    intro x hx
    simp only [placed, List.mem_append, List.mem_singleton] at hx
    rcases hx with hx | rfl
    · exact (iha pos x hx).extend [] [] (by simp) (by simp [tokens])
    · exact hself _ pos
  | factorParens lp hl e rp hr ihe =>
    intro x hx
    simp only [placed, List.mem_append, List.mem_singleton] at hx
    rcases hx with hx | rfl
    · exact (ihe _ x hx).extend [lp] [rp] rfl (by simp [tokens])
    · exact hself _ pos
  | _ =>
    intro x hx
    simp only [placed, List.mem_singleton] at hx
    subst hx
    exact hself _ pos

end Tree

/-- Parts laid end to end from `pos`: each subtree among them is one of `nodes`, placed where the
parts before it end, and each token takes one position. -/
def PartsPlaced (nodes : List Placed) : Nat → List Part → Prop
  | _, [] => True
  | pos, .token _ :: rest => PartsPlaced nodes (pos + 1) rest
  | pos, @Part.node k c :: rest => ⟨k, c, pos⟩ ∈ nodes ∧ PartsPlaced nodes (pos + c.tokens.length) rest

theorem PartsPlaced.mono {nodes nodes' : List Placed} (h : nodes ⊆ nodes') {pos : Nat}
    {ps : List Part} (hp : PartsPlaced nodes pos ps) : PartsPlaced nodes' pos ps := by
  induction ps generalizing pos with
  | nil => trivial
  | cons p ps ih =>
    cases p with
    | token _ => exact ih hp
    | node c => exact ⟨h hp.1, ih hp.2⟩

namespace Tree

variable {k : Kind}

theorem self_mem_placed (t : Tree k) (pos : Nat) : (⟨k, t, pos⟩ : Placed) ∈ t.placed pos :=
  List.mem_of_getLast? (getLast?_placed t pos)

/-- **The parts of every production lie end to end**: each subtree of a node is placed where the
parts before it end, so the spans of a node's children and tokens are adjacent and, with
`parts_tokens`, make up the node's span. -/
theorem parts_placed (t : Tree k) (pos : Nat) :
    ∀ x ∈ t.placed pos, PartsPlaced (t.placed pos) x.pos x.tree.parts := by
  induction t generalizing pos with
  | exprRule s m h ihs ihm ihh | exprTailMore s m h ihs ihm ihh | termTailMore s m h ihs ihm ihh =>
    intro x hx
    simp only [placed, List.mem_append, List.mem_singleton] at hx ⊢
    -- the nodes of each subtree are among the tree's
    rcases hx with ((hx | hx) | hx) | rfl
    · exact (ihs pos x hx).mono fun y hy => by simp [hy]
    · exact (ihm _ x hx).mono fun y hy => by simp [hy]
    · exact (ihh _ x hx).mono fun y hy => by simp [hy]
    · exact ⟨by simp [self_mem_placed], by simp [self_mem_placed], by simp [self_mem_placed],
        trivial⟩
  | termRule f h ihf ihh =>
    intro x hx
    simp only [placed, List.mem_append, List.mem_singleton] at hx ⊢
    rcases hx with (hx | hx) | rfl
    · exact (ihf pos x hx).mono fun y hy => by simp [hy]
    · exact (ihh _ x hx).mono fun y hy => by simp [hy]
    · exact ⟨by simp [self_mem_placed], by simp [self_mem_placed], trivial⟩
  | signAddOp a iha =>
    intro x hx
    simp only [placed, List.mem_append, List.mem_singleton] at hx ⊢
    rcases hx with hx | rfl
    · exact (iha pos x hx).mono fun y hy => by simp [hy]
    · exact ⟨by simp [self_mem_placed], trivial⟩
  | factorParens lp hl e rp hr ihe =>
    intro x hx
    simp only [placed, List.mem_append, List.mem_singleton] at hx ⊢
    rcases hx with hx | rfl
    · exact (ihe _ x hx).mono fun y hy => by simp [hy]
    · exact ⟨by simp [self_mem_placed], trivial⟩
  | _ =>
    intro x hx
    simp only [placed, List.mem_singleton] at hx
    subst hx
    simp [parts, PartsPlaced]

end Tree

/-! ### The instances reported with actions -/

/-- The instance an event reports with an executed action. -/
def Event.owner? : Event α → Option (Instance α)
  | .executed _ o _ => some o
  | _ => none

/-- The kind and span of an instance. -/
def Instance.view (o : Instance α) : Kind × Span := (o.kind, o.span)

/-- The kind and span of a placed node. -/
def Placed.view (x : Placed) : Kind × Span := (x.kind, x.span)

/-- The kinds and spans of the instances reported with executed actions, in order. -/
def actionSpans (es : List (Event α)) : List (Kind × Span) :=
  (es.filterMap Event.owner?).map Instance.view

@[simp] theorem actionSpans_push (es : Array (Event α)) (e : Event α) :
    actionSpans (es.push e).toList =
      actionSpans es.toList ++ (e.owner?.map Instance.view).toList := by
  simp only [actionSpans, Array.toList_push, List.filterMap_append, List.filterMap_cons,
    List.filterMap_nil, List.map_append]
  cases e.owner? <;> rfl

section Steps

variable {cfg : Config α} (hobs : cfg.observe = true) {st : State α}
include hobs

-- Pops, expansions and matches report no instance; closing an owner's span reports the owner.
theorem actionSpans_popTo (st : State α) (top : Entry) (rest : List Entry) :
    actionSpans (st.popTo cfg top rest).events.toList = actionSpans st.events.toList := by
  simp only [State.popTo, noted_events, hobs, if_true, actionSpans_push]
  simp [Event.owner?]

theorem actionSpans_matched {s : Symbol} {rest : List Entry} (held : Option (Literal α))
    (la : Token) :
    actionSpans (({ st.popTo cfg (.terminal s) rest with held := held } : State α).matchedTo cfg
      la).events.toList = actionSpans st.events.toList := by
  have h := actionSpans_popTo hobs st (.terminal s) rest
  simp only [matchedTo_events, noted_events, hobs, if_true, actionSpans_push] at h ⊢
  simp [h, Event.owner?]

theorem actionSpans_expanded {top : Entry} {rest : List Entry} {p : Production} {r : Nat} :
    actionSpans (st.expanded cfg top rest p r).events.toList = actionSpans st.events.toList := by
  have h := actionSpans_popTo hobs st top rest
  simp only [State.expanded, expandBy_events, noted_events, hobs, if_true, actionSpans_push] at h ⊢
  simp [h, Event.owner?]

theorem actionSpans_closed {grp : Group} {o : Nat} {x : Instance α}
    (hx : st.records[o]? = some x) :
    actionSpans (st.closed cfg grp o).events.toList =
      actionSpans st.events.toList ++ [(x.kind, x.span.close st.cursor)] := by
  simp only [State.closed, noted_events, hobs, if_true, actionSpans_push]
  simp [State.actionEvent, Event.owner?, Instance.view, Array.getElem?_modify, hx]

end Steps

/-! ### Closing a span -/

/-- A position that fits in a word is the number of its word. -/
theorem Span.toNat_word {n : Nat} (h : n < UInt64.size) : (Span.word n).toNat = n := by
  have hpow : Int.pow 2 64 = (UInt64.size : Int) := rfl
  rw [Span.word, hpow, Int.emod_eq_of_lt (by omega) (by omega), Int.toNat_natCast,
    UInt64.toNat_ofNat_of_lt' h]

/-- Closing the empty span at `q` at a later position that fits in a word ends it there: the
clamp for a position before the start never applies. -/
theorem Span.close_atPos {q pos : Nat} (hq : q ≤ pos) (hpos : pos < UInt64.size) :
    (Span.atPos q).close pos = ⟨Span.word q, Span.word pos⟩ := by
  have hlt : ¬ Span.word pos < Span.word q := by
    rw [UInt64.lt_iff_toNat_lt, Span.toNat_word hpos, Span.toNat_word (by omega)]
    omega
  simp [Span.close, Span.atPos, hlt]

/-! ### The simulation of an accepted run -/

namespace State

/-- The kind of each record. -/
def kinds (st : State α) (i : Nat) : Option Kind := st.records[i]?.map (·.kind)

/-- The record of each group's owner. -/
def ownerRecord (st : State α) (g : Nat) : Option (Instance α) :=
  (st.ownerOf g).bind fun o => st.records[o]?

end State

/-- What the entries of a stack will report with their actions in a run that accepts, when the
first of them starts at position `pos`, and the tokens they will match there: a terminal one
token; a non-terminal of kind `k`, its record of that kind, the nodes of a tree of its kind
placed from `pos`; an action its group's owner, whose span starts at some `q` up to `pos`, closed
at `pos`. -/
inductive SpanSpells (kinds : Nat → Option Kind) (owners : Nat → Option (Instance α)) :
    List Entry → Nat → List (Kind × Span) → List Token → Prop
  | nil (pos : Nat) : SpanSpells kinds owners [] pos [] []
  | terminal {s : Symbol} {rest : List Entry} {pos : Nat} {S : List (Kind × Span)}
      {w : List Token} (tok : Token) (hs : tok.symbol = s) :
      SpanSpells kinds owners rest (pos + 1) S w →
      SpanSpells kinds owners (.terminal s :: rest) pos S (tok :: w)
  | nonterminal {k : Kind} {i : Nat} {rest : List Entry} {pos : Nat} {S : List (Kind × Span)}
      {w : List Token} (t : Tree k) (hk : kinds i = some k) :
      SpanSpells kinds owners rest (pos + t.tokens.length) S w →
      SpanSpells kinds owners (.nonterminal k i :: rest) pos ((t.placed pos).map Placed.view ++ S)
        (t.tokens ++ w)
  | action {id : Int} {g : Nat} {rest : List Entry} {pos : Nat} {S : List (Kind × Span)}
      {w : List Token} {r : Instance α} {q : Nat} (hr : owners g = some r)
      (hspan : r.span = Span.atPos q) (hq : q ≤ pos) :
      SpanSpells kinds owners rest pos S w →
      SpanSpells kinds owners (.action id g :: rest) pos
        ((r.kind, ⟨Span.word q, Span.word pos⟩) :: S) w

namespace SpanSpells

variable {kinds kinds' : Nat → Option Kind} {owners owners' : Nat → Option (Instance α)}
  {syms : List Entry} {pos : Nat} {S : List (Kind × Span)} {w : List Token}

theorem congr_pos {pos' : Nat} (h : SpanSpells kinds owners syms pos S w) (hpos : pos = pos') :
    SpanSpells kinds owners syms pos' S w :=
  hpos ▸ h

/-- Records that keep their kinds, and owners of the stack's groups that keep their records,
keep what a stack spells. -/
theorem mono (hk : ∀ i k, kinds i = some k → kinds' i = some k)
    (ho : ∀ g ∈ actionGroups syms, ∀ r, owners g = some r → owners' g = some r)
    (h : SpanSpells kinds owners syms pos S w) : SpanSpells kinds' owners' syms pos S w := by
  induction h with
  | nil pos => exact .nil pos
  | terminal tok htok _ ih => exact .terminal tok htok (ih ho)
  | nonterminal t hi _ ih => exact .nonterminal t (hk _ _ hi) (ih ho)
  | action hr hspan hq _ ih =>
    exact .action (ho _ (.head _) _ hr) hspan hq (ih fun g hg => ho g (.tail _ hg))

/-- A stack derives the symbols of the tokens it spells. -/
theorem derives (h : SpanSpells kinds owners syms pos S w) : Derives syms (w.map Token.symbol) := by
  induction h with
  | nil => exact .nil
  | terminal tok htok _ ih => exact htok ▸ .terminal ih
  | nonterminal t _ _ ih => simpa [Tree.symbols] using Derives.nonterminal t ih
  | action _ _ _ _ ih => exact .action ih

end SpanSpells

open Production in
/-- The entries a tree's production pushes, with its action below them, spell the nodes of the
tree placed from where it starts, its own node last: the action reports the owner, whose span
starts there and is closed after the tree's tokens. -/
theorem spanSpells_rule {kinds : Nat → Option Kind} {owners : Nat → Option (Instance α)}
    {k : Kind} (t : Tree k) (f g pos : Nat) {rest : List Entry} {S : List (Kind × Span)}
    {w : List Token} (hk : ∀ j, kinds (f + j) = t.rule.nonTerminals[j]?) {r : Instance α}
    (hr : owners g = some r) (hkind : r.kind = k) (hspan : r.span = Span.atPos pos)
    (h : SpanSpells kinds owners rest (pos + t.tokens.length) S w) :
    SpanSpells kinds owners (rhsEntries t.rule.rhs f ++ .action t.rule.id g :: rest) pos
      ((t.placed pos).map Placed.view ++ S) (t.tokens ++ w) := by
  have ha : SpanSpells kinds owners (.action t.rule.id g :: rest) (pos + t.tokens.length)
      (Placed.view ⟨k, t, pos⟩ :: S) w := by
    subst hkind
    exact .action hr hspan (Nat.le_add_right _ _) h
  cases t with
  | exprRule s m e | exprTailMore s m e | termTailMore s m e =>
    simp only [Tree.rule, rhsEntries, exprRule, exprTailMore, termTailMore, Tree.placed,
      Tree.tokens, List.map_append, List.append_assoc, List.cons_append, List.nil_append,
      List.map_cons, List.map_nil] at hk ha ⊢
    exact .nonterminal s (by simpa [nonTerminals] using hk 0)
      (.nonterminal m (by simpa [nonTerminals] using hk 1)
        (.nonterminal e (by simpa [nonTerminals] using hk 2) (ha.congr_pos (by simp; omega))))
  | termRule f' e =>
    simp only [Tree.rule, rhsEntries, termRule, Tree.placed, Tree.tokens, List.map_append,
      List.append_assoc, List.cons_append, List.nil_append, List.map_cons, List.map_nil] at hk ha ⊢
    exact .nonterminal f' (by simpa [nonTerminals] using hk 0)
      (.nonterminal e (by simpa [nonTerminals] using hk 1) (ha.congr_pos (by simp; omega)))
  | signAddOp a =>
    simp only [Tree.rule, rhsEntries, signAddOp, Tree.placed, Tree.tokens, List.map_append,
      List.append_assoc, List.cons_append, List.nil_append, List.map_cons, List.map_nil] at hk ha ⊢
    exact .nonterminal a (by simpa [nonTerminals] using hk 0) ha
  | signNone | exprTailEnd | termTailEnd =>
    simpa [Tree.rule, rhsEntries, signNone, exprTailEnd, termTailEnd, Tree.placed, Tree.tokens,
      Symbol.empty] using ha
  | factorNumber tok h' | factorIdentifier tok h' | addOpPlus tok h' | addOpMinus tok h'
  | mulOpTimes tok h' | mulOpSlash tok h' =>
    simp only [Tree.rule, rhsEntries, factorNumber, factorIdentifier, addOpPlus, addOpMinus,
      mulOpTimes, mulOpSlash, Tree.placed, Tree.tokens] at ha ⊢
    simpa [Symbol.number, Symbol.identifier, Symbol.plus, Symbol.minus, Symbol.times,
      Symbol.slash, Symbol.empty] using SpanSpells.terminal tok h' ha
  | factorParens lp hl e rp hr' =>
    simp only [Tree.rule, rhsEntries, factorParens, Tree.placed, Tree.tokens, List.map_append,
      List.append_assoc, List.cons_append, List.nil_append, List.map_cons, List.map_nil] at hk ha ⊢
    simpa [Symbol.lparen, Symbol.rparen, Symbol.empty] using
      SpanSpells.terminal lp hl (.nonterminal e (by simpa [nonTerminals] using hk 0)
        (.terminal rp hr' (ha.congr_pos (by simp; omega))))

section Simulation

variable {cfg : Config α} {st st' : State α}

namespace State

theorem kinds_eq (h : st'.records = st.records) : st'.kinds = st.kinds := by
  funext i; simp [kinds, h]

theorem ownerRecord_eq (hr : st'.records = st.records) (ho : st'.ownerOf = st.ownerOf) :
    st'.ownerRecord = st.ownerRecord := by
  funext g; simp [ownerRecord, hr, ho]

-- A match changes no record and no group's owner.
@[simp] theorem kinds_held (h : Option (Literal α)) : ({ st with held := h } : State α).kinds = st.kinds :=
  rfl
@[simp] theorem ownerRecord_held (h : Option (Literal α)) :
    ({ st with held := h } : State α).ownerRecord = st.ownerRecord :=
  rfl
@[simp] theorem kinds_popTo {top : Entry} {rest : List Entry} :
    (st.popTo cfg top rest).kinds = st.kinds :=
  kinds_eq (by simp)
@[simp] theorem ownerRecord_popTo {top : Entry} {rest : List Entry} :
    (st.popTo cfg top rest).ownerRecord = st.ownerRecord :=
  ownerRecord_eq (by simp) (ownerOf_eq (by simp))
@[simp] theorem kinds_matchedTo {la : Token} : (st.matchedTo cfg la).kinds = st.kinds :=
  kinds_eq matchedTo_records
@[simp] theorem ownerRecord_matchedTo {la : Token} :
    (st.matchedTo cfg la).ownerRecord = st.ownerRecord := by
  refine ownerRecord_eq matchedTo_records ?_
  simp only [matchedTo]
  split
  · rw [leave_ownerOf]; exact ownerOf_eq (by simp)
  · exact ownerOf_eq (by simp)

/-- The owner of a group of the stack is among the records the stack names. -/
theorem mem_named_of_ownerOf {syms : List Entry} {g o : Nat} (hg : g ∈ actionGroups syms)
    (ho : st.ownerOf g = some o) : o ∈ st.named syms := by
  induction syms with
  | nil => cases hg
  | cons e rest ih =>
    cases e with
    | terminal s => exact ih hg
    | nonterminal k i => exact .tail _ (ih hg)
    | action id g' =>
      rcases List.mem_cons.mp hg with rfl | hg
      · simp [named, ho]
      · exact List.mem_append_right _ (ih hg)

/-- A step that keeps the owners of the stack's groups, and the records the stack names, keeps
the owners' records. -/
theorem ownerRecord_keep {syms : List Entry}
    (ho : ∀ g ∈ actionGroups syms, st'.ownerOf g = st.ownerOf g)
    (hr : ∀ o ∈ st.named syms, ∀ x, st.records[o]? = some x → st'.records[o]? = some x) :
    ∀ g ∈ actionGroups syms, ∀ r, st.ownerRecord g = some r → st'.ownerRecord g = some r := by
  intro g hg r h
  obtain ⟨o, hog, hro⟩ := Option.bind_eq_some_iff.mp h
  simp only [ownerRecord, ho g hg, hog, Option.bind_some]
  exact hr o (mem_named_of_ownerOf hg hog) r hro

end State

/-- An expansion keeps every record's kind: it only resets the expanded record's span, and adds
records for the production's non-terminals. -/
theorem kinds_expanded {top : Entry} {rest : List Entry} {p : Production} {r : Nat} {j : Nat}
    {k : Kind} (h : st.kinds j = some k) : (st.expanded cfg top rest p r).kinds j = some k := by
  have hj : j < st.records.size := by
    simp only [State.kinds, Option.map_eq_some_iff] at h
    obtain ⟨x, hx, -⟩ := h
    exact (Array.getElem?_eq_some_iff.mp hx).1
  simp only [State.kinds] at h ⊢
  rw [expanded_records, Array.getElem?_append_left (by simpa using hj), Array.getElem?_modify]
  split <;> cases hx : st.records[j]? <;> simp_all

/-- The production's members get the kinds of its non-terminals. -/
theorem kinds_expanded_member {top : Entry} {rest : List Entry} {p : Production} {r : Nat}
    (j : Nat) : (st.expanded cfg top rest p r).kinds (st.records.size + j) = p.nonTerminals[j]? := by
  simp only [State.kinds, expanded_member]
  cases p.nonTerminals[j]? <;> simp [Instance.fresh]

/-- Closing the owner's span keeps every record's kind. -/
@[simp] theorem kinds_closed {grp : Group} {o : Nat} : (st.closed cfg grp o).kinds = st.kinds := by
  funext j
  simp only [State.kinds, closed_records, Array.getElem?_modify]
  split <;> cases st.records[j]? <;> simp

/-- **The invariant of a run that reports the instances `total`.** The kinds and spans of the
instances reported so far, followed by what the stack spells from the cursor, are `total`, and
the tokens the stack spells are next in the input. -/
def SpanTraced (total : List (Kind × Span)) (st : State α) : Prop :=
  ∃ S w more, SpanSpells st.kinds st.ownerRecord st.syms st.cursor S w ∧
    st.tokens.toList.drop st.cursor = w ++ more ∧ actionSpans st.events.toList ++ S = total

/-- An empty stack spells nothing: the instances are all reported. -/
theorem SpanTraced.final {total : List (Kind × Span)} (htr : SpanTraced total st)
    (hs : st.syms = []) : actionSpans st.events.toList = total := by
  obtain ⟨S, w, more, hsp, -, hrep⟩ := htr
  rw [hs] at hsp
  cases hsp
  simpa using hrep

/-- The first state spells the nodes of a tree of the input placed from its start. -/
theorem spanTraced_initial (hT : cfg.table = expressionTable) {tokens : List Token}
    {t : Tree .expr} {eoi : Token} {more : List Token}
    (hsplit : terminated tokens = t.tokens ++ eoi :: more) (heoi : eoi.symbol = .endOfInput) :
    SpanTraced ((t.placed 0).map Placed.view) (initial cfg tokens) := by
  have hsyms : (initial cfg tokens).syms = [.nonterminal .expr 0, .terminal .endOfInput] := by
    simp [initial, hT, expressionTable_start]
  have hk : (initial cfg tokens).kinds 0 = some .expr := by
    simp [State.kinds, initial, hT, expressionTable_start, Instance.fresh]
  refine ⟨(t.placed 0).map Placed.view ++ [], t.tokens ++ [eoi], more, ?_,
    by simp [initial, hsplit], by simp [actionSpans, initial]⟩
  rw [hsyms]
  exact .nonterminal t hk (.terminal eoi heoi (.nil _))

variable (hT : cfg.table = expressionTable) (hobs : cfg.observe = true)
include hT hobs

/-- Expanding a non-terminal keeps the simulation: the production chosen is the rule of the tree
it spells, whose nodes now stand above the entries below, and its owner's span starts at the
cursor. -/
theorem SpanTraced.expanded {total : List (Kind × Span)} (hpre : Prefixed cfg st)
    (hd : Discipline st) (htr : SpanTraced total st) {k : Kind} {i : Nat} {rest : List Entry}
    {p : Production} (hs : st.syms = .nonterminal k i :: rest)
    (hp : cfg.table.select k.code st.lookahead.symbol = some p) :
    SpanTraced total (st.expanded cfg (.nonterminal k i) rest p i) := by
  obtain ⟨S, w, more, hsp, hdrop, hrep⟩ := htr
  have hdist := hd.distinct
  have hbound := hd.bounded
  rw [hs] at hsp hdist hbound
  cases hsp with
  | @nonterminal _ _ _ _ S' w' t hk hsp =>
    have hrule : p = t.rule := select_eq_rule hT hpre hs t hsp.derives hdrop hp
    subst hrule
    obtain ⟨x, hx, hxk⟩ : ∃ x, st.records[i]? = some x ∧ x.kind = k := by
      simpa [State.kinds] using hk
    -- the new group's owner is the expanded record, its span now starting at the cursor
    have hown : (st.expanded cfg (.nonterminal k i) rest t.rule i).ownerRecord
        st.groupTable.size = some { x with span := Span.atPos st.cursor } := by
      rw [State.ownerRecord, expanded_ownerOf, if_pos rfl, Option.bind_some, expanded_owner hx]
    -- no entry below names the expanded record, so the owners below keep their records
    have hi : i ∉ st.named rest := (List.nodup_cons.mp (by simpa [State.named] using hdist)).1
    have hkeep : ∀ g ∈ actionGroups rest, ∀ r, st.ownerRecord g = some r →
        (st.expanded cfg (.nonterminal k i) rest t.rule i).ownerRecord g = some r := by
      refine State.ownerRecord_keep (fun g hg => ?_) (fun o ho y hy => ?_)
      · have hlt := (hbound g (by simpa [actionGroups] using hg)).2
        rw [expanded_ownerOf, if_neg (Nat.ne_of_lt hlt)]
      · have hlt : o < st.records.size := (Array.getElem?_eq_some_iff.mp hy).1
        have hne : i ≠ o := fun h => hi (h ▸ ho)
        rw [expanded_records, Array.getElem?_append_left (by simpa using hlt),
          Array.getElem?_modify, if_neg hne, hy]
    refine ⟨(t.placed st.cursor).map Placed.view ++ S', t.tokens ++ w', more, ?_,
      by simpa using hdrop, ?_⟩
    · rw [expanded_syms, expanded_cursor]
      exact spanSpells_rule t st.records.size st.groupTable.size st.cursor kinds_expanded_member
        hown hxk rfl (hsp.mono (fun _ _ => kinds_expanded) hkeep)
    · rw [actionSpans_expanded hobs, ← hrep]

omit hT in
/-- Running an action keeps the simulation: it closes its owner's span at the cursor, where the
owner's tree ends, and leaves the owners below as they are. -/
theorem SpanTraced.executed {total : List (Kind × Span)} (hpre : Prefixed cfg st)
    (hd : Discipline st) (hsize : st.tokens.size ≤ UInt64.size) (htr : SpanTraced total st)
    {id : Int} {g o : Nat} {rest : List Entry} {grp : Group} {s₂ : State α}
    (hs : st.syms = .action id g :: rest) (hg : st.groupTable[g]? = some grp)
    (ho : grp.owner = some o)
    (hrun : (runAction cfg grp).run (st.released cfg id g rest grp) = (.ok (), s₂)) :
    SpanTraced total (s₂.closed cfg grp o) := by
  obtain ⟨S, w, more, hsp, hdrop, hrep⟩ := htr
  have hc := Confined.of_runAction ho hrun
  have hev : s₂.events = (st.popTo cfg (.action id g) rest).events := by
    rw [hc.events]; unfold State.released; split <;> simp
  have hcur : s₂.cursor = st.cursor := by
    rw [hc.cursor]; unfold State.released; split <;> simp
  -- an action is above the end marker, so the cursor is at a token and fits in a word
  have hlt : st.cursor < UInt64.size :=
    Nat.lt_of_lt_of_le (hpre.cursor_lt (by simp [hs])) hsize
  have hdist := hd.distinct
  rw [hs] at hsp hdist
  cases hsp with
  | @action _ _ _ _ S' _ r q hr hspan hq hsp =>
    have hog : st.ownerOf g = some o := by simp [State.ownerOf, hg, ho]
    have hro : st.records[o]? = some r := by simpa [State.ownerRecord, hog] using hr
    -- the owner keeps its kind and span until its action closes the span
    obtain ⟨r', hr', hkind, hspan'⟩ := hc.owner r (by simpa using hro)
    -- no entry below names the owner, so the owners below keep their records
    have hout : o ∉ st.named rest := (List.nodup_cons.mp (by simpa [State.named, hog] using hdist)).1
    have htable : (s₂.closed cfg grp o).groupTable = (st.released cfg id g rest grp).groupTable := by
      rw [closed_groupTable, hc.groupTable]
    have hkeep : ∀ g' ∈ actionGroups rest, ∀ r'', st.ownerRecord g' = some r'' →
        (s₂.closed cfg grp o).ownerRecord g' = some r'' := by
      refine State.ownerRecord_keep (fun g' _ => ?_) (fun o' ho' y hy => ?_)
      · rw [State.ownerOf_eq htable, released_ownerOf]
      · have hne : o' ≠ o := fun h => hout (h ▸ ho')
        rw [closed_records, Array.getElem?_modify, if_neg (Ne.symm hne), hc.others o' hne,
          released_records, hy]
    have hkinds : ∀ j k', st.kinds j = some k' → (s₂.closed cfg grp o).kinds j = some k' := by
      intro j k' hj
      rw [kinds_closed]
      by_cases hjo : j = o
      · subst hjo
        simpa [State.kinds, hr', hkind, hro] using hj
      · simpa [State.kinds, hc.others j hjo] using hj
    refine ⟨S', w, more, ?_, ?_, ?_⟩
    · rw [closed_syms, hc.syms, released_syms, closed_cursor, hcur]
      exact hsp.mono hkinds hkeep
    · rw [closed_tokens, closed_cursor, hc.tokens, hc.cursor]
      unfold State.released
      split <;> simpa using hdrop
    · rw [actionSpans_closed hobs hr', hev, actionSpans_popTo hobs, hcur, hkind, hspan', hspan,
        Span.close_atPos hq hlt, ← hrep]
      simp

/-- **One step keeps the simulation.** A match consumes the token the terminal spells; an
expansion chooses the production of the tree the non-terminal spells and starts its owner's span
at the cursor; an action closes its owner's span at the cursor, where the owner's tree ends. -/
theorem SpanTraced.step {total : List (Kind × Span)} (hpre : Prefixed cfg st) (hd : Discipline st)
    (hsize : st.tokens.size ≤ UInt64.size) (htr : SpanTraced total st)
    (ht : Transition cfg st st') : SpanTraced total st' := by
  cases ht with
  | @matched s rest hs _ _ =>
    obtain ⟨S, w, more, hsp, hdrop, hrep⟩ := htr
    rw [hs] at hsp
    cases hsp with
    | @terminal _ _ _ _ w' tok _ hsp =>
      obtain ⟨-, hdrop'⟩ := lookahead_of_drop (hdrop.trans (List.cons_append ..))
      refine ⟨S, w', more, ?_, by simpa using hdrop', by rw [actionSpans_matched hobs, hrep]⟩
      rw [State.kinds_matchedTo, State.ownerRecord_matchedTo, State.kinds_held,
        State.ownerRecord_held, State.kinds_popTo, State.ownerRecord_popTo]
      simpa using hsp
  | expanded hs hp =>
    exact SpanTraced.expanded hT hobs hpre hd htr hs hp
  | executed hs hg ho _ _ hrun =>
    exact SpanTraced.executed hobs hpre hd hsize htr hs hg ho hrun

/-- Every state of the run keeps the simulation that its first state starts. -/
theorem spanTraced_of_reachable {tokens : List Token} {total : List (Kind × Span)}
    (hlen : tokens.length < UInt64.size) (h₀ : SpanTraced total (initial cfg tokens))
    (h : Reachable cfg tokens st) : SpanTraced total st := by
  have hA : cfg.table.grammar.ActionFree := hT ▸ expressionTable_actionFree
  -- the correct-prefix invariant and the bound on the input ride along
  suffices Prefixed cfg st ∧ st.tokens.size ≤ UInt64.size ∧ SpanTraced total st from this.2.2
  induction h with
  | initial =>
    refine ⟨prefixed_initial hT tokens, ?_, h₀⟩
    simpa [initial] using Nat.le_trans (length_terminated tokens) hlen
  | step hreach hstep ih =>
    have ht := transition_of_step hstep
    exact ⟨ht.moves.prefixed hT ih.1, ht.moves.tokens ▸ ih.2.1,
      ih.2.2.step hT hobs ih.1 (discipline_of_reachable hA hreach) ih.2.1 ht⟩

end Simulation

/-! ### The spans of a translation -/

/-- **Every instance reported with its action spans the tokens it derives.** With the expression
grammar's table, observed, on fewer than `UInt64.size` tokens, a translation that succeeds has
read the tokens of a tree of its input up to an end marker, and the instances it reports with
its actions are the tree's nodes in post-order, each with its kind and a span from the position
of its first token to just after its last: the positions of exactly its tokens, an empty span
where it stands for a node that derives nothing. The parts of each node's production lie end to
end over its span, and the root, reported last, spans every token before the end marker. -/
theorem action_spans_cover_tokens {cfg : Config α} (hT : cfg.table = expressionTable)
    (hobs : cfg.observe = true) (tokens : List Token) (hlen : tokens.length < UInt64.size) :
    ∀ abort v p, (translate cfg tokens none abort).ending = .success v p →
      ∃ (t : Tree .expr) (eoi : Token) (more : List Token),
        terminated tokens = t.tokens ++ eoi :: more ∧ eoi.symbol = .endOfInput ∧
        actionSpans (translate cfg tokens none abort).events = (t.placed 0).map Placed.view ∧
        (∀ x ∈ t.placed 0, x.span.lo.toNat = x.pos ∧
          x.span.hi.toNat = x.pos + x.tree.tokens.length ∧
          ((terminated tokens).drop x.pos).take x.tree.tokens.length = x.tree.tokens ∧
          x.tree.parts.flatMap Part.tokens = x.tree.tokens ∧
          PartsPlaced (t.placed 0) x.pos x.tree.parts) ∧
        (actionSpans (translate cfg tokens none abort).events).getLast? =
          some (.expr, ⟨Span.word 0, Span.word t.tokens.length⟩) := by
  intro abort v p hend
  -- the run accepted, so a tree spells the input up to an end marker
  obtain ⟨t, eoi, more, hsplit, heoi, -⟩ :=
    (@translate_outcome α cfg hT tokens abort).resolve_right fun ⟨_, _, _, _, _, hfail⟩ => by
      rw [hend] at hfail
      cases hfail
  -- and the run ended on an empty stack, where the simulation has reported everything
  obtain ⟨fuel, st, -, hev, hr⟩ := @translate_halts α cfg tokens none abort
  rcases hr with ⟨hr, -⟩ | ⟨e, -, hf⟩ | ⟨-, hf⟩
  · obtain ⟨hreach, hsyms⟩ := Reachable.finished .initial hr
    have hrep := (spanTraced_of_reachable hT hobs hlen (spanTraced_initial hT hsplit heoi)
      hreach).final hsyms
    rw [hev, hrep]
    refine ⟨t, eoi, more, hsplit, heoi, rfl, fun x hx => ?_, ?_⟩
    · obtain ⟨pre, post, htoks, hpos⟩ := t.placed_within 0 x hx
      -- every node ends before the end marker, so both its ends fit in a word
      have hle : x.pos + x.tree.tokens.length ≤ t.tokens.length := by
        rw [htoks, hpos]; simp
      have hterm : t.tokens.length < (terminated tokens).length := by
        rw [hsplit]; simp
      have hfit : x.pos + x.tree.tokens.length < UInt64.size := by
        have := length_terminated tokens
        omega
      refine ⟨Span.toNat_word (by omega), Span.toNat_word hfit, ?_, x.tree.parts_tokens,
        t.parts_placed 0 x hx⟩
      rw [hsplit, htoks, hpos]
      simp
    · simp [List.getLast?_map, Tree.getLast?_placed, Placed.view, Placed.span]
  · rw [hend] at hf
    cases hf
  · rw [hend] at hf
    cases hf

/-- The expression grammar's table, observed, on `1 + x`. -/
theorem observed_action_spans_cover_tokens :
    let cfg : Config Float := ⟨Arith.float, expressionTable, true, [], true⟩
    let tokens : List Token := [⟨"1", .number, 1⟩, ⟨"+", .plus, 1⟩, ⟨"x", .identifier, 1⟩]
    cfg.table = expressionTable ∧ cfg.observe = true ∧ tokens.length < UInt64.size ∧
    ∀ abort v p, (translate cfg tokens none abort).ending = .success v p →
      ∃ (t : Tree .expr) (eoi : Token) (more : List Token),
        terminated tokens = t.tokens ++ eoi :: more ∧ eoi.symbol = .endOfInput ∧
        actionSpans (translate cfg tokens none abort).events = (t.placed 0).map Placed.view ∧
        (∀ x ∈ t.placed 0, x.span.lo.toNat = x.pos ∧
          x.span.hi.toNat = x.pos + x.tree.tokens.length ∧
          ((terminated tokens).drop x.pos).take x.tree.tokens.length = x.tree.tokens ∧
          x.tree.parts.flatMap Part.tokens = x.tree.tokens ∧
          PartsPlaced (t.placed 0) x.pos x.tree.parts) ∧
        (actionSpans (translate cfg tokens none abort).events).getLast? =
          some (.expr, ⟨Span.word 0, Span.word t.tokens.length⟩) := by
  intro cfg tokens
  have hT : cfg.table = expressionTable := by simp [cfg]
  exact ⟨hT, rfl, by decide, action_spans_cover_tokens hT rfl tokens (by decide)⟩

end ExprTranslate
