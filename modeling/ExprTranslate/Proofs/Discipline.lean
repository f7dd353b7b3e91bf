import ExprTranslate.Proofs.Transition
import ExprTranslate.Proofs.Viability
/-!
# The attribute stack

A group enters the attribute stack when a production other than `ε` is expanded, and leaves it
on one of two paths: at a match, when all its members are synthesized and it is on top, or when
the action of its production runs. For every table whose productions hold no action symbols
(the only ones a grammar can be built from), whatever the input:

* `Discipline st`: the attribute stack is, top first, the groups of the action symbols on the
  symbol stack that have not left it, in the order of those symbols, above the bottom group, which
  stays until the end marker is matched while the start symbol's record is synthesized; each
  non-terminal's record and each action's owner is an unsynthesized member of the group the entry
  belongs to, and no record stands for two entries;
* `discipline_of_reachable`: every state a run reaches satisfies it (`discipline_initial`, and
  `Discipline.step` for each of the three kinds of step);
* `built_table_actionFree`, `built_table_discipline`: every table built from a grammar as the
  builder returns it holds no action symbols, so the discipline holds with it;
* `Disciplined`: what one step does to the attribute stack and to the records (a group enters only
  by an expansion, leaves only by its own action or by a match of one of its own terminals once all
  its members are synthesized, and a record is synthesized only by the action of the group it owns);
* `execute_of_discipline`: the two checks of an action never fail;
* `attribute_stack_discipline`: all of this together with the state a finished run ends in.
-/

namespace ExprTranslate

variable {α : Type}

/-- Whether no production of a grammar holds an action symbol. -/
def Grammar.ActionFree (g : Grammar) : Prop := ∀ p ∈ g.rules, ∀ s ∈ p.rhs, s.classCode ≠ 2

instance (g : Grammar) : Decidable g.ActionFree := by
  unfold Grammar.ActionFree; infer_instance

open Production in
/-- The expression grammar has no action symbols in its productions. -/
theorem expressionTable_actionFree : expressionTable.grammar.ActionFree := by
  simp [Grammar.ActionFree, expressionTable_rules, exprRule, signAddOp, signNone, termRule,
    factorNumber, factorParens, addOpPlus, addOpMinus, mulOpTimes, mulOpSlash, exprTailMore,
    exprTailEnd, termTailMore, termTailEnd, factorIdentifier, GSym.classCode]

/-! ### Tables the builder makes

A rule description names terminals and kind numbers only, so no grammar the builder returns holds
an action symbol, and neither does a table built from its analysis. -/

/-- Each result of a map into `Option` that succeeds on a list comes from an element. -/
theorem mem_of_mapM_eq_some {β γ : Type} {f : β → Option γ} :
    ∀ {l : List β} {r : List γ}, l.mapM f = some r → ∀ c ∈ r, ∃ b ∈ l, f b = some c
  | [], r, h => by
    simp only [List.mapM_nil, pure, Option.some.injEq] at h
    subst h
    simp
  | b :: l, r, h => by
    rw [List.mapM_cons] at h
    cases hfb : f b with
    | none => simp [hfb] at h
    | some c =>
      cases hl : l.mapM f with
      | none => simp [hfb, hl] at h
      | some cs =>
        simp only [hfb, hl, Option.bind_eq_bind, Option.bind_some, Option.pure_def,
          Option.some.injEq] at h
        subst h
        intro c' hc'
        rcases List.mem_cons.mp hc' with rfl | hc'
        · exact ⟨b, List.mem_cons_self, hfb⟩
        · obtain ⟨x, hx, hfx⟩ := mem_of_mapM_eq_some hl c' hc'
          exact ⟨x, List.mem_cons_of_mem b hx, hfx⟩

/-- The builder's grammar, its kinds named, holds no action symbol. -/
theorem RawGrammar.kinds?_actionFree {rg : RawGrammar} {g : Grammar} (h : rg.kinds? = some g) :
    g.ActionFree := by
  unfold RawGrammar.kinds? at h
  split at h
  · cases h
    intro p hp s hs
    rename_i hrules
    obtain ⟨q, -, hq⟩ := mem_of_mapM_eq_some hrules p hp
    unfold RawProduction.kinds? at hq
    split at hq
    · cases hq
      rename_i hrhs
      -- every symbol of the right-hand side is the kind of a terminal or a kind number
      obtain ⟨x, -, hx⟩ := mem_of_mapM_eq_some hrhs s hs
      cases x with
      | terminal t =>
        simp only [SymSpec.kind?, Option.some.injEq] at hx
        simp [← hx, GSym.classCode]
      | nonterminal c =>
        obtain ⟨k, -, rfl⟩ := Option.map_eq_some_iff.mp hx
        simp [GSym.classCode]
    · cases hq
  · cases h

/-- Entering a production keeps a table's analysis. -/
theorem Table.enter_analysis {t t' : Table} {p : Production} {la : Symbol}
    (h : t.enter p la = .ok t') : t'.analysis = t.analysis := by
  unfold Table.enter at h
  split at h
  · cases h
  · split at h <;> (cases h; rfl)

/-- A fold in `Except` whose every step keeps the value of `f` keeps it. -/
theorem foldlM_keeps {β γ δ ε : Type} (f : β → δ) {step : β → γ → Except ε β}
    (hstep : ∀ b c b', step b c = .ok b' → f b' = f b) :
    ∀ (l : List γ) (b b' : β), l.foldlM step b = .ok b' → f b' = f b := by
  intro l
  induction l with
  | nil =>
    intro b b' h
    cases h
    rfl
  | cons c l ih =>
    intro b b' h
    rw [List.foldlM_cons] at h
    cases hs : step b c with
    | error e => rw [hs] at h; cases h
    | ok b₁ => rw [hs] at h; exact (ih b₁ b' h).trans (hstep b c b₁ hs)

/-- Building a table keeps the analysis it starts from. -/
theorem Table.build_analysis {a : Analysis} {t : Table} (h : Table.build a = .ok t) :
    t.analysis = a := by
  -- entering keeps the analysis, so the lookaheads of one production keep it, and so do the
  -- productions in turn
  have hlas (p : Production) (t₀ : Table) (las : List Symbol) (t₁ : Table)
      (h : las.foldlM (fun t la => t.enter p la) t₀ = .ok t₁) : t₁.analysis = t₀.analysis :=
    foldlM_keeps Table.analysis (fun _ _ _ he => Table.enter_analysis he) las t₀ t₁ h
  exact foldlM_keeps Table.analysis (fun t₀ p t₁ he => hlas p t₀ _ t₁ he) _ _ _ h

/-- **Tables the builder makes hold no actions.** The table built from the analysis of a grammar
as the builder returns it has no action symbol in a production. -/
theorem built_table_actionFree {rg : RawGrammar} {a : Analysis} {t : Table}
    (ha : rg.analyze = .ok a) (ht : Table.build a = .ok t) : t.grammar.ActionFree := by
  unfold RawGrammar.analyze at ha
  split at ha
  · rename_i g hg
    cases ha
    rw [Table.grammar, Table.build_analysis ht]
    exact RawGrammar.kinds?_actionFree hg
  · cases ha

/-! ### Views of the symbol stack -/

/-- The groups of the action entries of a symbol stack, top first. -/
def actionGroups : List Entry → List Nat
  | [] => []
  | .action _ g :: rest => g :: actionGroups rest
  | _ :: rest => actionGroups rest

/-- The group that an entry pushed on `rest` belongs to: the group of the first action below it,
the bottom group 0 if there is none. -/
def enclosing (rest : List Entry) : Nat := (actionGroups rest).headD 0

/-- The groups the non-terminals and actions of a stack belong to, top first. -/
def claims : List Entry → List Nat
  | [] => []
  | .terminal _ :: rest => claims rest
  | .nonterminal _ _ :: rest => enclosing rest :: claims rest
  | .action _ _ :: rest => enclosing rest :: claims rest

/-- Every terminal with no action below it is the end marker at the bottom. -/
def Grounded : List Entry → Prop
  | [] => True
  | .terminal s :: rest =>
    (actionGroups rest = [] → rest = [] ∧ s = .endOfInput) ∧ Grounded rest
  | _ :: rest => Grounded rest

section Stack

variable {e : Entry} {E rest : List Entry}

@[simp] theorem actionGroups_terminal (s : Symbol) :
    actionGroups (.terminal s :: rest) = actionGroups rest := rfl
@[simp] theorem actionGroups_nonterminal (k : Kind) (i : Nat) :
    actionGroups (.nonterminal k i :: rest) = actionGroups rest := rfl
@[simp] theorem actionGroups_action (id : Int) (g : Nat) :
    actionGroups (.action id g :: rest) = g :: actionGroups rest := rfl

theorem actionGroups_append : actionGroups (E ++ rest) = actionGroups E ++ actionGroups rest := by
  induction E with
  | nil => rfl
  | cons e E ih => cases e <;> simp [ih]

theorem enclosing_append (hE : actionGroups E = []) : enclosing (E ++ rest) = enclosing rest := by
  simp [enclosing, actionGroups_append, hE]

/-- A stack's claims are the bottom group or groups of its actions. -/
theorem mem_claims {g : Nat} (h : g ∈ claims rest) : g = 0 ∨ g ∈ actionGroups rest := by
  induction rest with
  | nil => cases h
  | cons e rest ih =>
    -- the entry's own claim is the head of the groups below it, or 0
    have hencl : enclosing rest = 0 ∨ enclosing rest ∈ actionGroups rest := by
      unfold enclosing; cases actionGroups rest <;> simp
    cases e with
    | terminal s => exact ih h
    | nonterminal k i =>
      rcases List.mem_cons.mp h with rfl | h
      · exact hencl
      · exact ih h
    | action id g' =>
      rcases List.mem_cons.mp h with rfl | h
      · exact hencl.imp_right (List.mem_cons_of_mem _)
      · exact (ih h).imp_right (List.mem_cons_of_mem _)

/-- The group below the first action of a stack is claimed by that action. -/
theorem claims_below {g : Nat} {gs : List Nat} (h : actionGroups rest = g :: gs) :
    gs.headD 0 ∈ claims rest := by
  induction rest with
  | nil => cases h
  | cons e rest ih =>
    cases e with
    | terminal s => exact ih h
    | nonterminal k i => exact List.mem_cons_of_mem _ (ih h)
    | action id g' =>
      simp only [actionGroups_action, List.cons.injEq] at h
      simp [claims, enclosing, h.2]

theorem claims_append (hE : actionGroups E = []) {g : Nat} (h : g ∈ claims (E ++ rest)) :
    g ∈ claims rest ∨ (g = enclosing rest ∧ ∃ k i, .nonterminal k i ∈ E) := by
  induction E with
  | nil => exact .inl h
  | cons e E ih =>
    cases e with
    | terminal s => exact (ih hE h).imp_right fun ⟨h1, k, i, h2⟩ => ⟨h1, k, i, .tail _ h2⟩
    | nonterminal k i =>
      rcases List.mem_cons.mp h with rfl | h
      · exact .inr ⟨enclosing_append hE, k, i, .head _⟩
      · exact (ih hE h).imp_right fun ⟨h1, k, i, h2⟩ => ⟨h1, k, i, .tail _ h2⟩
    | action id g' => cases hE

theorem actionGroups_sublist_cons (e : Entry) (rest : List Entry) :
    (actionGroups rest).Sublist (actionGroups (e :: rest)) := by
  cases e <;> simp

theorem Grounded.tail (h : Grounded (e :: rest)) : Grounded rest := by
  cases e with
  | terminal s => exact h.2
  | nonterminal k i => exact h
  | action id g => exact h

/-- Entries pushed above an action keep every terminal with no action below at the bottom. -/
theorem Grounded.append (h : Grounded rest) (hne : actionGroups rest ≠ []) : Grounded (E ++ rest) := by
  induction E with
  | nil => exact h
  | cons e E ih =>
    cases e with
    | terminal s =>
      refine ⟨fun hnil => ?_, ih⟩
      have hnil' : actionGroups (E ++ rest) = [] := hnil
      rw [actionGroups_append, List.append_eq_nil_iff] at hnil'
      exact absurd hnil'.2 hne
    | nonterminal k i => exact ih
    | action id g => exact ih

end Stack

/-! ### Entries of a right-hand side -/

section Rhs

/-- The entries of a right-hand side without actions hold no action. -/
theorem actionGroups_rhsEntries {rhs : List GSym} (h : ∀ s ∈ rhs, s.classCode ≠ 2) (n : Nat) :
    actionGroups (rhsEntries rhs n) = [] := by
  induction rhs generalizing n with
  | nil => rfl
  | cons s rhs ih =>
    have ih' := ih fun s hs => h s (.tail _ hs)
    cases s with
    | terminal t => unfold rhsEntries; split <;> simp [ih']
    | nonterminal k => simp [rhsEntries, ih']
    | action id => exact absurd rfl (h _ (.head _))

/-- The non-terminal entries of a right-hand side are numbered on from `n`, one for each
non-terminal. -/
theorem nonterminal_mem_rhsEntries {p : Production} {n : Nat} {k : Kind} {i : Nat}
    (h : .nonterminal k i ∈ rhsEntries p.rhs n) : n ≤ i ∧ i < n + p.nonTerminals.length := by
  obtain ⟨id, lhs, rhs⟩ := p
  simp only [Production.nonTerminals] at h ⊢
  induction rhs generalizing n with
  | nil => cases h
  | cons s rhs ih =>
    cases s with
    | terminal t =>
      unfold rhsEntries at h
      split at h
      · simpa using ih h
      · simpa using ih (List.mem_of_ne_of_mem (by simp) h)
    | nonterminal k' =>
      simp only [rhsEntries, List.mem_cons, Entry.nonterminal.injEq] at h
      rcases h with ⟨-, rfl⟩ | h
      · simp
      · have := ih h
        simp only [List.filterMap_cons, List.length_cons]
        omega
    | action id =>
      simp only [rhsEntries, List.mem_cons, reduceCtorEq, false_or] at h
      simpa using ih h

/-- An `ε`-production pushes nothing for its right-hand side. -/
theorem rhsEntries_of_isEpsilon {p : Production} (h : p.isEpsilon = true) (n : Nat) :
    rhsEntries p.rhs n = [] := by
  unfold Production.isEpsilon at h
  split at h
  · rename_i s hs
    cases s with
    | terminal t =>
      simp only [GSym.isEpsilon, decide_eq_true_eq] at h
      simp [hs, rhsEntries, h]
    | nonterminal k => cases h
    | action id => cases h
  · cases h

end Rhs

/-! ### Views of a state -/

namespace State

/-- The members of a group; none for a group the table does not have. -/
def members (st : State α) (g : Nat) : List Nat := (st.groupTable[g]?.map (·.members)).getD []

/-- The owner of a group. -/
def ownerOf (st : State α) (g : Nat) : Option Nat := st.groupTable[g]?.bind (·.owner)

/-- Whether a group is in the table and has not left the attribute stack. -/
def stacked (st : State α) (g : Nat) : Bool := (st.groupTable[g]?.map (!·.popped)).getD false

/-- Whether a record exists and has nothing synthesized. -/
def fresh (st : State α) (i : Nat) : Bool :=
  (st.records[i]?.map fun r => r.op.isNone && r.attr.isNone).getD false

/-- Whether a record exists and is synthesized. -/
def resolvedAt (st : State α) (i : Nat) : Bool := (st.records[i]?.map (·.resolved)).getD false

/-- The records the entries of a stack stand for: each non-terminal's, and each action's owner. -/
def named (st : State α) : List Entry → List Nat
  | [] => []
  | .terminal _ :: rest => st.named rest
  | .nonterminal _ i :: rest => i :: st.named rest
  | .action _ g :: rest => (st.ownerOf g).toList ++ st.named rest

/-- Each non-terminal's record, and each action's owner, is an unsynthesized member of the group
the entry belongs to. -/
def Owned (st : State α) : List Entry → Prop
  | [] => True
  | .terminal _ :: rest => st.Owned rest
  | .nonterminal _ i :: rest => (i ∈ st.members (enclosing rest) ∧ st.fresh i = true) ∧ st.Owned rest
  | .action _ g :: rest =>
    (∃ o, st.ownerOf g = some o ∧ o ∈ st.members (enclosing rest) ∧ st.fresh o = true) ∧
      st.Owned rest

end State

theorem State.named_append (st : State α) (E t : List Entry) :
    st.named (E ++ t) = st.named E ++ st.named t := by
  induction E with
  | nil => rfl
  | cons e E ih => cases e <;> simp [State.named, ih]

theorem State.named_sublist_cons (st : State α) (e : Entry) (rest : List Entry) :
    (st.named rest).Sublist (st.named (e :: rest)) := by
  cases e <;> simp [State.named]

/-- The records a right-hand side stands for are those numbered on from `n`, one for each
non-terminal. -/
theorem named_rhsEntries (st : State α) {p : Production} (h : ∀ s ∈ p.rhs, s.classCode ≠ 2)
    (n : Nat) : st.named (rhsEntries p.rhs n) = List.range' n p.nonTerminals.length := by
  obtain ⟨id, lhs, rhs⟩ := p
  simp only [Production.nonTerminals] at h ⊢
  induction rhs generalizing n with
  | nil => rfl
  | cons s rhs ih =>
    have ih' := fun n => ih n fun s hs => h s (.tail _ hs)
    cases s with
    | terminal t => unfold rhsEntries; split <;> simp [State.named, ih']
    | nonterminal k => simp [rhsEntries, State.named, ih', List.range'_succ]
    | action id => exact absurd rfl (h _ (.head _))

/-! ### How the steps change the views -/

section Views

variable {cfg : Config α} {st st' : State α}

namespace State

theorem members_eq (h : st'.groupTable = st.groupTable) : st'.members = st.members := by
  funext g; simp [members, h]
theorem ownerOf_eq (h : st'.groupTable = st.groupTable) : st'.ownerOf = st.ownerOf := by
  funext g; simp [ownerOf, h]
theorem stacked_eq (h : st'.groupTable = st.groupTable) : st'.stacked = st.stacked := by
  funext g; simp [stacked, h]
theorem fresh_eq (h : st'.records = st.records) : st'.fresh = st.fresh := by
  funext i; simp [fresh, h]
theorem resolvedAt_eq (h : st'.records = st.records) : st'.resolvedAt = st.resolvedAt := by
  funext i; simp [resolvedAt, h]

/-- The records a stack stands for depend only on the owners of its actions' groups. -/
theorem named_congr {syms : List Entry} (h : ∀ g ∈ actionGroups syms, st'.ownerOf g = st.ownerOf g) :
    st'.named syms = st.named syms := by
  induction syms with
  | nil => rfl
  | cons e rest ih =>
    cases e with
    | terminal s => exact ih h
    | nonterminal k i => simp [named, ih h]
    | action id g =>
      simp only [actionGroups_action, List.mem_cons, forall_eq_or_imp] at h
      simp [named, h.1, ih h.2]

/-- Whether a stack is owned depends only on the groups it claims, the owners of its actions'
groups and the records it stands for. -/
theorem Owned.congr {syms : List Entry} (hm : ∀ g ∈ claims syms, st'.members g = st.members g)
    (ho : ∀ g ∈ actionGroups syms, st'.ownerOf g = st.ownerOf g)
    (hf : ∀ i ∈ st.named syms, st'.fresh i = st.fresh i) (h : st.Owned syms) : st'.Owned syms := by
  induction syms with
  | nil => trivial
  | cons e rest ih =>
    cases e with
    | terminal s => exact ih hm ho hf h
    | nonterminal k i =>
      simp only [claims, List.mem_cons, forall_eq_or_imp] at hm
      simp only [named, List.mem_cons, forall_eq_or_imp] at hf
      obtain ⟨⟨hi, hfi⟩, h⟩ := h
      exact ⟨⟨hm.1 ▸ hi, hf.1 ▸ hfi⟩, ih hm.2 ho hf.2 h⟩
    | action id g =>
      simp only [claims, List.mem_cons, forall_eq_or_imp] at hm
      simp only [actionGroups_action, List.mem_cons, forall_eq_or_imp] at ho
      obtain ⟨⟨o, hg, ho', hfo⟩, h⟩ := h
      have hf' : ∀ i ∈ st.named rest, st'.fresh i = st.fresh i := fun i hi =>
        hf i (by simp [named, hi])
      refine ⟨⟨o, ho.1 ▸ hg, hm.1 ▸ ho', ?_⟩, ih hm.2 ho.2 hf' h⟩
      rw [hf o (by simp [named, hg]), hfo]

theorem Owned.tail {e : Entry} {rest : List Entry} (h : st.Owned (e :: rest)) : st.Owned rest := by
  cases e with
  | terminal s => exact h
  | nonterminal k i => exact h.2
  | action id g => exact h.2

/-- Entries without actions pushed on `t` are owned when their non-terminals' records are
unsynthesized members of the group of `t`. -/
theorem Owned.append {E t : List Entry} (hE : actionGroups E = [])
    (hm : ∀ k j, .nonterminal k j ∈ E → j ∈ st.members (enclosing t) ∧ st.fresh j = true)
    (ht : st.Owned t) : st.Owned (E ++ t) := by
  induction E with
  | nil => exact ht
  | cons e E ih =>
    have hE' : actionGroups E = [] := by cases e <;> simp_all
    have hm' := fun k j hj => hm k j (.tail _ hj)
    cases e with
    | terminal s => exact ih hE' hm'
    | nonterminal k j =>
      refine ⟨?_, ih hE' hm'⟩
      show j ∈ st.members (enclosing (E ++ t)) ∧ _
      rw [enclosing_append hE']
      exact hm k j (.head _)
    | action id g => cases hE

/-- A group that a stack claims has an unsynthesized member. -/
theorem Owned.fresh_of_claims {syms : List Entry} (h : st.Owned syms) {g : Nat}
    (hg : g ∈ claims syms) : ∃ i ∈ st.members g, st.fresh i = true := by
  induction syms with
  | nil => cases hg
  | cons e rest ih =>
    cases e with
    | terminal s => exact ih h hg
    | nonterminal k i =>
      rcases List.mem_cons.mp hg with rfl | hg
      · exact ⟨i, h.1.1, h.1.2⟩
      · exact ih h.2 hg
    | action id g' =>
      rcases List.mem_cons.mp hg with rfl | hg
      · obtain ⟨o, -, ho, hf⟩ := h.1
        exact ⟨o, ho, hf⟩
      · exact ih h.2 hg

/-- Every record a stack stands for is unsynthesized. -/
theorem Owned.fresh_of_named {syms : List Entry} (h : st.Owned syms) {i : Nat}
    (hi : i ∈ st.named syms) : st.fresh i = true := by
  induction syms with
  | nil => cases hi
  | cons e rest ih =>
    cases e with
    | terminal s => exact ih h hi
    | nonterminal k j =>
      rcases List.mem_cons.mp hi with rfl | hi
      · exact h.1.2
      · exact ih h.2 hi
    | action id g =>
      obtain ⟨⟨o, hg, -, hf⟩, h⟩ := h
      simp only [named, hg, Option.toList_some, List.cons_append, List.nil_append,
        List.mem_cons] at hi
      rcases hi with rfl | hi
      · exact hf
      · exact ih h hi

theorem fresh_lt {i : Nat} (h : st.fresh i = true) : i < st.records.size := by
  unfold fresh at h
  cases hr : st.records[i]? with
  | none => simp [hr] at h
  | some r => exact (Array.getElem?_eq_some_iff.mp hr).1

theorem resolvedAt_of_fresh {i : Nat} (h : st.fresh i = true) : st.resolvedAt i = false := by
  unfold fresh at h
  unfold resolvedAt
  cases hr : st.records[i]? with
  | none => simp [hr] at h
  | some r =>
    simp only [hr, Option.map_some, Option.getD_some, Bool.and_eq_true, Option.isNone_iff_eq_none]
      at h
    simp [Instance.resolved, h.1, h.2]

/-- A done group has all its members synthesized. -/
theorem resolvedAt_of_groupDone {g : Nat} (h : st.groupDone g = true) :
    ∀ i ∈ st.members g, st.resolvedAt i = true := by
  unfold groupDone at h
  intro i hi
  cases hg : st.groupTable[g]? with
  | none => simp [members, hg] at hi
  | some grp =>
    simp only [hg, List.all_eq_true] at h
    simpa [members, hg, resolvedAt] using h i (by simpa [members, hg] using hi)

/-- The bottom group is done exactly when the start symbol's record is synthesized. -/
theorem groupDone_root (h : st.members 0 = [0]) : st.groupDone 0 = st.resolvedAt 0 := by
  unfold members at h
  unfold groupDone
  cases hg : st.groupTable[0]? with
  | none => simp [hg] at h
  | some grp =>
    simp only [hg, Option.map_some, Option.getD_some] at h
    simp [h, resolvedAt]

/-- No group that a stack claims is done. -/
theorem Owned.not_done {syms : List Entry} (h : st.Owned syms) {g : Nat}
    (hg : g ∈ claims syms) : st.groupDone g = false := by
  obtain ⟨i, hi, hf⟩ := h.fresh_of_claims hg
  cases hd : st.groupDone g
  · rfl
  · have := resolvedAt_of_groupDone hd i hi
    rw [resolvedAt_of_fresh hf] at this
    cases this

-- Leaving the attribute stack changes a group's flag and nothing else.
@[simp] theorem leave_members {g : Nat} : (st.leave g).members = st.members := by
  funext x
  simp only [members, leave_groupTable, Array.getElem?_modify]
  split <;> cases st.groupTable[x]? <;> simp
@[simp] theorem leave_ownerOf {g : Nat} : (st.leave g).ownerOf = st.ownerOf := by
  funext x
  simp only [ownerOf, leave_groupTable, Array.getElem?_modify]
  split <;> cases st.groupTable[x]? <;> simp
theorem leave_stacked {g : Nat} (x : Nat) : (st.leave g).stacked x = (x != g && st.stacked x) := by
  simp only [stacked, leave_groupTable, Array.getElem?_modify]
  split
  · subst g; cases st.groupTable[x]? <;> simp
  · simp [Ne.symm ‹_›]

end State

section Expanded

variable {top : Entry} {rest : List Entry} {p : Production} {r : Nat}

-- Expanding adds a group at the end of the table and fresh records at the end of the records.
theorem expanded_members' (x : Nat) : (st.expanded cfg top rest p r).members x =
    if x = st.groupTable.size then (List.range p.nonTerminals.length).map (st.records.size + ·)
    else st.members x := by
  simp only [State.members, expanded_groupTable, Array.getElem?_push]
  split <;> simp
theorem expanded_ownerOf (x : Nat) : (st.expanded cfg top rest p r).ownerOf x =
    if x = st.groupTable.size then some r else st.ownerOf x := by
  simp only [State.ownerOf, expanded_groupTable, Array.getElem?_push]
  split <;> simp
theorem expanded_stacked (x : Nat) : (st.expanded cfg top rest p r).stacked x =
    if x = st.groupTable.size then !p.isEpsilon else st.stacked x := by
  simp only [State.stacked, expanded_groupTable, Array.getElem?_push]
  split <;> simp
theorem expanded_fresh (x : Nat) : (st.expanded cfg top rest p r).fresh x =
    if x < st.records.size then st.fresh x
    else decide (x < st.records.size + p.nonTerminals.length) := by
  unfold State.fresh
  rw [expanded_records]
  split
  · rw [Array.getElem?_append_left (by simpa using ‹x < _›), Array.getElem?_modify]
    split <;> cases st.records[x]? <;> simp
  · rw [Array.getElem?_append_right (by simp; omega)]
    simp only [Array.size_modify, List.getElem?_toArray, List.getElem?_map]
    by_cases hx : x < st.records.size + p.nonTerminals.length
    · rw [List.getElem?_eq_getElem (by omega)]
      simp [Instance.fresh, hx]
    · rw [List.getElem?_eq_none (by omega)]
      simp [hx]
theorem expanded_resolvedAt (x : Nat) : (st.expanded cfg top rest p r).resolvedAt x =
    if x < st.records.size then st.resolvedAt x else false := by
  unfold State.resolvedAt
  rw [expanded_records]
  split
  · rw [Array.getElem?_append_left (by simpa using ‹x < _›), Array.getElem?_modify]
    split <;> cases st.records[x]? <;> simp [Instance.resolved]
  · rw [Array.getElem?_append_right (by simp; omega)]
    simp only [Array.size_modify, List.getElem?_toArray, List.getElem?_map]
    cases (p.nonTerminals[x - st.records.size]?) <;> simp [Instance.fresh, Instance.resolved]

end Expanded

section Executed

variable {o : Nat} {s s' : State α} {grp : Group} {id : Int} {g : Nat} {rest : List Entry}

theorem Confined.fresh_ne (h : Confined o s s') {i : Nat} (hi : i ≠ o) : s'.fresh i = s.fresh i := by
  simp [State.fresh, h.others i hi]
theorem Confined.resolvedAt_ne (h : Confined o s s') {i : Nat} (hi : i ≠ o) :
    s'.resolvedAt i = s.resolvedAt i := by
  simp [State.resolvedAt, h.others i hi]

-- Closing the owner's span changes no record's operator or value.
@[simp] theorem closed_fresh : (st.closed cfg grp o).fresh = st.fresh := by
  funext i
  simp only [State.fresh, closed_records, Array.getElem?_modify]
  split <;> cases st.records[i]? <;> simp
@[simp] theorem closed_resolvedAt : (st.closed cfg grp o).resolvedAt = st.resolvedAt := by
  funext i
  simp only [State.resolvedAt, closed_records, Array.getElem?_modify]
  split <;> cases st.records[i]? <;> simp [Instance.resolved]

@[simp] theorem released_syms : (st.released cfg id g rest grp).syms = rest := by
  unfold State.released; split <;> simp
@[simp] theorem released_groups : (st.released cfg id g rest grp).groups =
    if grp.popped then st.groups else st.groups.drop 1 := by
  unfold State.released; split <;> simp
@[simp] theorem released_records : (st.released cfg id g rest grp).records = st.records := by
  unfold State.released; split <;> simp
theorem popTo_views (top : Entry) :
    (st.popTo cfg top rest).members = st.members ∧ (st.popTo cfg top rest).ownerOf = st.ownerOf ∧
      (st.popTo cfg top rest).stacked = st.stacked :=
  ⟨State.members_eq (by simp), State.ownerOf_eq (by simp), State.stacked_eq (by simp)⟩

@[simp] theorem released_members : (st.released cfg id g rest grp).members = st.members := by
  unfold State.released; split <;> simp [(popTo_views _).1]
@[simp] theorem released_ownerOf : (st.released cfg id g rest grp).ownerOf = st.ownerOf := by
  unfold State.released; split <;> simp [(popTo_views _).2.1]
@[simp] theorem released_size :
    (st.released cfg id g rest grp).groupTable.size = st.groupTable.size := by
  unfold State.released; split <;> simp

/-- Once an action is popped its group is off the attribute stack, whether it left just now or
earlier. -/
theorem released_stacked (hg : st.groupTable[g]? = some grp) (x : Nat) :
    (st.released cfg id g rest grp).stacked x = (x != g && st.stacked x) := by
  unfold State.released
  split
  · rw [(popTo_views _).2.2]
    by_cases hx : x = g
    · subst hx; simp [State.stacked, *]
    · simp [hx]
  · rw [State.leave_stacked, (popTo_views _).2.2]

end Executed

end Views

/-! ### The invariant -/

/-- The attribute-stack discipline of a state. -/
structure Discipline (st : State α) : Prop where
  /-- The attribute stack: the groups of the actions on the symbol stack that have not left it,
  in their order, then the bottom group while it has not left. -/
  groups : st.groups = (actionGroups st.syms).filter st.stacked ++ if st.stacked 0 then [0] else []
  root : st.members 0 = [0]
  membersPos : ∀ g, g ≠ 0 → ∀ i ∈ st.members g, 0 < i
  decreasing : (actionGroups st.syms).Pairwise (· > ·)
  bounded : ∀ g ∈ actionGroups st.syms, 0 < g ∧ g < st.groupTable.size
  owned : st.Owned st.syms
  claimed : ∀ g ∈ claims st.syms, st.stacked g = true
  distinct : (st.named st.syms).Nodup
  grounded : Grounded st.syms
  bottomed : Bottomed st.syms
  /-- The bottom group stays while the symbol stack is not empty, ... -/
  rootStacked : st.syms ≠ [] → st.stacked 0 = true
  /-- ... the start symbol's record is unsynthesized while more than the end marker is left, ... -/
  rootFresh : 2 ≤ st.syms.length → st.fresh 0 = true
  /-- ... and the bottom group has left at the end exactly when that record is synthesized. -/
  final : st.syms = [] → st.stacked 0 = !st.resolvedAt 0

theorem discipline_initial (cfg : Config α) (tokens : List Token) :
    Discipline (initial cfg tokens) where
  groups := by simp [initial, actionGroups, State.stacked]
  root := by simp [initial, State.members]
  membersPos g hg i hi := by
    cases g with
    | zero => exact absurd rfl hg
    | succ g => simp [initial, State.members] at hi
  decreasing := by simp [initial, actionGroups]
  bounded := by simp [initial, actionGroups]
  owned := by simp [initial, State.Owned, enclosing, actionGroups, State.members, State.fresh,
    Instance.fresh]
  claimed := by simp [initial, claims, enclosing, actionGroups, State.stacked]
  distinct := by simp [initial, State.named]
  grounded := by simp [initial, Grounded, actionGroups]
  bottomed := .inr ⟨[_], rfl⟩
  rootStacked _ := by simp [initial, State.stacked]
  rootFresh _ := by simp [initial, State.fresh, Instance.fresh]
  final h := by simp [initial] at h

section Facts

variable {st : State α}

/-- The bottom group is in the table. -/
theorem Discipline.groupTable_pos (hd : Discipline st) : 0 < st.groupTable.size := by
  have h := hd.root
  unfold State.members at h
  cases h0 : st.groupTable[0]? with
  | none => simp [h0] at h
  | some _ => exact (Array.getElem?_eq_some_iff.mp h0).1

/-- Every group the stack claims is in the table: it is the bottom group or an action's. -/
theorem Discipline.claims_lt (hd : Discipline st) {x : Nat} (hx : x ∈ claims st.syms) :
    x < st.groupTable.size := by
  rcases mem_claims hx with rfl | hx
  · exact hd.groupTable_pos
  · exact (hd.bounded x hx).2

/-- Every record the stack stands for is in the table of records. -/
theorem Discipline.named_lt (hd : Discipline st) {j : Nat} (hj : j ∈ st.named st.syms) :
    j < st.records.size :=
  State.fresh_lt (hd.owned.fresh_of_named hj)

/-- Below any entry but the end marker lies at least the end marker. -/
theorem Discipline.two_le_length (hd : Discipline st) {e : Entry} {rest : List Entry}
    (hs : st.syms = e :: rest) (he : e ≠ .terminal .endOfInput) : 2 ≤ st.syms.length := by
  rcases (hs ▸ hd.bottomed).of_cons with ⟨h, _⟩ | ⟨l, hl⟩
  · exact absurd h he
  · rw [hs, hl]; simp

end Facts

/-! ### One step -/

section Lists

/-- The head of the attribute stack, given by the groups `l` that may stand on it: the first of
them when it is stacked. -/
theorem head_filter_root {p : Nat → Bool} {l : List Nat} (h : p (l.headD 0) = true) :
    (l.filter p ++ if p 0 then [0] else []).head? = some (l.headD 0) := by
  cases l with
  | nil => simp_all
  | cons a l => simp_all

/-- Taking the first stacked group off. -/
theorem filter_drop_head {p : Nat → Bool} {l L : List Nat} {h : Nat} (hl : l.Nodup)
    (hf : l.filter p = h :: L) : l.filter (fun x => x != h && p x) = L := by
  induction l with
  | nil => cases hf
  | cons a l ih =>
    rw [List.nodup_cons] at hl
    by_cases ha : p a = true
    · rw [List.filter_cons_of_pos ha, List.cons.injEq] at hf
      obtain ⟨rfl, rfl⟩ := hf
      rw [List.filter_cons_of_neg (by simp)]
      exact List.filter_congr fun x hx => by simp [ne_of_mem_of_not_mem hx hl.1]
    · rw [List.filter_cons_of_neg ha] at hf
      rw [List.filter_cons_of_neg (by simp [ha])]
      exact ih hl.2 hf

end Lists

section Match

variable {st st' : State α} {s : Symbol} {rest : List Entry}

/-- Below a terminal the attribute stack is the stacked groups of the actions, then the bottom
group. -/
theorem Discipline.groups_of_terminal (hd : Discipline st) (hs : st.syms = .terminal s :: rest) :
    st.groups = (actionGroups rest).filter st.stacked ++ [0] := by
  rw [hd.groups, hd.rootStacked (by simp [hs]), hs]
  rfl

theorem Discipline.nodup (hd : Discipline st) : (actionGroups st.syms).Nodup :=
  hd.decreasing.imp fun h => Nat.ne_of_gt h

/-- Popping the top entry keeps the discipline of the entries below it, when their groups keep
their members and owners and the records they stand for stay unsynthesized, given what the step
does to the attribute stack: the stacked groups of the actions below, then the bottom group while
entries are left, each claimed group stacked, and the start symbol's record unsynthesized while
more than the end marker is left. -/
theorem Discipline.of_popped {e : Entry} (hd : Discipline st) (hs : st.syms = e :: rest)
    (hsyms : st'.syms = rest) (hm : st'.members = st.members) (ho : st'.ownerOf = st.ownerOf)
    (hsize : st'.groupTable.size = st.groupTable.size)
    (hf : ∀ j ∈ st.named rest, st'.fresh j = st.fresh j)
    (hgroups : st'.groups =
      (actionGroups rest).filter st'.stacked ++ if st'.stacked 0 then [0] else [])
    (hclaimed : ∀ g ∈ claims rest, st'.stacked g = true)
    (hroot : rest ≠ [] → st'.stacked 0 = true)
    (hfresh : 2 ≤ rest.length → st'.fresh 0 = true)
    (hfinal : rest = [] → st'.stacked 0 = !st'.resolvedAt 0) : Discipline st' := by
  have hsub : (actionGroups rest).Sublist (actionGroups st.syms) :=
    hs ▸ actionGroups_sublist_cons e rest
  exact
    { groups := hsyms ▸ hgroups
      root := hm ▸ hd.root
      membersPos := hm ▸ hd.membersPos
      decreasing := hsyms ▸ hd.decreasing.sublist hsub
      bounded := fun g hg => hsize ▸ hd.bounded g (hsub.subset (hsyms ▸ hg))
      owned := by
        rw [hsyms]
        exact State.Owned.congr (by simp [hm]) (by simp [ho]) hf (hs ▸ hd.owned).tail
      claimed := hsyms ▸ hclaimed
      distinct := by
        rw [hsyms, State.named_congr fun g _ => congrFun ho g]
        exact (hs ▸ hd.distinct).sublist (st.named_sublist_cons e rest)
      grounded := hsyms ▸ (hs ▸ hd.grounded).tail
      bottomed := hsyms ▸ (hs ▸ hd.bottomed).tail
      rootStacked := fun hne => hroot (hsyms ▸ hne)
      rootFresh := fun hl => hfresh (hsyms ▸ hl)
      final := fun he => hfinal (hsyms ▸ he) }

/-- A match keeps the discipline of the entries below the terminal, which keep their records and
groups, given what it does to the attribute stack. -/
theorem Discipline.of_matched (hd : Discipline st) (hs : st.syms = .terminal s :: rest)
    (hsyms : st'.syms = rest) (hm : st'.members = st.members) (ho : st'.ownerOf = st.ownerOf)
    (hsize : st'.groupTable.size = st.groupTable.size) (hrec : st'.records = st.records)
    (hgroups : st'.groups =
      (actionGroups rest).filter st'.stacked ++ if st'.stacked 0 then [0] else [])
    (hclaimed : ∀ g ∈ claims rest, st'.stacked g = true)
    (hroot : rest ≠ [] → st'.stacked 0 = true)
    (hfinal : rest = [] → st'.stacked 0 = !st.resolvedAt 0) : Discipline st' := by
  have hf := State.fresh_eq hrec
  refine hd.of_popped hs hsyms hm ho hsize (fun j _ => by rw [hf]) hgroups hclaimed hroot
    (fun hl => ?_) fun he => by rw [State.resolvedAt_eq hrec]; exact hfinal he
  rw [hf]
  exact hd.rootFresh (by rw [hs, List.length_cons]; omega)

/-- A match that leaves the attribute stack as it is. -/
theorem Discipline.matched_pending (hd : Discipline st) (hs : st.syms = .terminal s :: rest)
    {h : Nat} (hh : st.groups.head? = some h) (hdone : st.groupDone h = false)
    (hsyms : st'.syms = rest) (hgroups : st'.groups = st.groups)
    (htable : st'.groupTable = st.groupTable) (hrec : st'.records = st.records) :
    Discipline st' := by
  have hst := State.stacked_eq htable
  have hgs : actionGroups st.syms = actionGroups rest := by rw [hs]; rfl
  have h0 : st.stacked 0 = true := hd.rootStacked (by simp [hs])
  refine hd.of_matched hs hsyms (State.members_eq htable) (State.ownerOf_eq htable)
    (by rw [htable]) hrec (by rw [hgroups, hst, hd.groups, hgs])
    (fun g hg => by rw [hst]; exact hd.claimed g (by rw [hs]; exact hg))
    (fun _ => by rw [hst]; exact h0) fun he => ?_
  -- at the bottom the top group is the bottom group, which is not done
  subst he
  rw [hd.groups_of_terminal hs] at hh
  simp only [actionGroups, List.filter_nil, List.nil_append, List.head?_cons,
    Option.some.injEq] at hh
  subst hh
  rw [hst, h0, ← State.groupDone_root hd.root, hdone]
  rfl

/-- A match after which the group on top, done, leaves the attribute stack. -/
theorem Discipline.matched_done (hd : Discipline st) (hs : st.syms = .terminal s :: rest)
    {h : Nat} (hh : st.groups.head? = some h) (hdone : st.groupDone h = true)
    (hsyms : st'.syms = rest) (hgroups : st'.groups = st.groups.drop 1)
    (htable : st'.groupTable = (st.leave h).groupTable) (hrec : st'.records = st.records) :
    Discipline st' := by
  have hG := hd.groups_of_terminal hs
  have hst : st'.stacked = fun x => x != h && st.stacked x := by
    funext x; rw [State.stacked_eq htable, State.leave_stacked]
  have hgs : actionGroups st.syms = actionGroups rest := by rw [hs]; rfl
  have h0 : st.stacked 0 = true := hd.rootStacked (by simp [hs])
  -- a done group is claimed by no entry
  have hnot : h ∉ claims rest := fun hc => by
    have := hd.owned.not_done (g := h) (by rw [hs]; exact hc)
    rw [hdone] at this
    cases this
  -- the bottom group is done only once just the end marker is left
  have hroot : h = 0 → rest = [] := by
    intro h0'
    subst h0'
    have hres : st.resolvedAt 0 = true := by rw [← State.groupDone_root hd.root]; exact hdone
    cases rest with
    | nil => rfl
    | cons e rest =>
      have := State.resolvedAt_of_fresh (hd.rootFresh (by simp [hs]))
      rw [hres] at this
      cases this
  have hpos : ∀ x ∈ actionGroups rest, 0 < x := fun x hx => (hd.bounded x (hgs ▸ hx)).1
  refine hd.of_matched hs hsyms ((State.members_eq htable).trans State.leave_members)
    ((State.ownerOf_eq htable).trans State.leave_ownerOf)
    (by rw [htable, leave_groupTable, Array.size_modify]) hrec ?_ (fun x hx => ?_)
    (fun hne => ?_) fun he => ?_
  · -- the group on top is the first stacked group of an action, or the bottom group
    rw [hgroups, hG]
    cases hF : (actionGroups rest).filter st.stacked with
    | nil =>
      rw [hG, hF] at hh
      simp only [List.nil_append, List.head?_cons, Option.some.injEq] at hh
      subst hh
      rw [hst, List.filter_eq_nil_iff.mpr fun x hx => by
        simp [List.filter_eq_nil_iff.mp hF x hx]]
      simp
    | cons h' L =>
      rw [hG, hF] at hh
      simp only [List.cons_append, List.head?_cons, Option.some.injEq] at hh
      subst hh
      have hpos' : 0 < h' := hpos h' (List.mem_filter.mp (hF ▸ List.mem_cons_self ..)).1
      rw [hst, filter_drop_head (hgs ▸ hd.nodup) hF]
      simp [Nat.ne_of_lt hpos', h0]
  · -- the claimed groups other than the one that left stay stacked
    have hxh : x ≠ h := fun e => hnot (e ▸ hx)
    rw [hst]
    simp [hxh, hd.claimed x (by rw [hs]; exact hx)]
  · have : h ≠ 0 := fun e => hne (hroot e)
    rw [hst]; simp [Ne.symm this, h0]
  · -- at the end the bottom group has left, its record synthesized
    subst he
    rw [hG] at hh
    simp only [actionGroups, List.filter_nil, List.nil_append, List.head?_cons,
      Option.some.injEq] at hh
    subst hh
    rw [hst, ← State.groupDone_root hd.root, hdone]
    rfl

/-- What a match does to the attribute stack: the group on top stays if it is not done, and
leaves if it is. -/
theorem Discipline.matched_cases (hd : Discipline st) (hs : st.syms = .terminal s :: rest)
    (held : Option (Literal α)) (la : Token) : ∃ h, st.groups.head? = some h ∧
      ((st.groupDone h = false ∧
        (({ st.popTo cfg (.terminal s) rest with held := held } : State α).matchedTo cfg la).groups =
          st.groups ∧
        (({ st.popTo cfg (.terminal s) rest with held := held } : State α).matchedTo cfg la).groupTable =
          st.groupTable) ∨
      (st.groupDone h = true ∧
        (({ st.popTo cfg (.terminal s) rest with held := held } : State α).matchedTo cfg la).groups =
          st.groups.drop 1 ∧
        (({ st.popTo cfg (.terminal s) rest with held := held } : State α).matchedTo cfg la).groupTable =
          (st.leave h).groupTable)) := by
  obtain ⟨h, hh⟩ : ∃ h, st.groups.head? = some h := by
    rw [hd.groups_of_terminal hs]
    cases (actionGroups rest).filter st.stacked <;> simp
  let s₁ : State α := { st.popTo cfg (.terminal s) rest with held := held }
  have htop : s₁.topGroup = some h := by simpa [s₁, State.topGroup] using hh
  have hdone : s₁.groupDone h = st.groupDone h := groupDone_congr (by simp [s₁]) (by simp [s₁]) h
  refine ⟨h, hh, ?_⟩
  cases hd' : st.groupDone h
  · have := (matchedTo_of_pending htop (hdone.trans hd') :
      (s₁.matchedTo cfg la).groups = s₁.groups ∧ (s₁.matchedTo cfg la).groupTable = s₁.groupTable)
    exact .inl ⟨rfl, this.1.trans (by simp [s₁]), this.2.trans (by simp [s₁])⟩
  · have := (matchedTo_of_done htop (hdone.trans hd') :
      (s₁.matchedTo cfg la).groups = s₁.groups.drop 1 ∧
        (s₁.matchedTo cfg la).groupTable = s₁.groupTable.modify h fun grp => { grp with popped := true })
    exact .inr ⟨rfl, this.1.trans (by simp [s₁]), this.2.trans (by simp [s₁])⟩

/-- A match keeps the discipline. -/
theorem Discipline.matched (hd : Discipline st) (hs : st.syms = .terminal s :: rest)
    (held : Option (Literal α)) (la : Token) :
    Discipline (({ st.popTo cfg (.terminal s) rest with held := held } : State α).matchedTo cfg la) := by
  obtain ⟨h, hh, ⟨hdone, hg, ht⟩ | ⟨hdone, hg, ht⟩⟩ := hd.matched_cases hs held la
  · exact hd.matched_pending hs hh hdone (by simp) hg ht (by simp)
  · exact hd.matched_done hs hh hdone (by simp) hg ht (by simp)

end Match

section Expand

variable {st : State α} {k : Kind} {i : Nat} {rest : List Entry} {p : Production}

/-- An expansion keeps the discipline. -/
theorem Discipline.expanded (hA : ∀ s ∈ p.rhs, s.classCode ≠ 2) (hd : Discipline st)
    (hs : st.syms = .nonterminal k i :: rest) :
    Discipline (st.expanded cfg (.nonterminal k i) rest p i) := by
  -- `N` is the first new record and `G` the new group
  generalize hN : st.records.size = N
  generalize hG : st.groupTable.size = G
  have hE := actionGroups_rhsEntries hA N
  have hgs : actionGroups st.syms = actionGroups rest := by rw [hs]; rfl
  have hsyms : (st.expanded cfg (.nonterminal k i) rest p i).syms =
      rhsEntries p.rhs N ++ .action p.id G :: rest := by simp [hN, hG]
  have hAG : actionGroups (st.expanded cfg (.nonterminal k i) rest p i).syms =
      G :: actionGroups rest := by rw [hsyms, actionGroups_append, hE]; rfl
  have hlt : ∀ x ∈ actionGroups rest, 0 < x ∧ x < G := fun x hx => hG ▸ hd.bounded x (hgs ▸ hx)
  have hG0 : 0 < G := hG ▸ hd.groupTable_pos
  -- the groups claimed below the non-terminal, its own first, are older than `G`
  have hclG : ∀ x ∈ claims rest, x < G := fun x hx =>
    hG ▸ hd.claims_lt (by rw [hs]; exact List.mem_cons_of_mem _ hx)
  have hencl : enclosing rest < G := hG ▸ hd.claims_lt (by rw [hs]; exact List.mem_cons_self ..)
  have hlen : 2 ≤ st.syms.length := hd.two_le_length hs (by simp)
  have hN0 : 0 < N := hN ▸ State.fresh_lt (hd.rootFresh hlen)
  have ho0 := hd.owned
  rw [hs] at ho0
  obtain ⟨⟨hi, hfi⟩, hrest⟩ := ho0
  -- the records the stack stands for are older than `N`
  have hiN : i < N := hN ▸ hd.named_lt (by simp [hs, State.named])
  have hnamedN : ∀ j ∈ st.named rest, j < N := fun j hj =>
    hN ▸ hd.named_lt (by simp [hs, State.named, hj])
  have hdist : (i :: st.named rest).Nodup := by simpa [hs, State.named] using hd.distinct
  -- the views of the new state
  have hm : ∀ x, x ≠ G → (st.expanded cfg (.nonterminal k i) rest p i).members x = st.members x :=
    fun x hx => by rw [expanded_members', hG, if_neg hx]
  have ho : ∀ x, x ≠ G → (st.expanded cfg (.nonterminal k i) rest p i).ownerOf x = st.ownerOf x :=
    fun x hx => by rw [expanded_ownerOf, hG, if_neg hx]
  have hst : ∀ x, x ≠ G → (st.expanded cfg (.nonterminal k i) rest p i).stacked x = st.stacked x :=
    fun x hx => by rw [expanded_stacked, hG, if_neg hx]
  have hf : ∀ j, j < N → (st.expanded cfg (.nonterminal k i) rest p i).fresh j = st.fresh j :=
    fun j hj => by rw [expanded_fresh, hN, if_pos hj]
  have hfilter : (actionGroups rest).filter (st.expanded cfg (.nonterminal k i) rest p i).stacked =
      (actionGroups rest).filter st.stacked :=
    List.filter_congr fun x hx => hst x (Nat.ne_of_lt (hlt x hx).2)
  refine
    { groups := ?_
      root := by rw [hm 0 (Nat.ne_of_lt hG0)]; exact hd.root
      membersPos := fun x hx j hj => ?_
      decreasing := by
        rw [hAG]
        exact List.Pairwise.cons (fun y hy => (hlt y hy).2) (hgs ▸ hd.decreasing)
      bounded := by
        rw [hAG, expanded_groupTable, Array.size_push, hG]
        intro x hx
        rcases List.mem_cons.mp hx with rfl | hx
        · exact ⟨hG0, Nat.lt_succ_self _⟩
        · exact ⟨(hlt x hx).1, Nat.lt_succ_of_lt (hlt x hx).2⟩
      owned := ?_
      claimed := ?_
      distinct := ?_
      grounded := hsyms ▸ Grounded.append (hs ▸ hd.grounded).tail (by simp)
      bottomed := by
        rw [hsyms, show rhsEntries p.rhs N ++ Entry.action p.id G :: rest =
          (rhsEntries p.rhs N ++ [Entry.action p.id G]) ++ rest by simp]
        exact (hs ▸ hd.bottomed).push (by simp) _
      rootStacked := fun _ => by
        rw [hst 0 (Nat.ne_of_lt hG0)]; exact hd.rootStacked (by simp [hs])
      rootFresh := fun _ => by rw [hf 0 hN0]; exact hd.rootFresh hlen
      final := fun he => by simp at he }
  · -- the new group is on top of the attribute stack unless its production is `ε`
    rw [hAG, expanded_groups, hG, hst 0 (Nat.ne_of_lt hG0), List.filter_cons, expanded_stacked,
      hG, if_pos rfl, hfilter, hd.groups, hgs]
    cases p.isEpsilon <;> simp
  · -- the members of the new group are the new records
    rw [expanded_members'] at hj
    split at hj
    · obtain ⟨j, -, rfl⟩ := List.mem_map.mp hj
      omega
    · exact hd.membersPos x hx j hj
  · rw [hsyms]
    refine State.Owned.append hE (fun k' j hj => ?_) ⟨⟨i, ?_, ?_, ?_⟩, ?_⟩
    · -- a new non-terminal entry: a new record, a member of the new group
      have hj' := nonterminal_mem_rhsEntries hj
      simp only [enclosing, actionGroups_action, List.headD_cons]
      rw [expanded_members', hG, if_pos rfl, expanded_fresh, hN, if_neg (by omega)]
      exact ⟨List.mem_map.mpr ⟨j - N, List.mem_range.mpr (by omega), by omega⟩, by simp; omega⟩
    · rw [expanded_ownerOf, hG, if_pos rfl]
    · rw [hm _ (Nat.ne_of_lt hencl)]; exact hi
    · rw [hf i hiN]; exact hfi
    · exact State.Owned.congr (fun x hx => hm x (Nat.ne_of_lt (hclG x hx)))
        (fun x hx => ho x (Nat.ne_of_lt (hlt x hx).2))
        (fun j hj => hf j (hnamedN j hj)) hrest
  · -- the new group is claimed only by the new non-terminals, so only if it is not `ε`
    rw [hsyms]
    intro x hx
    rcases claims_append hE hx with hx | ⟨hxG, k', j, hj⟩
    · have hx' : x ∈ claims st.syms := by rw [hs]; exact hx
      rw [hst x (Nat.ne_of_lt ?_)]
      · exact hd.claimed x hx'
      · rcases List.mem_cons.mp hx with rfl | hx
        · exact hencl
        · exact hclG x hx
    · have hxG' : x = G := hxG
      rw [hxG', expanded_stacked, hG, if_pos rfl]
      cases hp : p.isEpsilon
      · rfl
      · rw [rhsEntries_of_isEpsilon hp] at hj; cases hj
  · -- the new records come after all the old ones
    rw [hsyms, State.named_append, named_rhsEntries _ hA]
    simp only [State.named, expanded_ownerOf, hG]
    rw [State.named_congr fun x hx => ho x (Nat.ne_of_lt (hlt x hx).2)]
    refine List.nodup_append.mpr ⟨List.nodup_range' .., hdist, fun a ha b hb => ?_⟩
    have haN : N ≤ a := (List.mem_range'_1.mp ha).1
    rcases List.mem_cons.mp hb with rfl | hb
    · omega
    · have := hnamedN b hb; omega

end Expand

section Execute

variable {st s₂ : State α} {id : Int} {g o : Nat} {rest : List Entry} {grp : Group}

/-- Below an action whose owner is the start symbol's record at most the end marker is left: its
group is the bottom group's only member's, so nothing but the end marker lies below it. -/
theorem Discipline.short_of_root_owner (hd : Discipline st) (hs : st.syms = .action id g :: rest)
    (ho : st.ownerOf g = some 0) : rest.length ≤ 1 := by
  have hown := hd.owned
  rw [hs] at hown
  obtain ⟨⟨o, ho', hmem, -⟩, hrest⟩ := hown
  rw [ho, Option.some.injEq] at ho'
  subst ho'
  have hgs : actionGroups st.syms = g :: actionGroups rest := by rw [hs]; rfl
  -- the owner 0 belongs only to the bottom group, so no action lies below
  have hencl : enclosing rest = 0 := by
    by_cases h : enclosing rest = 0
    · exact h
    · exact absurd (hd.membersPos _ h 0 hmem) (Nat.lt_irrefl 0)
  have hAG : actionGroups rest = [] := by
    unfold enclosing at hencl
    cases h : actionGroups rest with
    | nil => rfl
    | cons x _ =>
      rw [h, List.headD_cons] at hencl
      have := (hd.bounded x (by simp [hgs, h])).1
      omega
  have hnamed : 0 ∉ st.named rest := by
    have := hd.distinct
    rw [hs] at this
    simp only [State.named, ho, Option.toList_some, List.cons_append, List.nil_append,
      List.nodup_cons] at this
    exact this.1
  have hgr := (hs ▸ hd.grounded).tail
  -- and no non-terminal, whose record would be the bottom group's only member
  cases rest with
  | nil => simp
  | cons e rest =>
    cases e with
    | terminal s =>
      simp [(hgr.1 hAG).1]
    | nonterminal k j =>
      obtain ⟨hj, -⟩ := hrest.1
      have hAG' : actionGroups rest = [] := hAG
      rw [show enclosing rest = 0 by unfold enclosing; rw [hAG']; rfl, hd.root] at hj
      rw [List.mem_singleton] at hj
      subst hj
      exact absurd (by simp [State.named]) hnamed
    | action id' g' => cases hAG

/-- Once the action on top is popped, the attribute stack holds the stacked groups of the actions
below it, then the bottom group. -/
theorem Discipline.released_groups_eq (hd : Discipline st) (hs : st.syms = .action id g :: rest)
    (hg : st.groupTable[g]? = some grp) :
    (st.released cfg id g rest grp).groups =
      (actionGroups rest).filter st.stacked ++ if st.stacked 0 then [0] else [] := by
  have hstg : st.stacked g = !grp.popped := by simp [State.stacked, hg]
  rw [released_groups, hd.groups, hs, actionGroups_action, List.filter_cons, hstg]
  cases grp.popped <;> simp

/-- An action keeps the discipline. -/
theorem Discipline.executed (hd : Discipline st) (hs : st.syms = .action id g :: rest)
    (hg : st.groupTable[g]? = some grp) (ho : grp.owner = some o)
    (hc : Confined o (st.released cfg id g rest grp) s₂) : Discipline (s₂.closed cfg grp o) := by
  have hgs : actionGroups st.syms = g :: actionGroups rest := by rw [hs]; rfl
  have hnd : g ∉ actionGroups rest := (List.nodup_cons.mp (hgs ▸ hd.nodup)).1
  have hg0 : 0 < g := (hd.bounded g (by simp [hgs])).1
  have hog : st.ownerOf g = some o := by simp [State.ownerOf, hg, ho]
  have hdist : (o :: st.named rest).Nodup := by
    simpa [hs, State.named, hog] using hd.distinct
  -- the views of the new state
  have hsyms : (s₂.closed cfg grp o).syms = rest := by simp [hc.syms]
  have htable : (s₂.closed cfg grp o).groupTable = (st.released cfg id g rest grp).groupTable := by
    simp [hc.groupTable]
  have hst : ∀ x, (s₂.closed cfg grp o).stacked x = (x != g && st.stacked x) := fun x => by
    rw [State.stacked_eq htable, released_stacked hg]
  have hf : ∀ j, j ≠ o → (s₂.closed cfg grp o).fresh j = st.fresh j := fun j hj => by
    rw [closed_fresh, hc.fresh_ne hj, State.fresh_eq released_records]
  have hfilter : (actionGroups rest).filter (s₂.closed cfg grp o).stacked =
      (actionGroups rest).filter st.stacked :=
    List.filter_congr fun x hx => by rw [hst]; simp [ne_of_mem_of_not_mem hx hnd]
  have h0 : (s₂.closed cfg grp o).stacked 0 = st.stacked 0 := by rw [hst]; simp [Nat.ne_of_lt hg0]
  refine hd.of_popped hs hsyms (by rw [State.members_eq htable, released_members])
    (by rw [State.ownerOf_eq htable, released_ownerOf]) (by rw [htable, released_size])
    (fun j hj => hf j fun e => (List.nodup_cons.mp hdist).1 (e ▸ hj)) ?_ (fun x hx => ?_)
    (fun _ => by rw [h0]; exact hd.rootStacked (by simp [hs])) (fun hl => ?_) fun he => ?_
  · -- the action's group has left the attribute stack, now or earlier
    rw [closed_groups, hc.groups, hd.released_groups_eq hs hg, hfilter, h0]
  · -- the claimed groups below the action are older than its own group, which is not claimed
    have hxg : x ≠ g := by
      rintro rfl
      rcases mem_claims hx with h | h
      · omega
      · exact hnd h
    rw [hst]
    simpa [hxg] using hd.claimed x (by rw [hs]; exact List.mem_cons_of_mem _ hx)
  · -- the start symbol's record is synthesized only with just the end marker left
    by_cases ho0 : o = 0
    · subst ho0
      have := hd.short_of_root_owner hs hog
      omega
    · rw [hf 0 (Ne.symm ho0)]
      exact hd.rootFresh (by rw [hs, List.length_cons]; omega)
  · -- an action has at least the end marker below it
    have := hd.two_le_length hs (by simp)
    simp [hs, he] at this

end Execute

/-- A production the table selects is one of the grammar's. -/
theorem Table.mem_rules_of_select {t : Table} {k : Int} {la : Symbol} {p : Production}
    (h : t.select k la = some p) : p ∈ t.grammar.rules := by
  unfold Table.select at h
  split at h
  · simp only at h
    split at h
    · cases h
    · exact List.mem_of_find?_eq_some h
  · cases h

/-! ### The checks of an action -/

section Checks

variable {cfg : Config α} {st : State α} {id : Int} {g : Nat} {rest : List Entry}

/-- The outcome of executing an action, from the outcome of its semantic action: on success the
owner's span is closed and the action noted. -/
def actionOutcome (cfg : Config α) (grp : Group) (o : Nat) :
    Except TranslateError Unit × State α → Except TranslateError Unit × State α
  | (.ok _, s₂) => (.ok (), s₂.closed cfg grp o)
  | (.error e, s₂) => (.error e, s₂)

theorem State.topHolds_of_mem {s : State α} {e o : Nat} (ht : s.topGroup = some e)
    (hm : o ∈ s.members e) : s.topHolds (some o) = true := by
  unfold State.topHolds
  rw [ht]
  unfold State.members at hm
  cases h : s.groupTable[e]? with
  | none => simp [h] at hm
  | some grp => simp_all

/-- The two checks of an action pass: its group is on top of the attribute stack unless it has
left it, and once it is off, its owner is a member of the group on top. -/
theorem Discipline.execute_checks (hd : Discipline st) (hs : st.syms = .action id g :: rest) :
    ∃ grp o, st.groupTable[g]? = some grp ∧ grp.owner = some o ∧
      (grp.popped = false → st.topGroup = some g) ∧
      (st.released cfg id g rest grp).topHolds (some o) = true := by
  have hgs : actionGroups st.syms = g :: actionGroups rest := by rw [hs]; rfl
  obtain ⟨grp, hg⟩ : ∃ grp, st.groupTable[g]? = some grp :=
    ⟨_, Array.getElem?_eq_getElem (hd.bounded g (by simp [hgs])).2⟩
  have hown := hd.owned
  rw [hs] at hown
  obtain ⟨⟨o, hog, hmem, -⟩, -⟩ := hown
  have ho : grp.owner = some o := by simpa [State.ownerOf, hg] using hog
  refine ⟨grp, o, hg, ho, fun hp => ?_, ?_⟩
  · -- a group that has not left is the first stacked group of an action
    have hstg : st.stacked g = true := by simp [State.stacked, hg, hp]
    simp [State.topGroup, hd.groups, hgs, hstg]
  · -- the group the action belongs to is stacked, as the action claims it
    have hcl : st.stacked (enclosing rest) = true :=
      hd.claimed _ (by rw [hs]; exact List.mem_cons_self ..)
    refine State.topHolds_of_mem ?_ (by rw [released_members]; exact hmem)
    rw [State.topGroup, hd.released_groups_eq hs hg]
    exact head_filter_root hcl

/-- Executing the action on top fails only as its semantic action fails. -/
theorem Discipline.execute_eq (hd : Discipline st) (hs : st.syms = .action id g :: rest) :
    ∃ grp o, st.groupTable[g]? = some grp ∧ grp.owner = some o ∧
      (execute cfg g).run (st.popTo cfg (.action id g) rest) =
        actionOutcome cfg grp o ((runAction cfg grp).run (st.released cfg id g rest grp)) := by
  obtain ⟨grp, o, hg, ho, htop, hholds⟩ : ∃ grp o, st.groupTable[g]? = some grp ∧
      grp.owner = some o ∧ (grp.popped = false → st.topGroup = some g) ∧
      (st.released cfg id g rest grp).topHolds (some o) = true := hd.execute_checks hs
  refine ⟨grp, o, hg, ho, ?_⟩
  have hrel : (if grp.popped then st.popTo cfg (.action id g) rest
      else (st.popTo cfg (.action id g) rest).leave g) = st.released cfg id g rest grp := rfl
  rw [run_execute_eq, popTo_groupTable, hg]
  simp only
  rw [if_neg fun ⟨hp, hne⟩ => hne (by simpa [State.topGroup] using htop hp), hrel, ho,
    if_neg (by simp [hholds])]
  rcases (runAction cfg grp).run (st.released cfg id g rest grp) with ⟨_ | _, s₂⟩ <;> rfl

end Checks

/-! ### What a step does -/

/-- What one step does to the attribute stack and to the records. -/
structure Disciplined (cfg : Config α) (st st' : State α) : Prop where
  /-- A group enters the attribute stack only when a production other than `ε` is expanded: it
  is the production's new group. -/
  enters : ∀ g, g ∉ st.groups → g ∈ st'.groups → ∃ k i rest p,
    st.syms = .nonterminal k i :: rest ∧ cfg.table.select k.code st.lookahead.symbol = some p ∧
      p.isEpsilon = false ∧ g = st.groupTable.size
  /-- A group leaves it only when its own action runs, or when one of its own terminals is
  matched while all its members are synthesized. -/
  leaves : ∀ g, g ∈ st.groups → g ∉ st'.groups → (∃ id rest, st.syms = .action id g :: rest) ∨
    ∃ s rest, st.syms = .terminal s :: rest ∧ enclosing rest = g ∧ st.groupDone g = true
  /-- A record is synthesized only by the action of the group it owns. -/
  resolves : ∀ i, st.resolvedAt i = false → st'.resolvedAt i = true →
    ∃ id g rest, st.syms = .action id g :: rest ∧ st.ownerOf g = some i

section Steps

variable {cfg : Config α} {st st' : State α} {s : Symbol} {rest : List Entry}

/-- A group done at a match is the group of the matched terminal: a group stacked above it would
be claimed, hence not done. -/
theorem Discipline.enclosing_of_done (hd : Discipline st) (hs : st.syms = .terminal s :: rest)
    {h : Nat} (hh : st.groups.head? = some h) (hdone : st.groupDone h = true) :
    enclosing rest = h := by
  have hgs : actionGroups st.syms = actionGroups rest := by rw [hs]; rfl
  have hcl : claims st.syms = claims rest := by rw [hs]; rfl
  have h0 := hd.rootStacked (by simp [hs])
  have hG : st.groups = (actionGroups rest).filter st.stacked ++ if st.stacked 0 then [0] else [] := by
    rw [hd.groups, hgs]
  by_cases hst : st.stacked (enclosing rest) = true
  · have := head_filter_root (l := actionGroups rest) hst
    rw [← hG, hh] at this
    exact (Option.some.inj this).symm
  · -- the first action below has left, so the group on top is the one that action claims
    cases hAG : actionGroups rest with
    | nil => exact absurd (by simp [enclosing, hAG, h0]) hst
    | cons e es =>
      have he : st.stacked e = false := by simpa [enclosing, hAG] using hst
      have hc := claims_below hAG
      have hG' : st.groups = es.filter st.stacked ++ if st.stacked 0 then [0] else [] := by
        rw [hG, hAG, List.filter_cons, he]
        rfl
      have := head_filter_root (hd.claimed _ (hcl ▸ hc))
      rw [← hG', hh] at this
      cases Option.some.inj this
      have := hd.owned.not_done (hcl ▸ hc)
      rw [hdone] at this
      cases this

/-- A match lets a group leave only when it is done and on top: the matched terminal's own. -/
theorem Discipline.disciplined_matched (hd : Discipline st) (hs : st.syms = .terminal s :: rest)
    {h : Nat} (hh : st.groups.head? = some h)
    (hcases : (st.groupDone h = false ∧ st'.groups = st.groups) ∨
      (st.groupDone h = true ∧ st'.groups = st.groups.drop 1))
    (hrec : st'.records = st.records) : Disciplined cfg st st' := by
  have hres : ∀ i, st.resolvedAt i = false → st'.resolvedAt i = true → False := fun i hf ht => by
    rw [State.resolvedAt_eq hrec, hf] at ht
    cases ht
  rcases hcases with ⟨-, hg⟩ | ⟨hdone, hg⟩
  · exact ⟨fun g hn hin => absurd (hg ▸ hin) hn, fun g hin hout => absurd (hg ▸ hin) hout,
      fun i hf ht => (hres i hf ht).elim⟩
  · -- the group on top, done, leaves: it is the matched terminal's own group
    obtain ⟨t, ht⟩ : ∃ t, st.groups = h :: t := by
      cases hgs : st.groups with
      | nil => rw [hgs] at hh; cases hh
      | cons h' t => rw [hgs] at hh; cases hh; exact ⟨t, rfl⟩
    refine ⟨fun g hn hin => absurd (List.mem_of_mem_drop (hg ▸ hin)) hn,
      fun g hin hout => .inr ⟨s, rest, hs, ?_⟩, fun i hf ht => (hres i hf ht).elim⟩
    rw [hg, ht] at hout
    rw [ht] at hin
    rcases List.mem_cons.mp hin with rfl | hin
    · exact ⟨hd.enclosing_of_done hs hh hdone, hdone⟩
    · exact absurd hin hout

/-- What a step does to the attribute stack and the records, from a state with the discipline. -/
theorem Discipline.disciplined (hd : Discipline st) (ht : Transition cfg st st') :
    Disciplined cfg st st' := by
  cases ht with
  | @matched s rest hs _ _ =>
    obtain ⟨h, hh, ⟨hdone, hg, -⟩ | ⟨hdone, hg, -⟩⟩ := hd.matched_cases hs
      (if s = .number ∨ s = .identifier then Literal.read cfg st.lookahead else st.held)
      st.lookahead
    · exact hd.disciplined_matched hs hh (.inl ⟨hdone, hg⟩) (by simp)
    · exact hd.disciplined_matched hs hh (.inr ⟨hdone, hg⟩) (by simp)
  | @expanded k i rest p hs hp =>
    refine ⟨fun g hn hin => ?_, fun g hin hout => ?_, fun j hf ht => ?_⟩
    · rw [expanded_groups] at hin
      cases he : p.isEpsilon
      · rw [he, if_neg (by simp)] at hin
        rcases List.mem_cons.mp hin with rfl | hin
        · exact ⟨k, i, rest, p, hs, hp, he, rfl⟩
        · exact absurd hin hn
      · rw [he, if_pos rfl] at hin
        exact absurd hin hn
    · rw [expanded_groups] at hout
      split at hout
      · exact absurd hin hout
      · exact absurd (List.mem_cons_of_mem _ hin) hout
    · rw [expanded_resolvedAt] at ht
      split at ht
      · rw [ht] at hf; cases hf
      · cases ht
  | @executed id g o rest grp s₂ hs hg ho htop _ hrun =>
    have hc := Confined.of_runAction ho hrun
    have hgroups : (s₂.closed cfg grp o).groups = if grp.popped then st.groups else st.groups.drop 1 := by
      rw [closed_groups, hc.groups, released_groups]
    refine ⟨fun x hn hin => ?_, fun x hin hout => .inl ⟨id, rest, ?_⟩, fun j hf ht => ?_⟩
    · rw [hgroups] at hin
      split at hin
      · exact absurd hin hn
      · exact absurd (List.mem_of_mem_drop hin) hn
    · -- only the action's own group, on top unless it has left, can leave
      rw [hgroups] at hout
      cases hp : grp.popped
      · rw [hp] at hout
        simp only [State.topGroup] at htop
        obtain ⟨t, ht⟩ : ∃ t, st.groups = g :: t := by
          cases hgs : st.groups with
          | nil => rw [hgs] at htop; cases htop hp
          | cons h' t => rw [hgs] at htop; cases htop hp; exact ⟨t, rfl⟩
        rw [ht] at hin hout
        rcases List.mem_cons.mp hin with rfl | hin
        · exact hs
        · exact absurd hin hout
      · rw [hp] at hout
        exact absurd hin hout
    · -- only the owner's record changes
      by_cases hj : j = o
      · subst hj
        exact ⟨id, g, rest, hs, by simp [State.ownerOf, hg, ho]⟩
      · rw [closed_resolvedAt, hc.resolvedAt_ne hj, State.resolvedAt_eq released_records, hf] at ht
        cases ht

end Steps

section Run

variable {cfg : Config α} {tokens : List Token} {st st' : State α}

/-- A step keeps the discipline, for a table whose productions hold no actions. -/
theorem Discipline.step (hA : cfg.table.grammar.ActionFree) (hd : Discipline st)
    (ht : Transition cfg st st') : Discipline st' := by
  cases ht with
  | matched hs _ _ => exact hd.matched hs _ _
  | expanded hs hp => exact hd.expanded (hA _ (Table.mem_rules_of_select hp)) hs
  | @executed id g o rest grp s₂ hs hg ho _ _ hrun =>
    have hc := Confined.of_runAction ho hrun
    exact hd.executed hs hg ho hc

/-- Every state a run reaches keeps the discipline. -/
theorem discipline_of_reachable (hA : cfg.table.grammar.ActionFree)
    (h : Reachable cfg tokens st) : Discipline st := by
  induction h with
  | initial => exact discipline_initial cfg tokens
  | step _ hstep ih => exact ih.step hA (transition_of_step hstep)

/-- With a table built from the builder's grammar, every state a run reaches keeps the
discipline, whatever the grammar and even when its table has conflicts. -/
theorem built_table_discipline {rg : RawGrammar} {a : Analysis} (ha : rg.analyze = .ok a)
    (ht : Table.build a = .ok cfg.table) (h : Reachable cfg tokens st) : Discipline st :=
  discipline_of_reachable (built_table_actionFree ha ht) h

end Run

/-- **The attribute-stack discipline.** For a table whose productions hold no action symbols and
every input: every state a run reaches keeps the discipline; a step that succeeds lets groups enter
and leave the attribute stack, and records be synthesized, only as `Disciplined` says; executing
the action on top fails only as its semantic action fails, both checks of its group passing; and a
run that finishes ends with an empty symbol stack and an attribute stack that is empty when the
start symbol's record is synthesized and holds the bottom group otherwise. -/
theorem attribute_stack_discipline {cfg : Config α} (hA : cfg.table.grammar.ActionFree)
    (tokens : List Token) :
    (∀ st, Reachable cfg tokens st →
      Discipline st ∧
      (∀ st', (step cfg).run st = (.ok true, st') → Disciplined cfg st st') ∧
      (∀ id g rest, st.syms = .action id g :: rest → ∃ grp o,
        st.groupTable[g]? = some grp ∧ grp.owner = some o ∧
        (execute cfg g).run (st.popTo cfg (.action id g) rest) =
          actionOutcome cfg grp o ((runAction cfg grp).run (st.released cfg id g rest grp)))) ∧
    ∀ fuel st, runSteps cfg fuel (initial cfg tokens) = (.finished, st) →
      st.syms = [] ∧ st.groups = if st.resolvedAt 0 then [] else [0] := by
  refine ⟨fun st h => ?_, fun fuel st hr => ?_⟩
  · have hd := discipline_of_reachable hA h
    exact ⟨hd, fun st' hstep => hd.disciplined (transition_of_step hstep),
      fun id g rest hs => hd.execute_eq hs⟩
  · obtain ⟨h, hs⟩ := Reachable.initial.finished hr
    have hd := discipline_of_reachable hA h
    refine ⟨hs, ?_⟩
    rw [hd.groups, hs, hd.final hs]
    cases st.resolvedAt 0 <;> rfl

/-- The expression grammar's table, on `1 + x`. -/
theorem float_attribute_stack_discipline :
    let cfg : Config Float := ⟨Arith.float, expressionTable, true, [], false⟩
    let tokens : List Token := [⟨"1", .number, 1⟩, ⟨"+", .plus, 1⟩, ⟨"x", .identifier, 1⟩]
    cfg.table.grammar.ActionFree ∧
    (∀ st, Reachable cfg tokens st →
      Discipline st ∧
      (∀ st', (step cfg).run st = (.ok true, st') → Disciplined cfg st st') ∧
      (∀ id g rest, st.syms = .action id g :: rest → ∃ grp o,
        st.groupTable[g]? = some grp ∧ grp.owner = some o ∧
        (execute cfg g).run (st.popTo cfg (.action id g) rest) =
          actionOutcome cfg grp o ((runAction cfg grp).run (st.released cfg id g rest grp)))) ∧
    ∀ fuel st, runSteps cfg fuel (initial cfg tokens) = (.finished, st) →
      st.syms = [] ∧ st.groups = if st.resolvedAt 0 then [] else [0] := by
  intro cfg tokens
  have hT : cfg.table = expressionTable := by simp [cfg]
  have hA : cfg.table.grammar.ActionFree := by rw [hT]; exact expressionTable_actionFree
  exact ⟨hA, attribute_stack_discipline hA tokens⟩

end ExprTranslate
