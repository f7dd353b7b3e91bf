import ExprTranslate.Proofs.Reports
/-!
# The translator emits well-formed code

Every instruction the translator emits writes the next temporary, `T1`, `T2`, … in order, with
an arithmetic operator, and reads only the identity of a sum or of a product, the name of a
number or an identifier already matched, or an earlier temporary. This holds of every run, with
every table and whether it succeeds or fails, so also of the partial code of a failed
translation:

* `Source`, `Instr.WellFormed`, `CodeWellFormed`: the places instruction `i` may read, and what
  the instruction and the code must be;
* `WellEmitted st`: the code of `st` is well formed, its temporaries are its instructions, and
  every place a record or the holding area keeps may be read by the next instruction;
* `Run.Emits pre post x`: a triple for the semantic actions which says that `x` keeps
  `WellEmitted` whether it succeeds or fails; every action does (`emits_runAction`);
* `wellEmitted_step`: every step keeps it, whether it succeeds or fails, so every run does
  (`wellEmitted_runSteps`);
* `translate_wellEmitted`: the code of every translation is well formed and counts its
  temporaries.
-/

namespace ExprTranslate

open Run

variable {α : Type}

/-! ### Places an instruction may read -/

/-- A place that instruction `i`, numbered from 1, may read once the tokens of `toks` before
`c` are consumed: the identity of a sum or of a product, the name of a consumed number or
identifier, or the temporary of an earlier instruction. -/
def Source (toks : List Token) (c i : Nat) (p : String) : Prop :=
  p = additiveIdentity ∨ p = multiplicativeIdentity ∨
    (∃ tok ∈ toks.take c, (tok.symbol = .number ∨ tok.symbol = .identifier) ∧ tok.lexeme = p) ∨
    ∃ j, 0 < j ∧ j < i ∧ p = temporary j

namespace Source

variable {toks : List Token} {c i : Nat} {p : String}

theorem mono (h : Source toks c i p) {c' i' : Nat} (hc : c ≤ c') (hi : i ≤ i') :
    Source toks c' i' p := by
  rcases h with h | h | ⟨tok, htok, hs, hl⟩ | ⟨j, hj, hji, hp⟩
  · exact .inl h
  · exact .inr (.inl h)
  · exact .inr (.inr (.inl ⟨tok, List.take_subset_take_left _ hc htok, hs, hl⟩))
  · exact .inr (.inr (.inr ⟨j, hj, by omega, hp⟩))

theorem additive : Source toks c i additiveIdentity := .inl rfl

theorem multiplicative : Source toks c i multiplicativeIdentity := .inr (.inl rfl)

theorem temporary_lt {j : Nat} (hj : 0 < j) (hji : j < i) : Source toks c i (temporary j) :=
  .inr (.inr (.inr ⟨j, hj, hji, rfl⟩))

end Source

/-- Instruction `i`, numbered from 1, of code emitted while the tokens of `toks` before `c` were
consumed: an arithmetic operation into the `i`-th temporary that reads places it may read. -/
structure Instr.WellFormed (toks : List Token) (c i : Nat) (ins : Instr) : Prop where
  op : ins.op = '+' ∨ ins.op = '-' ∨ ins.op = '*' ∨ ins.op = '/'
  dest : ins.dest = temporary i
  left : Source toks c i ins.left
  right : Source toks c i ins.right

/-- Code whose instructions are each well formed as the instruction of their number. -/
def CodeWellFormed (toks : List Token) (c : Nat) (code : List Instr) : Prop :=
  ∀ i (ins : Instr), code[i]? = some ins → ins.WellFormed toks c (i + 1)

namespace CodeWellFormed

variable {toks : List Token} {c : Nat} {code : List Instr}

theorem mono (h : CodeWellFormed toks c code) {c' : Nat} (hc : c ≤ c') :
    CodeWellFormed toks c' code := by
  unfold CodeWellFormed at h ⊢
  intro i ins hi
  have hw := h i ins hi
  exact ⟨hw.op, hw.dest, hw.left.mono hc (Nat.le_refl _), hw.right.mono hc (Nat.le_refl _)⟩

theorem append (h : CodeWellFormed toks c code) {ins : Instr}
    (hi : ins.WellFormed toks c (code.length + 1)) : CodeWellFormed toks c (code ++ [ins]) := by
  unfold CodeWellFormed at h ⊢
  intro i x hx
  rcases Nat.lt_or_ge i code.length with hlt | hge
  · rw [List.getElem?_append_left hlt] at hx
    exact h i x hx
  · rw [List.getElem?_append_right hge, List.getElem?_singleton] at hx
    split at hx
    · cases hx
      rwa [show i = code.length by omega]
    · cases hx

end CodeWellFormed

/-! ### The invariant of emission -/

/-- A place that the next instruction emitted from `st` may read. -/
def State.Reads (st : State α) (p : String) : Prop :=
  Source st.tokens.toList st.cursor (st.temps + 1) p

/-- A place that some record of `st` keeps as its attribute. -/
def State.Keeps (st : State α) (p : String) : Prop :=
  ∃ (i : Nat) (r : Instance α) (v : α), st.records[i]? = some r ∧ r.attr = some (v, p)

/-- **The invariant of emission.** The temporaries count the instructions, which are well formed
over the tokens consumed, and every place that a record or the holding area keeps may be read
by the next instruction. -/
structure WellEmitted (st : State α) : Prop where
  temps : st.temps = st.code.size
  code : CodeWellFormed st.tokens.toList st.cursor st.code.toList
  keeps : ∀ p, st.Keeps p → st.Reads p
  held : ∀ lit, st.held = some lit → st.Reads lit.text

/-- What may change about the places an instruction may read: the input stays, the cursor moves
on, the temporaries grow. -/
structure Grows (s s' : State α) : Prop where
  tokens : s'.tokens = s.tokens
  cursor : s.cursor ≤ s'.cursor
  temps : s.temps ≤ s'.temps

namespace Grows

variable {s s₁ s₂ : State α}

theorem refl (s : State α) : Grows s s := ⟨rfl, Nat.le_refl _, Nat.le_refl _⟩

theorem trans (h₁ : Grows s s₁) (h₂ : Grows s₁ s₂) : Grows s s₂ :=
  ⟨h₂.tokens.trans h₁.tokens, Nat.le_trans h₁.cursor h₂.cursor, Nat.le_trans h₁.temps h₂.temps⟩

end Grows

theorem State.Reads.grow {s s' : State α} {p : String} (h : s.Reads p) (hg : Grows s s') :
    s'.Reads p := by
  unfold State.Reads at h ⊢
  rw [hg.tokens]
  exact h.mono hg.cursor (by have := hg.temps; omega)

@[simp] theorem State.reads_additive (st : State α) : st.Reads additiveIdentity := Source.additive

@[simp] theorem State.reads_multiplicative (st : State α) : st.Reads multiplicativeIdentity :=
  Source.multiplicative

/-- A state that changes neither code nor records nor the holding area, with the same input and
a cursor moved on, keeps the invariant. -/
theorem WellEmitted.frame {s s' : State α} (h : WellEmitted s) (hg : Grows s s')
    (htemps : s'.temps = s.temps) (hcode : s'.code = s.code)
    (hkeeps : ∀ p, s'.Keeps p → s.Keeps p ∨ s'.Reads p)
    (hheld : ∀ lit, s'.held = some lit → s.held = some lit ∨ s'.Reads lit.text) :
    WellEmitted s' where
  temps := by rw [htemps, hcode, h.temps]
  code := by rw [hg.tokens, hcode]; exact h.code.mono hg.cursor
  keeps p hp := (hkeeps p hp).elim (fun hs => (h.keeps p hs).grow hg) id
  held lit hl := (hheld lit hl).elim (fun hs => (h.held lit hs).grow hg) id

theorem keeps_of_records {s s' : State α} (h : s'.records = s.records) {p : String}
    (hp : s'.Keeps p) : s.Keeps p := by
  unfold State.Keeps at hp
  rwa [h] at hp

/-- A place kept after one record changed was kept before, or is kept by the changed record. -/
theorem keeps_modify {s : State α} {i : Nat} {f : Instance α → Instance α} {p : String}
    (h : ({ s with records := s.records.modify i f } : State α).Keeps p) :
    s.Keeps p ∨ ∃ r v, s.records[i]? = some r ∧ (f r).attr = some (v, p) := by
  obtain ⟨j, r, v, hr, ha⟩ := h
  simp only [Array.getElem?_modify] at hr
  split at hr
  · subst_vars
    obtain ⟨r₀, h₀, rfl⟩ := Option.map_eq_some_iff.mp hr
    exact .inr ⟨r₀, v, h₀, ha⟩
  · exact .inl ⟨j, r, v, hr, ha⟩

/-! ### A triple for the semantic actions -/

/-- `x` keeps the invariant whether it succeeds or fails and only lets the cursor and the
temporaries grow; started where `pre` holds, it ends where `post` holds of its result when it
succeeds. -/
def Run.Emits {β : Type} (pre : State α → Prop) (post : β → State α → Prop) (x : Run α β) :
    Prop :=
  ∀ s, WellEmitted s → pre s →
    WellEmitted (x.run s).2 ∧ Grows s (x.run s).2 ∧ ∀ b, (x.run s).1 = .ok b → post b (x.run s).2

namespace Run.Emits

variable {β γ : Type} {pre : State α → Prop} {post : β → State α → Prop}

/-- A computation that leaves the state as it is. -/
theorem of_run {x : Run α β} (h : ∀ s, (x.run s).2 = s)
    (hpost : ∀ s b, WellEmitted s → pre s → (x.run s).1 = .ok b → post b s) :
    Run.Emits pre post x := by
  intro s hs hpre
  rw [h s]
  exact ⟨hs, .refl s, fun b hb => hpost s b hs hpre hb⟩

/-- A computation that leaves the state as it is keeps whatever held before it. -/
theorem stays {x : Run α β} (h : ∀ s, (x.run s).2 = s) : Run.Emits pre (fun _ => pre) x :=
  of_run h fun _ _ _ hp _ => hp

theorem pure {b : β} (h : ∀ s, pre s → post b s) : Run.Emits pre post (Pure.pure b : Run α β) :=
  of_run (fun _ => rfl) fun s _ _ hs hb => by cases hb; exact h s hs

theorem throw (e : TranslateError) : Run.Emits pre post (MonadExcept.throw e : Run α β) :=
  of_run (fun _ => rfl) fun _ _ _ _ hb => by cases hb

theorem internal (msg : String) : Run.Emits pre post (ExprTranslate.internal msg : Run α β) :=
  of_run (fun _ => rfl) fun _ _ _ _ hb => by cases hb

theorem bind {mid : β → State α → Prop} {x : Run α β} {f : β → Run α γ}
    {post : γ → State α → Prop} (hx : Run.Emits pre mid x) (hf : ∀ b, Run.Emits (mid b) post (f b)) :
    Run.Emits pre post (x >>= f) := by
  intro s hs hpre
  obtain ⟨hs₁, hg₁, hpost₁⟩ := hx s hs hpre
  rw [run_bind]
  rcases hr : x.run s with ⟨_ | b, s₁⟩ <;> rw [hr] at hs₁ hg₁ hpost₁
  · exact ⟨hs₁, hg₁, fun _ hb => by cases hb⟩
  · obtain ⟨hs₂, hg₂, hpost₂⟩ := hf b s₁ hs₁ (hpost₁ b rfl)
    exact ⟨hs₂, hg₁.trans hg₂, hpost₂⟩

theorem ite {p : Prop} [Decidable p] {x y : Run α β} (hx : Run.Emits pre post x)
    (hy : Run.Emits pre post y) : Run.Emits pre post (if p then x else y) := by
  split
  · exact hx
  · exact hy

/-- A handler is started from whatever state the failure left. -/
theorem tryCatch {x : Run α β} {h : TranslateError → Run α β} (hx : Run.Emits pre post x)
    (hh : ∀ e, Run.Emits (fun _ => True) post (h e)) :
    Run.Emits pre post (MonadExcept.tryCatch x h) := by
  intro s hs hpre
  obtain ⟨hs₁, hg₁, hpost₁⟩ := hx s hs hpre
  rw [run_tryCatch]
  rcases hr : x.run s with ⟨e | b, s₁⟩ <;> rw [hr] at hs₁ hg₁ hpost₁
  · obtain ⟨hs₂, hg₂, hpost₂⟩ := hh e s₁ hs₁ trivial
    exact ⟨hs₂, hg₁.trans hg₂, hpost₂⟩
  · exact ⟨hs₁, hg₁, hpost₁⟩

theorem conseq {pre' : State α → Prop} {post' : β → State α → Prop} {x : Run α β}
    (hx : Run.Emits pre post x) (hpre : ∀ s, pre' s → pre s) (hpost : ∀ b s, post b s → post' b s) :
    Run.Emits pre' post' x := fun s hs h =>
  let ⟨hs', hg, hb⟩ := hx s hs (hpre s h)
  ⟨hs', hg, fun b e => hpost b _ (hb b e)⟩

/-- A place the next instruction may read stays readable. -/
theorem frame {x : Run α β} (hx : Run.Emits pre post x) (p : String) :
    Run.Emits (fun s => s.Reads p ∧ pre s) (fun b s => s.Reads p ∧ post b s) x := by
  rintro s hs ⟨hp, hpre⟩
  obtain ⟨hs', hg, hb⟩ := hx s hs hpre
  exact ⟨hs', hg, fun b e => ⟨hp.grow hg, hb b e⟩⟩

end Run.Emits

/-! ### The operations of the semantic actions -/

section Actions

variable {cfg : Config α} {P : State α → Prop}

theorem run_getRecord_state (i : Nat) (s : State α) : ((getRecord i).run s).2 = s := by
  unfold getRecord; simp only [run_bind, run_get]; split <;> rfl

theorem getRecord_ok {i : Nat} {s : State α} {r : Instance α}
    (h : ((getRecord i).run s).1 = .ok r) : s.records[i]? = some r := by
  unfold getRecord at h
  simp only [run_bind, run_get] at h
  split at h
  · rename_i r' hr'
    cases h
    exact hr'
  · cases h

/-- A record read keeps places the next instruction may read. -/
theorem emits_getRecord (i : Nat) :
    Run.Emits P (fun r s => P s ∧ ∀ a, r.attr = some a → s.Reads a.2) (getRecord i) :=
  .of_run (run_getRecord_state i) fun _ r hs hp hr =>
    ⟨hp, fun a ha => hs.keeps a.2 ⟨i, r, a.1, getRecord_ok hr, ha⟩⟩

theorem emits_member (g : Group) (k : Kind) : Run.Emits P (fun _ => P) (member g k : Run α Nat) :=
  .stays fun s => by unfold member; simp only [run_bind, run_get]; split <;> rfl

theorem emits_operatorOf (g : Group) (k : Kind) :
    Run.Emits P (fun _ => P) (operatorOf g k : Run α Symbol) :=
  (emits_member g k).bind fun i => (emits_getRecord i).bind fun r => by
    split
    · exact .pure fun _ h => h.1
    · exact .internal _

/-- An operand is a place the next instruction may read. -/
theorem emits_operand (i : Nat) :
    Run.Emits P (fun a s => P s ∧ s.Reads a.2) (operand i : Run α (α × String)) :=
  (emits_getRecord i).bind fun r => by
    split
    · rename_i a ha
      exact .pure fun _ h => ⟨h.1, h.2 a ha⟩
    · exact .internal _

/-- Changing a record keeps the invariant if every place the changed record keeps was kept
before or may be read. -/
theorem emits_modifyRecord (i : Nat) {f : Instance α → Instance α}
    (hf : ∀ s r v p, P s → s.records[i]? = some r → (f r).attr = some (v, p) →
      r.attr = some (v, p) ∨ s.Reads p) :
    Run.Emits P (fun _ _ => True) (modifyRecord i f) := by
  intro s hs hp
  simp only [modifyRecord, run_modify]
  have hg : Grows s { s with records := s.records.modify i f } := ⟨rfl, Nat.le_refl _, Nat.le_refl _⟩
  refine ⟨hs.frame hg rfl rfl (fun q hq => ?_) (fun lit hl => .inl hl), hg, fun _ _ => trivial⟩
  rcases keeps_modify hq with hq | ⟨r, v, hr, ha⟩
  · exact .inl hq
  · rcases hf s r v q hp hr ha with ha | hq
    · exact .inl ⟨i, r, v, hr, ha⟩
    · exact .inr hq

theorem emits_setOperator (i : Nat) (op : Symbol) :
    Run.Emits (fun _ => True) (fun _ _ => True) (setOperator i op : Run α Unit) :=
  (emits_getRecord i).bind fun _ =>
    .ite (.internal _) (emits_modifyRecord i fun _ _ _ _ _ _ ha => .inl ha)

theorem emits_synthesize (i : Nat) (v : α) (p : String) :
    Run.Emits (fun s => s.Reads p) (fun _ _ => True) (synthesize i v p) :=
  (emits_getRecord i).bind fun _ => .ite (.internal _) (emits_modifyRecord i
    fun _ _ _ _ hp _ ha => .inr (by cases ha; exact hp.1))

/-- The literal taken is a place the next instruction may read. -/
theorem emits_take (sym : Symbol) :
    Run.Emits (fun _ => True) (fun lit s => s.Reads lit.text) (take sym : Run α (Literal α)) := by
  intro s hs _
  unfold take
  simp only [run_bind, run_get]
  split
  · exact ⟨hs, .refl s, fun _ hb => by cases hb⟩
  · rename_i lit hlit
    simp only [run_bind, run_modify]
    have hg : Grows s { s with held := none } := ⟨rfl, Nat.le_refl _, Nat.le_refl _⟩
    have hs₁ : WellEmitted { s with held := none } :=
      hs.frame hg rfl rfl (fun _ hq => .inl hq) fun _ hl => by cases hl
    split
    · exact ⟨hs₁, hg, fun b hb => by cases hb; exact hs.held lit hlit⟩
    · exact ⟨hs₁, hg, fun _ hb => by cases hb⟩

/-- An emitted instruction reads places it may read and writes the next temporary, which the
next instruction may then read. -/
theorem emits_emit {op : Char} (hop : op = '+' ∨ op = '-' ∨ op = '*' ∨ op = '/') (l r : String) :
    Run.Emits (fun s => s.Reads l ∧ s.Reads r) (fun d s => s.Reads d) (emit op l r : Run α String) := by
  rintro s hs ⟨hl, hr⟩
  rw [run_emit]
  have hg : Grows s { s with temps := s.temps + 1
                             code := s.code.push ⟨op, l, r, temporary (s.temps + 1)⟩ } :=
    ⟨rfl, Nat.le_refl _, Nat.le_succ _⟩
  have hlen : s.code.toList.length = s.temps := by rw [Array.length_toList, hs.temps]
  refine ⟨⟨by simp [hs.temps], ?_, fun p hp => (hs.keeps p hp).grow hg,
    fun lit hlit => (hs.held lit hlit).grow hg⟩, hg, fun b hb => ?_⟩
  · simp only [Array.toList_push]
    refine hs.code.append ⟨hop, by rw [hlen], ?_, ?_⟩ <;> rw [hlen]
    · exact hl
    · exact hr
  · cases hb
    exact Source.temporary_lt (Nat.succ_pos _) (Nat.lt_succ_self _)

/-- The code of a sum or a product reads the first operand and the rest, both kept by records,
and the identity. -/
theorem emits_combine (c : Combine) (hc : c = .sum ∨ c = .product) (invert : α → α)
    (join : α → α → α) (owner : Nat) (op : Symbol) (first rest : Nat) :
    Run.Emits (fun _ => True) (fun _ _ => True) (combine cfg c invert join owner op first rest) := by
  -- sums and products invert and join by arithmetic operators, and their identities are sources
  obtain ⟨hinv, hjoin, hid⟩ : (c.invert = '+' ∨ c.invert = '-' ∨ c.invert = '*' ∨ c.invert = '/') ∧
      (c.combine = '+' ∨ c.combine = '-' ∨ c.combine = '*' ∨ c.combine = '/') ∧
      ∀ s : State α, s.Reads c.identity := by
    rcases hc with rfl | rfl <;> simp [Combine.sum, Combine.product]
  unfold combine
  refine (emits_operand first).bind fun x => ?_
  obtain ⟨fv, fp⟩ := x
  refine (emits_operand rest).bind fun y => ?_
  obtain ⟨hv, hp⟩ := y
  dsimp only
  -- whichever way the first operand is kept, its place and the rest's may be read by the join
  have hjoined : ∀ x : α × String, Run.Emits (fun s => s.Reads x.2 ∧ s.Reads hp) (fun _ _ => True)
      (if (!cfg.optimize || hp != c.identity) = true then
        emit c.combine x.snd hp >>= fun place => synthesize owner (join x.fst hv) place
      else pure x.snd >>= fun place => synthesize owner (join x.fst hv) place) := fun x =>
    .ite ((emits_emit hjoin _ _).bind fun _ => emits_synthesize _ _ _)
      ((Run.Emits.pure fun _ h => h.1).bind fun _ => emits_synthesize _ _ _)
  -- the inverse of the first operand is a new temporary
  have hinverse := ((emits_emit hinv c.identity fp).frame hp).conseq
    (fun s (h : (True ∧ s.Reads fp) ∧ s.Reads hp) => ⟨h.2, hid s, h.1.2⟩) (fun _ _ h => h)
  exact .ite ((Run.Emits.pure fun _ h => ⟨h.1.2, h.2⟩).bind hjoined)
    (.ite (hinverse.bind fun _ => (Run.Emits.pure fun _ h => ⟨h.2, h.1⟩).bind hjoined)
      ((Run.Emits.internal _).bind hjoined))

theorem emits_sumOf (g : Group) (owner : Nat) (op : Symbol) :
    Run.Emits (fun _ => True) (fun _ _ => True) (sumOf cfg g owner op) :=
  (emits_member g _).bind fun _ => (emits_member g _).bind fun _ =>
    emits_combine _ (.inl rfl) _ _ _ _ _ _

theorem emits_productOf (g : Group) (owner : Nat) (op : Symbol) :
    Run.Emits (fun _ => True) (fun _ _ => True) (productOf cfg g owner op) :=
  (emits_member g _).bind fun _ => (emits_member g _).bind fun _ =>
    emits_combine _ (.inr rfl) _ _ _ _ _ _

/-- Every semantic action keeps the invariant, whether it succeeds or fails. -/
theorem emits_action (id : Int) (g : Group) (owner : Nat) :
    Run.Emits (fun _ => True) (fun _ _ => True) (action cfg id g owner) := by
  unfold action
  split
  · exact (emits_operatorOf g _).bind fun _ => emits_sumOf g _ _
  · exact (emits_operatorOf g _).bind fun _ => emits_setOperator _ _
  · exact emits_setOperator _ _
  · exact emits_productOf g _ _
  · exact (emits_take _).bind fun _ => emits_synthesize _ _ _
  · refine (emits_member g _).bind fun i => (emits_operand i).bind fun x => ?_
    exact (emits_synthesize _ _ _).conseq (fun _ h => h.2) fun _ _ h => h
  · exact emits_setOperator _ _
  · exact emits_setOperator _ _
  · exact emits_setOperator _ _
  · exact emits_setOperator _ _
  · exact (emits_operatorOf g _).bind fun _ => emits_sumOf g _ _
  · exact (emits_synthesize _ _ _).conseq (fun s _ => s.reads_additive) fun _ _ h => h
  · exact (emits_operatorOf g _).bind fun _ => emits_productOf g _ _
  · exact (emits_synthesize _ _ _).conseq (fun s _ => s.reads_multiplicative) fun _ _ h => h
  · exact (emits_take _).bind fun _ => emits_synthesize _ _ _
  · exact .throw _

theorem emits_runAction (cfg : Config α) (grp : Group) :
    Run.Emits (fun _ => True) (fun _ _ => True) (runAction cfg grp : Run α Unit) := by
  unfold runAction
  dsimp only
  have hfail : ∀ e, Run.Emits (fun _ => True) (fun (_ : Unit) _ => True)
      (MonadExcept.throw e : Run α Unit) := Run.Emits.throw
  -- past the check for an action, the owner decides between failing and running the action
  refine .ite ((hfail _).bind fun _ => ?_) ?_ <;> split
  · exact .throw _
  · exact .tryCatch (emits_action _ _ _) fun e => by cases e <;> exact .throw _
  · exact .throw _
  · exact .tryCatch (emits_action _ _ _) fun e => by cases e <;> exact .throw _

end Actions

/-! ### Steps and runs -/

section Steps

variable {cfg : Config α} {st st' : State α}

/-- Two changes of state that each keep the invariant keep it one after the other. -/
theorem WellEmitted.chain {s s₁ s₂ : State α} (h₁ : WellEmitted s₁ ∧ Grows s s₁)
    (h₂ : WellEmitted s₁ → WellEmitted s₂ ∧ Grows s₁ s₂) : WellEmitted s₂ ∧ Grows s s₂ :=
  let ⟨h, hg⟩ := h₂ h₁.1
  ⟨h, h₁.2.trans hg⟩

/-- Running an action keeps the invariant, whether it succeeds or fails. -/
theorem WellEmitted.runAction (h : WellEmitted st) (grp : Group) {r : Except TranslateError Unit}
    (hrun : (ExprTranslate.runAction cfg grp).run st = (r, st')) :
    WellEmitted st' ∧ Grows st st' := by
  obtain ⟨h', hg, -⟩ := emits_runAction cfg grp st h trivial
  rw [hrun] at h' hg
  exact ⟨h', hg⟩

/-- A state that differs from a well-emitting one only in what emission does not read. -/
theorem WellEmitted.of_same {s s' : State α} (h : WellEmitted s) (ht : s'.tokens = s.tokens)
    (hc : s'.cursor = s.cursor) (htemps : s'.temps = s.temps) (hcode : s'.code = s.code)
    (hrec : s'.records = s.records) (hheld : s'.held = s.held) : WellEmitted s' ∧ Grows s s' := by
  have hg : Grows s s' := ⟨ht, hc ▸ Nat.le_refl _, htemps ▸ Nat.le_refl _⟩
  exact ⟨h.frame hg htemps hcode (fun _ hp => .inl (keeps_of_records hrec hp))
    (fun _ hl => .inl (hheld ▸ hl)), hg⟩

theorem WellEmitted.popTo (h : WellEmitted st) (cfg : Config α) (top : Entry) (rest : List Entry) :
    WellEmitted (st.popTo cfg top rest) ∧ Grows st (st.popTo cfg top rest) :=
  h.of_same (by simp) (by simp) (by simp) (by simp) (by simp) (by simp)

theorem WellEmitted.leave (h : WellEmitted st) (g : Nat) :
    WellEmitted (st.leave g) ∧ Grows st (st.leave g) :=
  h.of_same rfl rfl rfl rfl rfl rfl

/-- Closing the owner's span keeps its attribute. -/
theorem WellEmitted.closed (h : WellEmitted st) (cfg : Config α) (grp : Group) (o : Nat) :
    WellEmitted (st.closed cfg grp o) ∧ Grows st (st.closed cfg grp o) := by
  have hg : Grows st (st.closed cfg grp o) := ⟨by simp, by simp, by simp⟩
  refine ⟨h.frame hg (by simp) (by simp) (fun p hp => .inl ?_) fun _ hl => .inl (by simpa using hl),
    hg⟩
  unfold State.closed at hp
  rcases keeps_modify (keeps_of_records (noted_records cfg _ _) hp) with hp | ⟨r, v, hr, ha⟩
  · exact hp
  · exact ⟨o, r, v, hr, ha⟩

/-- Expanding adds fresh records, which keep no place, and starts a span. -/
theorem keeps_of_expanded {top : Entry} {rest : List Entry} {p : Production} {i : Nat} {q : String}
    (hq : (st.expanded cfg top rest p i).Keeps q) : st.Keeps q := by
  obtain ⟨j, r, v, hr, ha⟩ := hq
  rw [expanded_records, Array.getElem?_append] at hr
  split at hr
  · rcases keeps_modify (s := st) ⟨j, r, v, hr, ha⟩ with hq | ⟨r₀, v₀, hr₀, ha₀⟩
    · exact hq
    · exact ⟨i, r₀, v₀, hr₀, ha₀⟩
  · rw [List.getElem?_toArray, List.getElem?_map] at hr
    obtain ⟨k, -, rfl⟩ := Option.map_eq_some_iff.mp hr
    cases ha

/-- A literal is read from a number or an identifier, and keeps its text. -/
theorem Literal.read_text {tok : Token} {lit : Literal α} (h : Literal.read cfg tok = some lit) :
    lit.text = tok.lexeme ∧ (tok.symbol = .number ∨ tok.symbol = .identifier) := by
  unfold Literal.read at h
  by_cases hn : tok.symbol = .number
  · rw [if_pos hn] at h
    split at h
    · cases h
      exact ⟨rfl, .inl hn⟩
    · cases h
  · rw [if_neg hn] at h
    by_cases hi : tok.symbol = .identifier
    · rw [if_pos hi] at h
      cases h
      exact ⟨rfl, .inr hi⟩
    · rw [if_neg hi] at h
      cases h

/-- A lookahead other than the end marker is among the tokens up to the cursor. -/
theorem State.lookahead_mem_take (st : State α) (h : st.lookahead.symbol ≠ .endOfInput) :
    st.lookahead ∈ st.tokens.toList.take (st.cursor + 1) := by
  unfold State.lookahead at h ⊢
  cases ht : st.tokens[st.cursor]? with
  | some t =>
    apply List.mem_of_getElem? (i := st.cursor)
    rw [List.getElem?_take, if_pos (Nat.lt_succ_self _), Array.getElem?_toList, ht]
  | none =>
    rw [ht] at h
    -- past the end the lookahead is the last token, which is consumed
    have hle : st.tokens.size ≤ st.cursor := Array.getElem?_eq_none_iff.mp ht
    cases hb : st.tokens.back? with
    | none =>
      rw [hb] at h
      exact (h rfl).elim
    | some t =>
      rw [List.take_of_length_le (by simp; omega)]
      exact Array.mem_toList_iff.mpr (Array.mem_of_getElem? (Array.back?_eq_getElem? ▸ hb))

/-- **A step that succeeds keeps the invariant.** A matched number or identifier is consumed
before its action can read it. -/
theorem Transition.wellEmitted (ht : Transition cfg st st') (h : WellEmitted st) :
    WellEmitted st' ∧ Grows st st' := by
  cases ht with
  | @matched s rest hs hla hheld =>
    have hg : Grows st (({ st.popTo cfg (.terminal s) rest with
        held := if s = .number ∨ s = .identifier then Literal.read cfg st.lookahead
          else st.held } : State α).matchedTo cfg st.lookahead) :=
      ⟨by simp, by simp, by simp⟩
    refine ⟨h.frame hg (by simp) (by simp) (fun _ hp => .inl (keeps_of_records (by simp) hp))
      fun lit hl => ?_, hg⟩
    simp only [matchedTo_held] at hl
    split at hl
    · -- the literal held is the lookahead, now consumed
      obtain ⟨htext, hsym⟩ := Literal.read_text hl
      have hmem := st.lookahead_mem_take (by rcases hsym with h | h <;> rw [h] <;> decide)
      refine .inr (.inr (.inr (.inl ⟨st.lookahead, ?_, hsym, htext.symm⟩)))
      simpa using hmem
    · exact .inl hl
  | @expanded k i rest p hs hp =>
    have hg : Grows st (st.expanded cfg (.nonterminal k i) rest p i) := ⟨by simp, by simp, by simp⟩
    exact ⟨h.frame hg (by simp) (by simp) (fun _ hq => .inl (keeps_of_expanded hq))
      fun _ hl => .inl (by simpa using hl), hg⟩
  | @executed id g o rest grp s₂ hs hg ho htop hholds hrun =>
    have h₁ : WellEmitted (st.released cfg id g rest grp) ∧
        Grows st (st.released cfg id g rest grp) := by
      unfold State.released
      split
      · exact h.popTo cfg _ rest
      · exact WellEmitted.chain (h.popTo cfg _ rest) (·.leave g)
    exact WellEmitted.chain (WellEmitted.chain h₁ (·.runAction grp hrun)) (·.closed cfg grp o)

/-- **A step that fails keeps the invariant.** -/
theorem WellEmitted.step_error (h : WellEmitted st) {e : TranslateError}
    (hs : (step cfg).run st = (.error e, st')) : WellEmitted st' ∧ Grows st st' := by
  obtain ⟨top, rest, -, hcase⟩ := step_error_state hs
  have hpop := h.popTo cfg top rest
  rcases hcase with rfl | ⟨id, g, -, s₁, hs₁, hend⟩
  · exact hpop
  · have h₁ : WellEmitted s₁ ∧ Grows st s₁ := by
      rcases hs₁ with rfl | rfl
      · exact hpop
      · exact WellEmitted.chain hpop (·.leave g)
    rcases hend with rfl | ⟨grp, e', hrun⟩
    · exact h₁
    · exact WellEmitted.chain h₁ (·.runAction grp hrun)

/-- **Every step keeps the invariant**, whether it succeeds or fails. -/
theorem wellEmitted_step (h : WellEmitted st) {r : Except TranslateError Bool}
    (hs : (step cfg).run st = (r, st')) : WellEmitted st' ∧ Grows st st' := by
  rcases r with e | b
  · exact h.step_error hs
  · cases b
    · obtain ⟨-, rfl⟩ := step_ok_false hs
      exact ⟨h, .refl _⟩
    · exact (transition_of_step hs).wellEmitted h

/-- Every run keeps the invariant, however it ends. -/
theorem wellEmitted_runSteps (cfg : Config α) (h : WellEmitted st) (fuel : Nat) :
    WellEmitted (runSteps cfg fuel st).2 ∧ Grows st (runSteps cfg fuel st).2 := by
  induction fuel generalizing st with
  | zero =>
    unfold runSteps
    split <;> exact ⟨h, .refl _⟩
  | succ fuel ih =>
    unfold runSteps
    rcases hs : (step cfg).run st with ⟨_ | _ | _, st'⟩
    · exact wellEmitted_step h hs
    · exact wellEmitted_step h hs
    · exact WellEmitted.chain (wellEmitted_step h hs) ih

theorem wellEmitted_initial (cfg : Config α) (tokens : List Token) :
    WellEmitted (initial cfg tokens) where
  temps := rfl
  code := by
    unfold CodeWellFormed
    intro i ins h
    simp [initial] at h
  keeps := by
    rintro p ⟨i, r, v, hr, ha⟩
    have hmem := Array.mem_of_getElem? hr
    simp only [initial, List.mem_toArray, List.mem_singleton] at hmem
    subst hmem
    cases ha
  held := fun _ h => by cases h

end Steps

section Translation

/-- A translation reports the code, the temporaries and the cursor of the state its run of
steps ends in. -/
theorem translate_final (cfg : Config α) (tokens : List Token) (limit : Option Nat) (abort : Bool) :
    ∃ fuel, (translate cfg tokens limit abort).code =
        (runSteps cfg fuel (initial cfg tokens)).2.code.toList ∧
      (translate cfg tokens limit abort).temporaries = (runSteps cfg fuel (initial cfg tokens)).2.temps ∧
      (translate cfg tokens limit abort).cursor = (runSteps cfg fuel (initial cfg tokens)).2.cursor := by
  obtain ⟨fuel, hf⟩ := translate_some_fuel cfg tokens limit abort
  rw [hf]
  rcases hr : runSteps cfg fuel (initial cfg tokens) with ⟨halt, st⟩
  exact ⟨fuel, by simp [translate, hr], by simp [translate, hr], by simp [translate, hr]⟩

/-- **Translated code is well formed.** With every table and every limit, whether the
translation succeeds or fails, its temporaries count its instructions, and instruction `i`
writes `T<i>` with an arithmetic operator and reads the identity of a sum or of a product, the
name of a consumed number or identifier, or an earlier temporary. -/
theorem translate_wellEmitted (cfg : Config α) (tokens : List Token) (limit : Option Nat)
    (abort : Bool) :
    (translate cfg tokens limit abort).temporaries = (translate cfg tokens limit abort).code.length ∧
      CodeWellFormed (terminated tokens) (translate cfg tokens limit abort).cursor
        (translate cfg tokens limit abort).code := by
  obtain ⟨fuel, hcode, htemps, hcursor⟩ := translate_final cfg tokens limit abort
  obtain ⟨h, hg⟩ := wellEmitted_runSteps cfg (wellEmitted_initial cfg tokens) fuel
  rw [hcode, htemps, hcursor, h.temps, Array.length_toList]
  refine ⟨rfl, ?_⟩
  have htok : (runSteps cfg fuel (initial cfg tokens)).2.tokens.toList = terminated tokens := by
    rw [hg.tokens]
    simp [initial]
  rw [← htok]
  exact h.code

end Translation

end ExprTranslate
