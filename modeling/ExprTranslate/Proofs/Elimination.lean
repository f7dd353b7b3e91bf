import ExprTranslate.Proofs.CorrectPrefix
import ExprTranslate.Proofs.Transition
import ExprTranslate.Proofs.Evaluation
import Mathlib.Logic.Function.Basic
/-!
# Identity elimination is a renaming pass

With identity elimination on, the translator drops every join of a place with the identity,
`+ x 0` or `* x 1`, and uses `x` in its stead. This module shows that the optimised code is what
one pass over the unoptimised code makes of it:

* `eliminate`: the pass. It renames places as it goes; a join whose renamed right operand is
  the identity is dropped and its destination renamed to its renamed left operand, and every
  other instruction is kept, renamed, with the next temporary as destination;
* `gen_eliminate`: the pass takes the unoptimised code of every tree to its optimised code, and
  the unoptimised place to the optimised one, as long as no name of the tree looks like a
  temporary;
* `translate_accepts`: an input that starts with an expression and an end marker is translated,
  in two steps a node and one a token;
* `optimized_code_renames`: the two translations of such an input.

A name of the input that looks like a temporary is renamed by the pass as well, so the proviso
is needed: `renames_named_temporary`.
-/

namespace ExprTranslate

variable {α : Type}

/-! ### The pass -/

/-- Whether `op` joins with the identity `r` as right operand: `+ _ 0` or `* _ 1`. -/
def joinsIdentity (op : Char) (r : String) : Bool :=
  (op == '+' && r == additiveIdentity) || (op == '*' && r == multiplicativeIdentity)

/-- Identity elimination as a pass over code, with the renaming `σ` of places and `k`
instructions kept so far. A join whose renamed right operand is its identity is dropped, its
destination renamed to its renamed left operand; any other instruction is kept with its
operands renamed and the next temporary as destination, to which its destination is renamed. -/
def eliminate (σ : String → String) (k : Nat) : List Instr → (String → String) × List Instr
  | [] => (σ, [])
  | i :: code =>
    if joinsIdentity i.op (σ i.right) then
      eliminate (Function.update σ i.dest (σ i.left)) k code
    else
      let r := eliminate (Function.update σ i.dest (temporary (k + 1))) (k + 1) code
      (r.1, ⟨i.op, σ i.left, σ i.right, temporary (k + 1)⟩ :: r.2)

section Pass

variable {σ : String → String} {k : Nat} {i : Instr} {code : List Instr}

@[simp] theorem eliminate_nil : eliminate σ k [] = (σ, []) := rfl

theorem eliminate_drop (h : joinsIdentity i.op (σ i.right) = true) :
    eliminate σ k (i :: code) = eliminate (Function.update σ i.dest (σ i.left)) k code := by
  simp [eliminate, h]

theorem eliminate_keep (h : joinsIdentity i.op (σ i.right) = false) :
    eliminate σ k (i :: code) =
      ((eliminate (Function.update σ i.dest (temporary (k + 1))) (k + 1) code).1,
        ⟨i.op, σ i.left, σ i.right, temporary (k + 1)⟩ ::
          (eliminate (Function.update σ i.dest (temporary (k + 1))) (k + 1) code).2) := by
  simp [eliminate, h]

/-- The pass goes on over the second part of the code where it stopped after the first. -/
theorem eliminate_append (a b : List Instr) :
    eliminate σ k (a ++ b) =
      ((eliminate (eliminate σ k a).1 (k + (eliminate σ k a).2.length) b).1,
        (eliminate σ k a).2 ++ (eliminate (eliminate σ k a).1 (k + (eliminate σ k a).2.length) b).2) := by
  induction a generalizing σ k with
  | nil => simp
  | cons i a ih =>
    by_cases h : joinsIdentity i.op (σ i.right) = true
    · rw [List.cons_append, eliminate_drop h, eliminate_drop h, ih]
    · rw [Bool.not_eq_true] at h
      rw [List.cons_append, eliminate_keep h, eliminate_keep h, ih]
      simp [Nat.add_assoc, Nat.add_comm 1]

/-- A place no instruction defines keeps its name. -/
theorem eliminate_apply {x : String} (hx : ∀ i ∈ code, i.dest ≠ x) :
    (eliminate σ k code).1 x = σ x := by
  induction code generalizing σ k with
  | nil => rfl
  | cons i code ih =>
    have hne : x ≠ i.dest := (hx i (by simp)).symm
    have hrest : ∀ j ∈ code, j.dest ≠ x := fun j hj => hx j (by simp [hj])
    by_cases h : joinsIdentity i.op (σ i.right) = true
    · rw [eliminate_drop h, ih hrest, Function.update_of_ne hne]
    · rw [Bool.not_eq_true] at h
      rw [eliminate_keep h, ih hrest, Function.update_of_ne hne]

/-- The pass never makes code longer. -/
theorem length_eliminate_le : (eliminate σ k code).2.length ≤ code.length := by
  induction code generalizing σ k with
  | nil => simp
  | cons i code ih =>
    by_cases h : joinsIdentity i.op (σ i.right) = true
    · rw [eliminate_drop h]
      exact Nat.le_succ_of_le ih
    · rw [Bool.not_eq_true] at h
      rw [eliminate_keep h, List.length_cons, List.length_cons]
      exact Nat.succ_le_succ ih

/-- The pass leaves no join with the identity. -/
theorem eliminate_joinsIdentity : ∀ j ∈ (eliminate σ k code).2, joinsIdentity j.op j.right = false := by
  induction code generalizing σ k with
  | nil => simp
  | cons i code ih =>
    by_cases h : joinsIdentity i.op (σ i.right) = true
    · rw [eliminate_drop h]
      exact ih
    · rw [Bool.not_eq_true] at h
      rw [eliminate_keep h]
      intro j hj
      rcases List.mem_cons.mp hj with rfl | hj
      · exact h
      · exact ih j hj

end Pass

/-! ### The shape of emitted code -/

/-- A place that is no temporary or one of the first `n`. -/
def Available (n : Nat) (p : String) : Prop :=
  isTemporary p = false ∨ ∃ j, 0 < j ∧ j ≤ n ∧ p = temporary j

theorem Available.mono {m n : Nat} {p : String} (h : Available m p) (hle : m ≤ n) : Available n p := by
  rcases h with h | ⟨j, hj, hjm, rfl⟩
  · exact .inl h
  · exact .inr ⟨j, hj, by omega, rfl⟩

theorem available_temporary (n : Nat) : Available (n + 1) (temporary (n + 1)) :=
  .inr ⟨n + 1, by omega, by omega, rfl⟩

/-- A later temporary is not a place below `n`. -/
theorem Available.ne_temporary {n j : Nat} {p : String} (h : Available n p) (hj : n < j) :
    temporary j ≠ p := by
  rintro rfl
  rcases h with h | ⟨j', -, hj', he⟩
  · rw [isTemporary_temporary (by omega)] at h
    cases h
  · have := temporary_injective he
    omega

/-- Code emitted after `n` temporaries: each instruction defines a later temporary, and the
place is below the temporaries defined by then. -/
structure Emitted (n : Nat) (g : String × List Instr) : Prop where
  dests : ∀ i ∈ g.2, ∃ j, n < j ∧ i.dest = temporary j
  place : Available (n + g.2.length) g.1

theorem Emitted.leaf {n : Nat} {p : String} (h : isTemporary p = false) : Emitted n (p, []) :=
  ⟨by simp, .inl h⟩

/-- Code emitted after code of its own keeps its shape behind it. -/
theorem Emitted.append {n : Nat} {p : String} {c₁ c₂ : List Instr}
    (h₁ : ∀ i ∈ c₁, ∃ j, n < j ∧ i.dest = temporary j) (h₂ : Emitted (n + c₁.length) (p, c₂)) :
    Emitted n (p, c₁ ++ c₂) := by
  refine ⟨fun i hi => ?_, ?_⟩
  · rcases List.mem_append.mp hi with hi | hi
    · exact h₁ i hi
    · obtain ⟨j, hj, he⟩ := h₂.dests i hi
      exact ⟨j, by omega, he⟩
  · simpa [Nat.add_assoc] using h₂.place

/-- No instruction of code emitted after `n` temporaries defines a place below `n`. -/
theorem Emitted.dest_ne {n : Nat} {g : String × List Instr} {p : String} (he : Emitted n g)
    (hp : Available n p) : ∀ i ∈ g.2, i.dest ≠ p := by
  intro i hi
  obtain ⟨j, hj, hd⟩ := he.dests i hi
  rw [hd]
  exact hp.ne_temporary hj

theorem Emitted.isTemporary_dest {n : Nat} {g : String × List Instr} (he : Emitted n g) :
    ∀ i ∈ g.2, isTemporary i.dest = true := by
  intro i hi
  obtain ⟨j, hj, hd⟩ := he.dests i hi
  rw [hd, isTemporary_temporary (by omega)]

/-- The code of a combination defines the next temporaries, and its place is the last of them,
or the first operand when identity elimination drops the join of a kept operand. -/
theorem Combine.code_emitted (c : Combine) (opt : Bool) (op : Symbol) {fp rp : String} {n : Nat}
    (hf : Available n fp) : Emitted n (c.code opt op fp rp n) := by
  unfold Combine.code
  have h₁ : ∃ j, n < j ∧ temporary (n + 1) = temporary j := ⟨n + 1, by omega, rfl⟩
  have h₂ : ∃ j, n < j ∧ temporary (n + 1 + 1) = temporary j := ⟨n + 1 + 1, by omega, rfl⟩
  split_ifs
  · exact ⟨by simp [h₁, h₂], by simpa [Nat.add_assoc] using available_temporary (n + 1)⟩
  · exact ⟨by simp [h₁], by simpa using available_temporary n⟩
  · exact ⟨by simp [h₁], by simpa using available_temporary n⟩
  · exact ⟨by simp, by simpa using hf⟩

/-- The code of `op first ∘ rest` has the shape of emitted code when its parts have. -/
theorem Combine.emit_emitted (c : Combine) (opt : Bool) (op : Symbol) {n : Nat}
    {first : String × List Instr} {rest : Nat → String × List Instr} (hf : Emitted n first)
    (hr : ∀ n', Emitted n' (rest n')) : Emitted n (c.emit opt op n first rest) := by
  rw [Combine.emit_eq]
  refine Emitted.append hf.dests (Emitted.append (hr _).dests ?_)
  exact c.code_emitted opt op (hf.place.mono (by omega))

namespace Tree

variable {k : Kind}

/-- The names of a tree's numbers and identifiers are no temporaries. -/
def NamesPlain (t : Tree k) : Prop :=
  ∀ tok ∈ t.tokens, tok.symbol = .number ∨ tok.symbol = .identifier → isTemporary tok.lexeme = false

/-- **The code of a tree has the shape of emitted code**, if no name of the tree looks like a
temporary. -/
theorem gen_emitted (t : Tree k) (ht : t.NamesPlain) (opt : Bool) (n : Nat) :
    Emitted n (t.gen opt n) := by
  induction t generalizing n with
  | exprRule s t h _ iht ihh | exprTailMore s t h _ iht ihh =>
    simp only [NamesPlain, tokens, List.forall_mem_append] at ht
    exact Combine.sum.emit_emitted opt s.op (iht ht.1.2 n) fun n' => ihh ht.2 n'
  | termRule f h ihf ihh =>
    simp only [NamesPlain, tokens, List.forall_mem_append] at ht
    exact Combine.product.emit_emitted opt .times (ihf ht.1 n) fun n' => ihh ht.2 n'
  | termTailMore m f h _ ihf ihh =>
    simp only [NamesPlain, tokens, List.forall_mem_append] at ht
    exact Combine.product.emit_emitted opt m.op (ihf ht.1.2 n) fun n' => ihh ht.2 n'
  | factorNumber tok hs | factorIdentifier tok hs =>
    exact .leaf (ht tok (by simp [tokens]) (by simp [hs]))
  | factorParens _ _ e _ _ ih =>
    exact ih (fun tok h => ht tok (by simp [tokens, h])) n
  | exprTailEnd => exact .leaf (by decide)
  | termTailEnd => exact .leaf (by decide)
  | signAddOp | signNone | addOpPlus | addOpMinus | mulOpTimes | mulOpSlash => exact .leaf (by decide)

end Tree

/-! ### The pass simulates identity elimination -/

/-- A renaming of temporaries only: every other name is kept. -/
def OnTemporaries (σ : String → String) : Prop := ∀ x, isTemporary x = false → σ x = x

/-- From `σ`, with `k` instructions kept before, the pass takes the code of `u` to the code of
`o`, and its renaming takes the place of `u` to the place of `o`. -/
def Renames (σ : String → String) (k : Nat) (u o : String × List Instr) : Prop :=
  (eliminate σ k u.2).2 = o.2 ∧ (eliminate σ k u.2).1 u.1 = o.1

/-- Code that defines temporaries only keeps a renaming of temporaries one. -/
theorem onTemporaries_eliminate {σ : String → String} {k : Nat} {code : List Instr}
    (hσ : OnTemporaries σ) (hd : ∀ i ∈ code, isTemporary i.dest = true) :
    OnTemporaries (eliminate σ k code).1 := by
  intro x hx
  have hne : ∀ i ∈ code, i.dest ≠ x := fun i hi he => by
    rw [← he, hd i hi] at hx
    cases hx
  rw [eliminate_apply hne, hσ x hx]

section Combining

variable {c : Combine} (hc : c = .sum ∨ c = .product)
include hc

-- Sums join by `+` with `0` and products by `*` with `1`; their inversions are no joins.
theorem Combine.joinsIdentity_combine (x : String) : joinsIdentity c.combine x = (x == c.identity) := by
  rcases hc with rfl | rfl <;> simp [joinsIdentity, Combine.sum, Combine.product]

theorem Combine.joinsIdentity_invert (x : String) : joinsIdentity c.invert x = false := by
  rcases hc with rfl | rfl <;> simp [joinsIdentity, Combine.sum, Combine.product]

theorem Combine.isTemporary_identity : isTemporary c.identity = false := by
  rcases hc with rfl | rfl <;> decide

theorem Combine.code_eliminate (op : Symbol) {σ : String → String} (hσ : OnTemporaries σ)
    (fp : String) {rp : String} {n : Nat} (m : Nat) (hr : temporary (n + 1) ≠ rp) :
    Renames σ m (c.code false op fp rp n) (c.code true op (σ fp) (σ rp) m) := by
  have hid : σ c.identity = c.identity := hσ _ (c.isTemporary_identity hc)
  unfold Renames Combine.code
  -- the pass keeps an inversion, and drops the join exactly when the renamed rest is the identity
  by_cases hop : op = c.inverse <;> by_cases hj : σ rp = c.identity <;>
    simp [hop, hj, eliminate, c.joinsIdentity_combine hc, c.joinsIdentity_invert hc, hid, hr.symm]

/-- **One combination.** If the pass takes the code of each operand to its optimised code, from
every renaming of temporaries, it takes the code of their combination to its optimised code. -/
theorem Combine.emit_eliminate (op : Symbol) {n m : Nat} {σ : String → String}
    (hσ : OnTemporaries σ) {first first' : String × List Instr}
    {rest rest' : Nat → String × List Instr} (hef : Emitted n first)
    (her : ∀ n', Emitted n' (rest n')) (hf : ∀ σ, OnTemporaries σ → Renames σ m first first')
    (hr : ∀ n' m' σ, OnTemporaries σ → Renames σ m' (rest n') (rest' m')) :
    Renames σ m (c.emit false op n first rest) (c.emit true op m first' rest') := by
  rw [Combine.emit_eq, Combine.emit_eq]
  -- the first operand, from `σ`
  obtain ⟨hf₂, hf₁⟩ := hf σ hσ
  have hσ₁ := onTemporaries_eliminate (k := m) hσ hef.isTemporary_dest
  -- the rest, from where the first operand left the pass
  have her₁ := her (n + first.2.length)
  obtain ⟨hr₂, hr₁⟩ := hr (n + first.2.length) (m + first'.2.length) _ hσ₁
  have hσ₂ := onTemporaries_eliminate (k := m + first'.2.length) hσ₁ her₁.isTemporary_dest
  -- the rest's code defines none of the first operand's places
  have hfirst : (eliminate (eliminate σ m first.2).1 (m + first'.2.length)
      (rest (n + first.2.length)).2).1 first.1 = first'.1 := by
    rw [eliminate_apply (her₁.dest_ne hef.place), hf₁]
  have hrp : temporary (n + first.2.length + (rest (n + first.2.length)).2.length + 1) ≠
      (rest (n + first.2.length)).1 := her₁.place.ne_temporary (by omega)
  obtain ⟨hc₂, hc₁⟩ := c.code_eliminate hc op hσ₂ first.1
    (m + first'.2.length + (rest' (m + first'.2.length)).2.length) hrp
  refine ⟨?_, ?_⟩
  · rw [eliminate_append, hf₂, eliminate_append, hr₂, hc₂, hfirst, hr₁]
  · rw [eliminate_append, hf₂, eliminate_append, hr₂]
    exact hc₁.trans (by rw [hfirst, hr₁])

end Combining

namespace Tree

variable {k : Kind}

/-- **The pass takes the code of a tree to its optimised code**, and the place of the one to the
place of the other, from every renaming of temporaries and after any numbers of temporaries,
if no name of the tree looks like a temporary. -/
theorem gen_eliminate (t : Tree k) (ht : t.NamesPlain) (n m : Nat) (σ : String → String)
    (hσ : OnTemporaries σ) : Renames σ m (t.gen false n) (t.gen true m) := by
  induction t generalizing n m σ with
  | exprRule s t h _ iht ihh | exprTailMore s t h _ iht ihh =>
    simp only [NamesPlain, tokens, List.forall_mem_append] at ht
    exact Combine.sum.emit_eliminate (.inl rfl) s.op hσ (t.gen_emitted ht.1.2 false n)
      (fun n' => h.gen_emitted ht.2 false n') (iht ht.1.2 n m) (ihh ht.2)
  | termRule f h ihf ihh =>
    simp only [NamesPlain, tokens, List.forall_mem_append] at ht
    exact Combine.product.emit_eliminate (.inr rfl) .times hσ (f.gen_emitted ht.1 false n)
      (fun n' => h.gen_emitted ht.2 false n') (ihf ht.1 n m) (ihh ht.2)
  | termTailMore o f h _ ihf ihh =>
    simp only [NamesPlain, tokens, List.forall_mem_append] at ht
    exact Combine.product.emit_eliminate (.inr rfl) o.op hσ (f.gen_emitted ht.1.2 false n)
      (fun n' => h.gen_emitted ht.2 false n') (ihf ht.1.2 n m) (ihh ht.2)
  | factorNumber tok hs | factorIdentifier tok hs =>
    exact ⟨rfl, hσ _ (ht tok (by simp [tokens]) (by simp [hs]))⟩
  | factorParens _ _ e _ _ ih => exact ih (fun tok h => ht tok (by simp [tokens, h])) n m σ hσ
  | exprTailEnd | termTailEnd | signAddOp | signNone | addOpPlus | addOpMinus | mulOpTimes
  | mulOpSlash => exact ⟨rfl, hσ _ (by simp only [gen]; decide)⟩

end Tree

/-! ### Accepted inputs -/

/-- Up to one past the end of `l₁`, what follows `b` does not matter. -/
theorem take_append_cons_of_le {β : Type} {l₁ l₂ : List β} {b : β} {k : Nat}
    (hk : k ≤ l₁.length + 1) : (l₁ ++ b :: l₂).take k = (l₁ ++ [b]).take k := by
  rw [List.take_append, List.take_append]
  congr 1
  obtain h | h : k - l₁.length = 0 ∨ k - l₁.length = 1 := by omega
  all_goals rw [h]; rfl

section Accepted

variable {cfg : Config α} (hT : cfg.table = expressionTable) {tokens : List Token} {abort : Bool}
include hT

/-- A run on an input that starts with an expression, with readable numbers, and an end marker
never gets stuck: what it consumed and its lookahead start that expression and end marker, and
the lookahead is the end marker or a readable token of the expression. -/
theorem not_stuck_of_split {t : Tree .expr} {eoi : Token} {more : List Token}
    (hsplit : terminated tokens = t.tokens ++ eoi :: more) (heoi : eoi.symbol = .endOfInput)
    (hread : Readable cfg t.tokens) {n : Nat} {st : State α} {e : TranslateError}
    (h : Steps cfg n (initial cfg tokens) st) (hs : Stuck cfg st e) : False := by
  have hp := h.prefixed hT (prefixed_initial hT _)
  have hin : st.tokens.toList = t.tokens ++ eoi :: more := by
    rw [h.tokens, ← hsplit]
    simp [initial]
  have hlt := hp.cursor_lt hs.syms_ne_nil
  -- the end marker is not consumed while the stack holds something
  have hcur : st.cursor ≤ t.tokens.length := by
    refine Nat.le_of_not_lt fun hgt => hp.endOfInput_not_mem hs.syms_ne_nil ?_
    rw [consumed_eq_take, hin]
    refine List.mem_of_getElem? (i := t.tokens.length) ?_
    simp [hgt, heoi]
  have hat : (t.tokens ++ eoi :: more)[st.cursor]? = some st.lookahead := by
    rw [← hin, Array.getElem?_toList]
    exact getElem?_cursor hlt
  rcases hs.syntaxError_or_refused with ⟨info, rfl, -, -⟩ | ⟨rest, err, -, hla, he, -⟩
  · -- every start of the expression and the end marker is viable
    apply hp.not_viable hT hs
    rw [← consumed_succ hlt, hin, List.map_append, List.map_cons,
      take_append_cons_of_le (by simpa using hcur)]
    exact Complete.viable_take ⟨t, by simp [Tree.symbols, heoi]⟩ _
  · rcases Nat.lt_or_eq_of_le hcur with hlt' | heq
    · -- a number of the expression, which the arithmetic reads
      rw [List.getElem?_append_left hlt'] at hat
      obtain ⟨v, hv⟩ := hread _ (List.mem_of_getElem? hat) hla
      rw [hv] at he
      cases he
    · -- the end marker, which is no number
      rw [heq, List.getElem?_append_right (Nat.le_refl _), Nat.sub_self, List.getElem?_cons_zero,
        Option.some.injEq] at hat
      rw [← hat, heoi] at hla
      cases hla

/-- **An input that starts with an expression and an end marker is translated**, to the value,
place and code of the expression's tree, in two steps a node of the tree and one a token, the
end marker's included. -/
theorem translate_accepts {t : Tree .expr} {eoi : Token} {more : List Token}
    (hsplit : terminated tokens = t.tokens ++ eoi :: more) (heoi : eoi.symbol = .endOfInput)
    (hread : Readable cfg t.tokens) :
    (translate cfg tokens none abort).ending =
        .success (t.value cfg.arith cfg.bindings) (t.gen cfg.optimize 0).1 ∧
      (translate cfg tokens none abort).code = (t.gen cfg.optimize 0).2 ∧
      (translate cfg tokens none abort).steps = 2 * t.nodes + t.tokens.length + 1 := by
  rcases parse_outcome hT with ⟨t', st, more', h, hf, hla, hinput⟩ | ⟨n, st, e, h, hs, -⟩
  · obtain rfl := Tree.eq_of_terminated (hinput.symm.trans hsplit) hla heoi
    obtain ⟨hend, hcode, -⟩ := translate_success hT h hf hla
    obtain ⟨hsteps, hrun⟩ := runSteps_of_finished hT h hf hla
    refine ⟨hend, hcode, ?_⟩
    simp only [translate, hrun]
    rw [hsteps.steps_eq]
    simp [initial]
  · exact (not_stuck_of_split hT hsplit heoi hread h hs).elim

end Accepted

/-! ### The two translations -/

/-- **Identity elimination is a renaming pass.** With the expression table, translate an input
none of whose numbers and identifiers is named like a temporary. If the translation without
identity elimination succeeds, the one with it succeeds with the same value and the same number
of steps, and its code and place are what the pass makes of the other's: a renaming of the
unoptimised code that drops its joins with the identity. So it is never longer and has no join
with the identity left. -/
theorem optimized_code_renames (cfg : Config α) (hT : cfg.table = expressionTable)
    (tokens : List Token) (hnames : ∀ tok ∈ tokens, tok.symbol = .number ∨
      tok.symbol = .identifier → isTemporary tok.lexeme = false) (abort : Bool)
    (hacc : ∃ v p, (translate { cfg with optimize := false } tokens none abort).ending =
      .success v p) :
    ∃ v p, (translate { cfg with optimize := false } tokens none abort).ending = .success v p ∧
      (translate { cfg with optimize := true } tokens none abort).ending =
        .success v ((eliminate id 0 (translate { cfg with optimize := false } tokens none abort).code).1 p) ∧
      (translate { cfg with optimize := true } tokens none abort).code =
        (eliminate id 0 (translate { cfg with optimize := false } tokens none abort).code).2 ∧
      (translate { cfg with optimize := true } tokens none abort).steps =
        (translate { cfg with optimize := false } tokens none abort).steps ∧
      (translate { cfg with optimize := true } tokens none abort).code.length ≤
        (translate { cfg with optimize := false } tokens none abort).code.length ∧
      ∀ i ∈ (translate { cfg with optimize := true } tokens none abort).code,
        joinsIdentity i.op i.right = false := by
  obtain ⟨v, p, hend⟩ := hacc
  -- the unoptimised translation succeeded, so a tree spells the input up to an end marker
  obtain ⟨t, eoi, more, hsplit, heoi, hread, -⟩ :=
    (@translate_outcome α { cfg with optimize := false } hT tokens abort).resolve_right
      fun ⟨_, _, _, _, _, hfail⟩ => by
        rw [hend] at hfail
        cases hfail
  -- and both translations are those of that tree
  obtain ⟨hend₀, hcode₀, hsteps₀⟩ :=
    @translate_accepts α { cfg with optimize := false } hT tokens abort t eoi more hsplit heoi hread
  obtain ⟨hend₁, hcode₁, hsteps₁⟩ :=
    @translate_accepts α { cfg with optimize := true } hT tokens abort t eoi more hsplit heoi hread
  have ht : t.NamesPlain := fun tok htok hs => by
    have hmem : tok ∈ terminated tokens := by
      rw [hsplit]
      exact List.mem_append_left _ htok
    rcases mem_terminated hmem with h | h
    · exact hnames tok h hs
    · exact absurd h (Tree.endOfInput_not_mem t htok)
  obtain ⟨hsim₂, hsim₁⟩ := t.gen_eliminate ht 0 0 id fun _ _ => rfl
  refine ⟨v, p, hend, ?_, ?_, ?_, ?_, ?_⟩
  · rw [hend₀, Ending.success.injEq] at hend
    rw [hend₁, hcode₀, ← hend.2, hsim₁, ← hend.1]
  · rw [hcode₁, hcode₀, hsim₂]
  · rw [hsteps₁, hsteps₀]
  · rw [hcode₁, hcode₀, ← hsim₂]
    exact length_eliminate_le
  · rw [hcode₁, ← hsim₂]
    exact eliminate_joinsIdentity

/-- Double arithmetic with the expression table, for `x * y`. -/
theorem float_optimized_code_renames :
    let cfg : Config Float := ⟨Arith.float, expressionTable, true, [], false⟩
    let tokens : List Token := [⟨"x", .identifier, 1⟩, ⟨"*", .times, 1⟩, ⟨"y", .identifier, 1⟩]
    cfg.table = expressionTable ∧
    (∀ tok ∈ tokens, tok.symbol = .number ∨ tok.symbol = .identifier →
      isTemporary tok.lexeme = false) ∧
    (∃ v p, (translate { cfg with optimize := false } tokens none false).ending = .success v p) ∧
    ∃ v p, (translate { cfg with optimize := false } tokens none false).ending = .success v p ∧
      (translate { cfg with optimize := true } tokens none false).ending =
        .success v ((eliminate id 0 (translate { cfg with optimize := false } tokens none false).code).1 p) ∧
      (translate { cfg with optimize := true } tokens none false).code =
        (eliminate id 0 (translate { cfg with optimize := false } tokens none false).code).2 ∧
      (translate { cfg with optimize := true } tokens none false).steps =
        (translate { cfg with optimize := false } tokens none false).steps ∧
      (translate { cfg with optimize := true } tokens none false).code.length ≤
        (translate { cfg with optimize := false } tokens none false).code.length ∧
      ∀ i ∈ (translate { cfg with optimize := true } tokens none false).code,
        joinsIdentity i.op i.right = false := by
  intro cfg tokens
  have hT : cfg.table = expressionTable := by simp [cfg]
  have hnames : ∀ tok ∈ tokens, tok.symbol = .number ∨ tok.symbol = .identifier →
      isTemporary tok.lexeme = false := by decide
  let t : Tree .expr := .exprRule .signNone (.termRule (.factorIdentifier ⟨"x", .identifier, 1⟩ rfl)
    (.termTailMore (.mulOpTimes ⟨"*", .times, 1⟩ rfl) (.factorIdentifier ⟨"y", .identifier, 1⟩ rfl)
      .termTailEnd)) .exprTailEnd
  have hread : Readable { cfg with optimize := false } t.tokens := by
    intro tok htok hs
    simp [t, Tree.tokens] at htok
    rcases htok with rfl | rfl | rfl <;> cases hs
  have hT₀ : ({ cfg with optimize := false } : Config Float).table = expressionTable := by simp [cfg]
  have hacc := (@translate_accepts Float { cfg with optimize := false } hT₀ tokens false t _ []
    rfl rfl hread).1
  exact ⟨hT, hnames, ⟨_, _, hacc⟩, optimized_code_renames cfg hT tokens hnames false ⟨_, _, hacc⟩⟩

/-- **A name that looks like a temporary is renamed too.** For `T1 * x`, the code without
identity elimination computes `x * 1` into `T1` and then `T1 * T1`, its `T1` the identifier,
which the pass renames to `x`; the code with identity elimination multiplies the identifier. -/
theorem renames_named_temporary :
    let cfg : Config Float := ⟨Arith.float, expressionTable, true, [], false⟩
    let tokens : List Token := [⟨"T1", .identifier, 1⟩, ⟨"*", .times, 1⟩, ⟨"x", .identifier, 1⟩]
    (∃ v p, (translate { cfg with optimize := false } tokens none false).ending = .success v p) ∧
      (translate { cfg with optimize := true } tokens none false).code = [⟨'*', "T1", "x", "T1"⟩] ∧
      (eliminate id 0 (translate { cfg with optimize := false } tokens none false).code).2 =
        [⟨'*', "x", "x", "T1"⟩] := by
  intro cfg tokens
  let t : Tree .expr := .exprRule .signNone (.termRule (.factorIdentifier ⟨"T1", .identifier, 1⟩ rfl)
    (.termTailMore (.mulOpTimes ⟨"*", .times, 1⟩ rfl) (.factorIdentifier ⟨"x", .identifier, 1⟩ rfl)
      .termTailEnd)) .exprTailEnd
  -- no number to read
  have hread : ∀ c : Config Float, Readable c t.tokens := by
    intro c tok htok hs
    simp [t, Tree.tokens] at htok
    rcases htok with rfl | rfl | rfl <;> cases hs
  have hT₀ : ({ cfg with optimize := false } : Config Float).table = expressionTable := by simp [cfg]
  have hT₁ : ({ cfg with optimize := true } : Config Float).table = expressionTable := by simp [cfg]
  obtain ⟨hend₀, hcode₀, -⟩ :=
    @translate_accepts Float { cfg with optimize := false } hT₀ tokens false t _ [] rfl rfl (hread _)
  obtain ⟨-, hcode₁, -⟩ :=
    @translate_accepts Float { cfg with optimize := true } hT₁ tokens false t _ [] rfl rfl (hread _)
  refine ⟨⟨_, _, hend₀⟩, ?_, ?_⟩
  · rw [hcode₁]
    decide
  · rw [hcode₀]
    decide

end ExprTranslate
