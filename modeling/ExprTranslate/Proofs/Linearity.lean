import ExprTranslate.Proofs.Emission
import ExprTranslate.Proofs.Elimination
/-!
# Every temporary is read once

The code of an accepted expression has no dead instruction: every temporary but the last is read
by exactly one instruction, the place of the result is the last temporary, or a name of the
input when there is no code, and the machine runs the code without a fault under any bindings.

* `readers code p`: how many instructions of `code` read the place `p`;
* `Linear n g`: the code of `g`, emitted after `n` temporaries, reads each of its temporaries
  once but the last, which is its place, and no other temporary; `Tree.gen_linear`: the code of
  every tree whose names are no temporaries is linear;
* `Tree.gen_place_name`: the code of an expression, term or factor without instructions leaves
  its value at the name of one of its numbers or identifiers;
* `Memory.runFrom_wellFormed`: well-formed code runs without a fault when its names are no
  temporaries and the arithmetic reads its numerals.
-/

namespace ExprTranslate

variable {α : Type}

/-! ### Readers of a place -/

/-- The number of instructions of `code` that read the place `p`. -/
def readers (code : List Instr) (p : String) : Nat :=
  code.countP fun ins => ins.left == p || ins.right == p

@[simp] theorem readers_nil (p : String) : readers [] p = 0 := rfl

@[simp] theorem readers_append (a b : List Instr) (p : String) :
    readers (a ++ b) p = readers a p + readers b p :=
  List.countP_append

@[simp] theorem readers_cons (ins : Instr) (code : List Instr) (p : String) :
    readers (ins :: code) p = (if ins.left = p ∨ ins.right = p then 1 else 0) + readers code p := by
  simp [readers, List.countP_cons, Nat.add_comm]

@[simp] theorem temporary_inj {m n : Nat} : temporary m = temporary n ↔ m = n :=
  ⟨temporary_injective, congrArg temporary⟩

theorem ne_temporary_of_isTemporary {p : String} (hp : isTemporary p = false) {j : Nat}
    (hj : 0 < j) : p ≠ temporary j := by
  rintro rfl
  rw [isTemporary_temporary hj] at hp
  cases hp

/-! ### Linear code -/

/-- The code of `g`, emitted after `n` temporaries, reads each of its temporaries once but the
last, which is its place, and reads no other temporary; without code its place is no
temporary. -/
structure Linear (n : Nat) (g : String × List Instr) : Prop where
  place : ∀ j, 0 < j → (g.1 = temporary j ↔ 0 < g.2.length ∧ j = n + g.2.length)
  reads : ∀ j, 0 < j → readers g.2 (temporary j) = if n < j ∧ j < n + g.2.length then 1 else 0

theorem Linear.leaf {n : Nat} {p : String} (hp : isTemporary p = false) : Linear n (p, []) where
  place j hj :=
    ⟨fun h => absurd h (ne_temporary_of_isTemporary hp hj), fun h => absurd h.1 (Nat.lt_irrefl 0)⟩
  reads j _ := by
    simp only [readers_nil, List.length_nil, Nat.add_zero]
    rw [if_neg (by omega)]

section Combining

variable {c : Combine} (hc : c = .sum ∨ c = .product)
include hc

theorem Combine.identity_ne_temporary {j : Nat} (hj : 0 < j) : c.identity ≠ temporary j :=
  ne_temporary_of_isTemporary (c.isTemporary_identity hc) hj

/-- **A combination of linear code is linear.** The code of the first operand, then of the
rest, then of the combination, which reads the places of both. When identity elimination drops
the join, the rest is the identity, so it has no code. -/
theorem Combine.emit_linear (opt : Bool) (op : Symbol) {n : Nat} {first : String × List Instr}
    {rest : Nat → String × List Instr} (hf : Linear n first)
    (hr : Linear (n + first.2.length) (rest (n + first.2.length))) :
    Linear n (c.emit opt op n first rest) := by
  rw [Combine.emit_eq]
  obtain ⟨fp, a⟩ := first
  dsimp only at hf hr ⊢
  generalize rest (n + a.length) = r at hr ⊢
  obtain ⟨rp, b⟩ := r
  dsimp only at hr ⊢
  have hid : ∀ j, 0 < j → c.identity ≠ temporary j := fun j hj => c.identity_ne_temporary hc hj
  -- a rest with code has a temporary for its place, which is no identity, so a dropped join
  -- drops a rest without code
  have hdrop : ¬(!opt || rp != c.identity) = true → b.length = 0 := by
    intro hjoin
    have h : rp = c.identity := by simp at hjoin; exact hjoin.2
    rcases Nat.eq_zero_or_pos b.length with hb | hb
    · exact hb
    · have hrp := (hr.place (n + a.length + b.length) (by omega)).mpr ⟨hb, rfl⟩
      exact absurd (h.symm.trans hrp) (hid _ (by omega))
  unfold Combine.code
  split_ifs with hop hjoin hjoin
  all_goals refine ⟨fun j hj => ?_, fun j hj => ?_⟩
  all_goals simp only [List.length_append, List.length_cons, List.length_nil, readers_append,
    readers_cons, readers_nil, hf.place j hj, hr.place j hj, hf.reads j hj, hr.reads j hj,
    temporary_inj, hid j hj, false_or, Nat.add_zero]
  -- the first operand inverted, then joined to the rest
  · omega
  · split_ifs <;> omega
  -- the first operand inverted, the join dropped
  · have hb := hdrop hjoin
    omega
  · have hb := hdrop hjoin
    split_ifs <;> omega
  -- the first operand kept, then joined to the rest
  · omega
  · split_ifs <;> omega
  -- the first operand kept, the join dropped
  · have hb := hdrop hjoin
    omega
  · have hb := hdrop hjoin
    split_ifs <;> omega

end Combining

/-- A combination that emits nothing keeps its first operand. -/
theorem Combine.code_fst_of_nil {c : Combine} {opt : Bool} {op : Symbol} {fp rp : String}
    {m : Nat} (h : (c.code opt op fp rp m).2 = []) : (c.code opt op fp rp m).1 = fp := by
  unfold Combine.code at h ⊢
  split_ifs at h ⊢ <;> simp_all

/-- A combination without code keeps its first operand, which has no code either. -/
theorem Combine.emit_eq_nil {c : Combine} {opt : Bool} {op : Symbol} {n : Nat}
    {first : String × List Instr} {rest : Nat → String × List Instr}
    (h : (c.emit opt op n first rest).2 = []) :
    first.2 = [] ∧ (c.emit opt op n first rest).1 = first.1 := by
  rw [Combine.emit_eq] at h ⊢
  simp only [List.append_eq_nil_iff] at h
  exact ⟨h.1, Combine.code_fst_of_nil h.2.2⟩

namespace Tree

variable {k : Kind}

/-- **The code of a tree is linear**, if no name of the tree looks like a temporary. -/
theorem gen_linear (t : Tree k) (ht : t.NamesPlain) (opt : Bool) (n : Nat) :
    Linear n (t.gen opt n) := by
  induction t generalizing n with
  | exprRule s t h _ iht ihh | exprTailMore s t h _ iht ihh =>
    simp only [NamesPlain, tokens, List.forall_mem_append] at ht
    exact Combine.sum.emit_linear (.inl rfl) opt s.op (iht ht.1.2 n) (ihh ht.2 _)
  | termRule f h ihf ihh =>
    simp only [NamesPlain, tokens, List.forall_mem_append] at ht
    exact Combine.product.emit_linear (.inr rfl) opt .times (ihf ht.1 n) (ihh ht.2 _)
  | termTailMore m f h _ ihf ihh =>
    simp only [NamesPlain, tokens, List.forall_mem_append] at ht
    exact Combine.product.emit_linear (.inr rfl) opt m.op (ihf ht.1.2 n) (ihh ht.2 _)
  | factorNumber tok hs | factorIdentifier tok hs =>
    exact .leaf (ht tok (by simp [tokens]) (by simp [hs]))
  | factorParens _ _ e _ _ ih =>
    exact ih (fun tok h => ht tok (by simp [tokens, h])) n
  | exprTailEnd => exact .leaf (by decide)
  | termTailEnd => exact .leaf (by decide)
  | signAddOp | signNone | addOpPlus | addOpMinus | mulOpTimes | mulOpSlash => exact .leaf (by decide)

/-- **An expression without code is one of its names.** The code of an expression, a term or a
factor that emits nothing leaves its value at the name of one of its numbers or identifiers:
only a tail's place can be an identity. -/
theorem gen_place_name (t : Tree k) (hk : k = .expr ∨ k = .term ∨ k = .factor) (opt : Bool)
    (n : Nat) (h : (t.gen opt n).2 = []) :
    ∃ tok ∈ t.tokens, (tok.symbol = .number ∨ tok.symbol = .identifier) ∧
      tok.lexeme = (t.gen opt n).1 := by
  induction t generalizing n with
  | exprRule s t _ _ iht _ =>
    obtain ⟨hf, hp⟩ := Combine.emit_eq_nil h
    obtain ⟨tok, htok, hs, hl⟩ := iht (.inr (.inl rfl)) n hf
    exact ⟨tok, by simp [tokens, htok], hs, by rw [gen, hp, hl]⟩
  | termRule f _ ihf _ =>
    obtain ⟨hf, hp⟩ := Combine.emit_eq_nil h
    obtain ⟨tok, htok, hs, hl⟩ := ihf (.inr (.inr rfl)) n hf
    exact ⟨tok, by simp [tokens, htok], hs, by rw [gen, hp, hl]⟩
  | factorNumber tok hs => exact ⟨tok, by simp [tokens], .inl hs, rfl⟩
  | factorIdentifier tok hs => exact ⟨tok, by simp [tokens], .inr hs, rfl⟩
  | factorParens _ _ e _ _ ih =>
    obtain ⟨tok, htok, hs, hl⟩ := ih (.inl rfl) n h
    exact ⟨tok, by simp [tokens, htok], hs, hl⟩
  | exprTailMore | exprTailEnd | termTailMore | termTailEnd | signAddOp | signNone | addOpPlus
  | addOpMinus | mulOpTimes | mulOpSlash => simp at hk

end Tree

/-! ### Running well-formed code -/

/-- The places other than temporaries that code emitted from the tokens of `toks` before `c`
may read have values on a machine with arithmetic `A`: the identities are numerals `A` reads,
and the name of every consumed number or identifier is no temporary and, if it is a numeral,
one that `A` reads. -/
structure Valued (A : Arith α) (toks : List Token) (c : Nat) : Prop where
  zero : ∃ v, A.numeral additiveIdentity = .ok v
  one : ∃ v, A.numeral multiplicativeIdentity = .ok v
  names : ∀ tok ∈ toks.take c, tok.symbol = .number ∨ tok.symbol = .identifier →
    isTemporary tok.lexeme = false ∧ (isNumeral tok.lexeme = true → ∃ v, A.numeral tok.lexeme = .ok v)

theorem Valued.plain {A : Arith α} {toks : List Token} {c : Nat} (hv : Valued A toks c) :
    ∀ tok ∈ toks.take c, tok.symbol = .number ∨ tok.symbol = .identifier →
      isTemporary tok.lexeme = false :=
  fun tok htok hs => (hv.names tok htok hs).1

/-- A place that instruction `i` may read is no temporary of its own or of a later instruction,
when no name is a temporary. -/
theorem Source.ne_temporary {toks : List Token} {c i j : Nat} {p : String} (h : Source toks c i p)
    (hnames : ∀ tok ∈ toks.take c, tok.symbol = .number ∨ tok.symbol = .identifier →
      isTemporary tok.lexeme = false) (hj : 0 < j) (hij : i ≤ j) : p ≠ temporary j := by
  rcases h with rfl | rfl | ⟨tok, htok, hs, rfl⟩ | ⟨j', _, hj', rfl⟩
  · exact ne_temporary_of_isTemporary (by decide) hj
  · exact ne_temporary_of_isTemporary (by decide) hj
  · exact ne_temporary_of_isTemporary (hnames tok htok hs) hj
  · rw [Ne, temporary_inj]
    omega

/-- Well-formed code reads no temporary before the instruction that writes it, when no name is
a temporary. -/
theorem CodeWellFormed.readers_take {toks : List Token} {c : Nat} {code : List Instr}
    (hw : CodeWellFormed toks c code)
    (hnames : ∀ tok ∈ toks.take c, tok.symbol = .number ∨ tok.symbol = .identifier →
      isTemporary tok.lexeme = false) {j : Nat} (hj : 0 < j) :
    readers (code.take j) (temporary j) = 0 := by
  unfold readers
  rw [List.countP_eq_zero]
  intro ins hins
  obtain ⟨i, hget⟩ := List.mem_iff_getElem?.mp hins
  rw [List.getElem?_take] at hget
  split at hget
  · have hi := hw i ins hget
    simp only [Bool.or_eq_true, beq_iff_eq, not_or]
    exact ⟨hi.left.ne_temporary hnames hj (by omega), hi.right.ne_temporary hnames hj (by omega)⟩
  · cases hget

theorem isNumeral_additiveIdentity : isNumeral additiveIdentity = true :=
  (isNumeral_iff _).mpr ⟨by simp [additiveIdentity], by simp [additiveIdentity]⟩

theorem isNumeral_multiplicativeIdentity : isNumeral multiplicativeIdentity = true :=
  (isNumeral_iff _).mpr ⟨by simp [multiplicativeIdentity], by simp [multiplicativeIdentity]⟩

namespace Memory

variable {A : Arith α} {m : Memory α} {n : Nat} {toks : List Token} {c : Nat}

/-- A temporary the memory holds has a value. -/
theorem value_temporary (hm : m.temps.map Prod.fst = temporaries n) {j : Nat} (hj : 0 < j)
    (hjn : j ≤ n) : ∃ v, m.value A (temporary j) = .ok v := by
  have hmem : temporary j ∈ m.temps.map Prod.fst := hm ▸ mem_temporaries.mpr ⟨j, hj, hjn, rfl⟩
  obtain ⟨x, hx, hxp⟩ := List.mem_map.mp hmem
  obtain ⟨y, hy⟩ : ∃ y, m.temps.find? (·.1 == temporary j) = some y :=
    Option.isSome_iff_exists.mp (List.find?_isSome.mpr ⟨x, hx, by simp [hxp]⟩)
  exact ⟨y.2, by simp [value, isNumeral_temporary, hy]⟩

/-- Every place the next well-formed instruction reads has a value. -/
theorem value_source (hv : Valued A toks c) (hm : m.temps.map Prod.fst = temporaries n)
    {p : String} (hp : Source toks c (n + 1) p) : ∃ v, m.value A p = .ok v := by
  rcases hp with rfl | rfl | ⟨tok, htok, hs, rfl⟩ | ⟨j, hj, hjn, rfl⟩
  · obtain ⟨v, h⟩ := hv.zero
    exact ⟨v, by simp [value, h, isNumeral_additiveIdentity]⟩
  · obtain ⟨v, h⟩ := hv.one
    exact ⟨v, by simp [value, h, isNumeral_multiplicativeIdentity]⟩
  · obtain ⟨htmp, hnum⟩ := hv.names tok htok hs
    cases hn : isNumeral tok.lexeme with
    | true =>
      obtain ⟨v, h⟩ := hnum hn
      exact ⟨v, by simp [value, hn, h]⟩
    | false =>
      -- a name that is no temporary is bound, or worth one
      have hnone : m.temps.find? (·.1 == tok.lexeme) = none :=
        find?_eq_none hm fun h => by simp [isTemporary_of_mem h] at htmp
      cases hl : m.globals.lookup tok.lexeme <;> simp [value, hn, hnone, hl, htmp]
  · exact value_temporary hm hj (by omega)

/-- A well-formed instruction writes the next temporary. -/
theorem exec_wellFormed (hv : Valued A toks c) (hm : m.temps.map Prod.fst = temporaries n)
    {ins : Instr} (hi : ins.WellFormed toks c (n + 1)) :
    ∃ v, m.exec A ins = .ok { m with temps := m.temps ++ [(temporary (n + 1), v)] } := by
  obtain ⟨lv, hl⟩ := value_source hv hm hi.left
  obtain ⟨rv, hr⟩ := value_source hv hm hi.right
  obtain ⟨f, hf⟩ : ∃ f, operation A ins.op = some f := by
    rcases hi.op with h | h | h | h <;> simp [operation, h]
  obtain ⟨op, l, r, d⟩ := ins
  obtain rfl : d = temporary (n + 1) := hi.dest
  exact ⟨f lv rv, exec_fresh hm hl hr hf⟩

/-- **Well-formed code runs without a fault** from a memory that holds exactly the temporaries
written before it. -/
theorem runFrom_wellFormed (hv : Valued A toks c) {code : List Instr} :
    ∀ {n k : Nat} {m : Memory α}, m.temps.map Prod.fst = temporaries n →
      (∀ i (ins : Instr), code[i]? = some ins → ins.WellFormed toks c (n + i + 1)) →
      (runFrom A k m code).2 = none := by
  induction code with
  | nil => intros; rfl
  | cons ins code ih =>
    intro n k m hm hw
    obtain ⟨v, hexec⟩ := exec_wellFormed hv hm (hw 0 ins rfl)
    simp only [runFrom, hexec]
    refine ih (n := n + 1) (by simp [hm, temporaries_succ]) fun i x hx => ?_
    have hi := hw (i + 1) x hx
    rwa [show n + (i + 1) + 1 = n + 1 + i + 1 by omega] at hi

theorem run_wellFormed (hv : Valued A toks c) {code : List Instr}
    (hw : CodeWellFormed toks c code) (b : Bindings α) : (run A { globals := b } code).2 = none := by
  unfold CodeWellFormed at hw
  exact runFrom_wellFormed hv (n := 0) rfl fun i ins h => by rw [Nat.zero_add]; exact hw i ins h

end Memory

/-! ### Double arithmetic -/

/-- The double reader refuses a temporary: no numeral starts with `T`. -/
theorem Double.read_of_isTemporary {s : String} (h : isTemporary s = true) :
    Double.read s = .error .invalid := by
  unfold isTemporary at h
  split at h
  · rename_i d rest hs
    have hspecial : Double.specialPrefix ('T' :: d :: rest) = none := rfl
    have hscan : Double.scanNumeral ('T' :: d :: rest) = none := rfl
    simp only [Double.read, hs, hspecial, hscan]
  · cases h

/-- A numeral the double reader reads is no temporary. -/
theorem Double.isTemporary_of_read {s : String} {v : Float} (h : Double.read s = .ok v) :
    isTemporary s = false := by
  cases htmp : isTemporary s with
  | false => rfl
  | true =>
    rw [Double.read_of_isTemporary htmp] at h
    cases h

theorem Except.exists_ok_of_isOk {ε β : Type} {e : Except ε β} (h : e.isOk = true) :
    ∃ v, e = .ok v := by
  cases e with
  | error => cases h
  | ok v => exact ⟨v, rfl⟩

section Translation

variable {cfg : Config Float} {tokens : List Token}

/-- Once a tree spelling the input up to an end marker is read, the tokens consumed are the
tree's and the end marker. -/
theorem take_consumed {t : Tree .expr} {eoi : Token} {more : List Token}
    (hsplit : terminated tokens = t.tokens ++ eoi :: more) :
    (terminated tokens).take (t.tokens.length + 1) = t.tokens ++ [eoi] := by
  rw [hsplit, take_append_cons_of_le (Nat.le_refl _), List.take_of_length_le (by simp)]

/-- After a translation with double arithmetic has read a tree of the input, the places of its
code have values on the machine, when no identifier is a numeral or a temporary: the numbers
were read, so they are no temporaries either. -/
theorem valued_of_accepted (hA : cfg.arith = Arith.float)
    (hid : ∀ tok ∈ tokens, tok.symbol = .identifier →
      isNumeral tok.lexeme = false ∧ isTemporary tok.lexeme = false)
    {t : Tree .expr} {eoi : Token} {more : List Token}
    (hsplit : terminated tokens = t.tokens ++ eoi :: more) (heoi : eoi.symbol = .endOfInput)
    (hread : Readable cfg t.tokens) :
    Valued Arith.float (terminated tokens) (t.tokens.length + 1) where
  zero := Except.exists_ok_of_isOk (by decide)
  one := Except.exists_ok_of_isOk (by decide)
  names tok htok hs := by
    rw [take_consumed hsplit] at htok
    rcases List.mem_append.mp htok with htok | htok
    · rcases hs with hs | hs
      · -- a number was read, so it is no temporary
        obtain ⟨v, hv⟩ := hread tok htok hs
        rw [hA] at hv
        exact ⟨Double.isTemporary_of_read (s := tok.lexeme) hv, fun _ => ⟨v, hv⟩⟩
      · obtain ⟨hnum, htmp⟩ := hid tok (mem_of_split hsplit htok) hs
        exact ⟨htmp, fun h => by rw [hnum] at h; cases h⟩
    · rw [List.mem_singleton.mp htok, heoi] at hs
      rcases hs with hs | hs <;> cases hs

/-- **Translated code is well formed and has no dead instruction.** With the expression table
and double arithmetic, for every input, limit and setting of identity elimination, the code of a
translation, also the partial code of a failed one, is well formed: instruction `i` writes
`T<i>`, the temporaries count the instructions, and every operand of instruction `i` is an
identity, the name of a consumed number or identifier, or `T<j>` for some `j < i`. When no
identifier is a numeral or a temporary, a successful translation moreover reads every
temporary but the last exactly once, by a later instruction; its place is the last temporary,
or a name of the input when there is no code; and the machine runs its code without a fault
under any bindings. -/
theorem translated_code_well_formed (cfg : Config Float) (hT : cfg.table = expressionTable)
    (hA : cfg.arith = Arith.float) (tokens : List Token) (abort : Bool) :
    (∀ limit, (translate cfg tokens limit abort).temporaries =
        (translate cfg tokens limit abort).code.length ∧
      CodeWellFormed (terminated tokens) (translate cfg tokens limit abort).cursor
        (translate cfg tokens limit abort).code) ∧
    ((∀ tok ∈ tokens, tok.symbol = .identifier →
        isNumeral tok.lexeme = false ∧ isTemporary tok.lexeme = false) →
      ∀ v p, (translate cfg tokens none abort).ending = .success v p →
        (∀ j, 0 < j → j < (translate cfg tokens none abort).code.length →
          readers ((translate cfg tokens none abort).code.drop j) (temporary j) = 1) ∧
        (0 < (translate cfg tokens none abort).code.length →
          p = temporary (translate cfg tokens none abort).code.length) ∧
        ((translate cfg tokens none abort).code = [] →
          ∃ tok ∈ tokens, (tok.symbol = .number ∨ tok.symbol = .identifier) ∧ tok.lexeme = p) ∧
        ∀ b : Bindings Float,
          (Memory.run Arith.float { globals := b } (translate cfg tokens none abort).code).2 =
            none) := by
  refine ⟨fun limit => translate_wellEmitted cfg tokens limit abort, fun hid v p hend => ?_⟩
  -- a successful translation is that of a tree spelling the input up to an end marker
  obtain ⟨t, eoi, more, hsplit, heoi, hread, hend', hcode, hcursor⟩ :=
    (@translate_outcome Float cfg hT tokens abort).resolve_right fun ⟨_, _, _, _, _, hfail⟩ => by
      rw [hend] at hfail
      cases hfail
  rw [hend, Ending.success.injEq] at hend'
  obtain ⟨-, rfl⟩ := hend'
  have hv := valued_of_accepted hA hid hsplit heoi hread
  have hw := (translate_wellEmitted cfg tokens none abort).2
  rw [hcursor, hcode] at hw
  have hlin := t.gen_linear (fun tok htok hs => hv.plain tok
    (by rw [take_consumed hsplit]; exact List.mem_append_left _ htok) hs) cfg.optimize 0
  rw [hcode]
  refine ⟨fun j hj hjl => ?_, fun hl => ?_, fun h0 => ?_, Memory.run_wellFormed hv hw⟩
  · -- one reader in all, and none before the instruction that writes it
    have htotal := hlin.reads j hj
    rw [if_pos ⟨hj, by omega⟩, ← List.take_append_drop j (t.gen cfg.optimize 0).2,
      readers_append, hw.readers_take hv.plain hj] at htotal
    omega
  · exact ((hlin.place _ (by omega)).mpr ⟨hl, by omega⟩)
  · obtain ⟨tok, htok, hs, hl⟩ := t.gen_place_name (.inl rfl) cfg.optimize 0 h0
    exact ⟨tok, mem_of_split hsplit htok, hs, hl⟩

/-- Double arithmetic with the expression table and identity elimination, on `x * 1 + 2`, which
translates to the one instruction `+ x 2 T1`. -/
theorem float_translated_code_well_formed :
    let cfg : Config Float := ⟨Arith.float, expressionTable, true, [], false⟩
    let tokens : List Token := [⟨"x", .identifier, 1⟩, ⟨"*", .times, 1⟩, ⟨"1", .number, 1⟩,
      ⟨"+", .plus, 1⟩, ⟨"2", .number, 1⟩]
    cfg.table = expressionTable ∧ cfg.arith = Arith.float ∧
    (∀ tok ∈ tokens, tok.symbol = .identifier →
      isNumeral tok.lexeme = false ∧ isTemporary tok.lexeme = false) ∧
    (∃ v p, (translate cfg tokens none false).ending = .success v p) ∧
    (∀ limit, (translate cfg tokens limit false).temporaries =
        (translate cfg tokens limit false).code.length ∧
      CodeWellFormed (terminated tokens) (translate cfg tokens limit false).cursor
        (translate cfg tokens limit false).code) ∧
    ((∀ tok ∈ tokens, tok.symbol = .identifier →
        isNumeral tok.lexeme = false ∧ isTemporary tok.lexeme = false) →
      ∀ v p, (translate cfg tokens none false).ending = .success v p →
        (∀ j, 0 < j → j < (translate cfg tokens none false).code.length →
          readers ((translate cfg tokens none false).code.drop j) (temporary j) = 1) ∧
        (0 < (translate cfg tokens none false).code.length →
          p = temporary (translate cfg tokens none false).code.length) ∧
        ((translate cfg tokens none false).code = [] →
          ∃ tok ∈ tokens, (tok.symbol = .number ∨ tok.symbol = .identifier) ∧ tok.lexeme = p) ∧
        ∀ b : Bindings Float,
          (Memory.run Arith.float { globals := b } (translate cfg tokens none false).code).2 =
            none) := by
  intro cfg tokens
  have hT : cfg.table = expressionTable := by simp [cfg]
  have hA : cfg.arith = Arith.float := by simp [cfg]
  have hid : ∀ tok ∈ tokens, tok.symbol = .identifier →
      isNumeral tok.lexeme = false ∧ isTemporary tok.lexeme = false := by
    intro tok htok hs
    simp only [tokens, List.mem_cons, List.not_mem_nil, or_false] at htok
    rcases htok with rfl | rfl | rfl | rfl | rfl
    · exact ⟨Bool.eq_false_iff.mpr fun h => by simp [isNumeral_iff] at h, by decide⟩
    all_goals cases hs
  let t : Tree .expr := .exprRule .signNone
    (.termRule (.factorIdentifier ⟨"x", .identifier, 1⟩ rfl)
      (.termTailMore (.mulOpTimes ⟨"*", .times, 1⟩ rfl) (.factorNumber ⟨"1", .number, 1⟩ rfl)
        .termTailEnd))
    (.exprTailMore (.addOpPlus ⟨"+", .plus, 1⟩ rfl)
      (.termRule (.factorNumber ⟨"2", .number, 1⟩ rfl) .termTailEnd) .exprTailEnd)
  -- both numbers are read
  have hread : Readable cfg t.tokens := by
    intro tok htok hs
    simp only [t, Tree.tokens, List.nil_append, List.append_nil, List.cons_append,
      List.mem_cons, List.not_mem_nil, or_false] at htok
    rcases htok with rfl | rfl | rfl | rfl | rfl
    · cases hs
    · cases hs
    · exact Except.exists_ok_of_isOk (by rw [hA]; decide)
    · cases hs
    · exact Except.exists_ok_of_isOk (by rw [hA]; decide)
  have hacc := (@translate_accepts Float cfg hT tokens false t _ [] rfl rfl hread).1
  exact ⟨hT, hA, hid, ⟨_, _, hacc⟩, translated_code_well_formed cfg hT hA tokens false⟩

end Translation

end ExprTranslate
