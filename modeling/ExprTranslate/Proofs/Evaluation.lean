import ExprTranslate.Proofs.Translation
import ExprTranslate.Code.Machine
import Mathlib.Algebra.Field.Rat
/-!
# The code computes the value

While it parses, the translator computes the value of the expression, and it emits
three-address code that computes the value again when a machine runs it. The two agree when the
machine reads the places as the translator meant them and the arithmetic has the identities
that identity elimination and the encoding of negation as `0 - x` rely on:

* `Token.Plain`: a number is spelled with digits, so the machine reads it as a numeral, and an
  identifier is neither a numeral nor a temporary, so the machine looks it up;
* `Identities`: `x + 0 = x`, `x * 1 = x`, `0 - x = -x`, and the numerals `0` and `1` read as
  zero and one;
* `Computes A b g n v`: the code of `g`, emitted after `n` temporaries, runs from every memory
  holding those temporaries, defines the next ones, and leaves `v` at the place of `g`;
* `gen_computes`: the code of every tree computes its value;
* `translate_code_computes_value`: after a successful translation, the code evaluates at the
  result's place to the result's value, on a machine that starts with the bindings;
* `empty_name_stops_translated_code`: a bound empty name keeps the machine from starting, so
  the code of a translation has no value then.

Exact arithmetic in a field, `Arith.ofField`, has the identities.
-/

namespace ExprTranslate

variable {α : Type}

/-! ### Numerals and temporaries -/

theorem isNumeral_iff (s : String) :
    isNumeral s = true ↔ s.toList ≠ [] ∧ ∀ c ∈ s.toList, '0' ≤ c ∧ c ≤ '9' := by
  simp [isNumeral, Lexicon.isNumeral]

/-- Decimal digits make a numeral. -/
theorem isNumeral_toString (n : Nat) : isNumeral (toString n) = true := by
  rw [isNumeral_iff, Nat.toString_eq_ofList_toDigits, String.toList_ofList]
  refine ⟨Nat.toDigits_ne_nil, fun c hc => ?_⟩
  have := Nat.isDigit_of_mem_toDigits (by decide) (by decide) hc
  simpa [Char.isDigit, Char.le_def] using this

theorem temporary_toList (n : Nat) : (temporary n).toList = 'T' :: Nat.toDigits 10 n := by
  simp [temporary]

/-- A positive number is written without a leading zero. -/
theorem toDigits_head {n : Nat} (hn : 0 < n) : ∃ c cs, Nat.toDigits 10 n = c :: cs ∧ c ≠ '0' := by
  induction n using Nat.strongRecOn with
  | ind n ih =>
    by_cases h : n < 10
    · refine ⟨n.digitChar, [], Nat.toDigits_of_lt_base h, ?_⟩
      match n, hn, h with
      | 1, _, _ | 2, _, _ | 3, _, _ | 4, _, _ | 5, _, _ | 6, _, _ | 7, _, _ | 8, _, _
      | 9, _, _ => decide
    · -- the leading digit is the leading digit of `n / 10`
      have hd := Nat.toDigits_of_base_le (by decide : 1 < 10) (by omega : 10 ≤ n)
      obtain ⟨c, cs, hc, hne⟩ := ih (n / 10) (by omega) (by omega)
      exact ⟨c, cs ++ [Nat.digitChar (n % 10)], by rw [hd, hc]; rfl, hne⟩

theorem isTemporary_temporary {n : Nat} (hn : 0 < n) : isTemporary (temporary n) = true := by
  obtain ⟨c, cs, h, hc⟩ := toDigits_head hn
  unfold isTemporary
  rw [temporary_toList, h]
  -- the digits after the letter are those of the number
  have hnum := isNumeral_toString n
  rw [Nat.toString_eq_ofList_toDigits, h] at hnum
  simpa [hc] using hnum

theorem isNumeral_temporary (n : Nat) : isNumeral (temporary n) = false := by
  cases h : isNumeral (temporary n) with
  | false => rfl
  | true =>
    have := ((isNumeral_iff _).mp h).2 'T' (by simp [temporary_toList])
    exact absurd this (by decide)

theorem temporary_injective {m n : Nat} (h : temporary m = temporary n) : m = n := by
  have hl := congrArg String.toList h
  simp only [temporary_toList, List.cons.injEq, true_and] at hl
  calc m = Nat.ofDigitChars 10 (Nat.toDigits 10 m) 0 := Nat.ofDigitChars_ten_toDigits.symm
    _ = n := by rw [hl, Nat.ofDigitChars_ten_toDigits]

theorem mem_temporaries {p : String} {n : Nat} :
    p ∈ temporaries n ↔ ∃ j, 0 < j ∧ j ≤ n ∧ p = temporary j := by
  simp only [temporaries, List.mem_map, List.mem_range]
  constructor
  · rintro ⟨i, hi, rfl⟩
    exact ⟨i + 1, by omega, by omega, rfl⟩
  · rintro ⟨j, hj, hjn, rfl⟩
    exact ⟨j - 1, by omega, by rw [Nat.sub_add_cancel hj]⟩

theorem temporaries_succ (n : Nat) :
    temporaries (n + 1) = temporaries n ++ [temporary (n + 1)] := by
  simp [temporaries, List.range_succ]

theorem isTemporary_of_mem {p : String} {n : Nat} (h : p ∈ temporaries n) :
    isTemporary p = true := by
  obtain ⟨j, hj, _, rfl⟩ := mem_temporaries.mp h
  exact isTemporary_temporary hj

/-- The next temporary is not among the first ones. -/
theorem temporary_not_mem (n : Nat) : temporary (n + 1) ∉ temporaries n := by
  intro h
  obtain ⟨j, _, hj, he⟩ := mem_temporaries.mp h
  have := temporary_injective he
  omega

/-! ### Places the machine keeps -/

/-- A place whose value later code keeps: a numeral, one of the first `n` temporaries, or a
name that is neither a numeral nor a temporary, which only a binding gives a value. -/
def Settled (n : Nat) (p : String) : Prop :=
  isNumeral p = true ∨ p ∈ temporaries n ∨ (isNumeral p = false ∧ isTemporary p = false)

theorem Settled.mono {n n' : Nat} {p : String} (h : Settled n p) (hle : n ≤ n') :
    Settled n' p := by
  rcases h with h | h | h
  · exact .inl h
  · obtain ⟨j, hj, hjn, rfl⟩ := mem_temporaries.mp h
    exact .inr (.inl (mem_temporaries.mpr ⟨j, hj, by omega, rfl⟩))
  · exact .inr (.inr h)

theorem settled_temporary (n : Nat) : Settled (n + 1) (temporary (n + 1)) :=
  .inr (.inl (by simp [temporaries_succ]))

namespace Memory

variable {A : Arith α} {m : Memory α} {n : Nat} {p : String}

/-- Only the first `n` temporaries have values in a memory that holds exactly those. -/
theorem find?_eq_none (hm : m.temps.map Prod.fst = temporaries n) (hp : p ∉ temporaries n) :
    m.temps.find? (·.1 == p) = none := by
  rw [List.find?_eq_none]
  intro x hx hxp
  apply hp
  rw [← hm, ← (beq_iff_eq.mp hxp)]
  exact List.mem_map_of_mem hx

/-- Adding temporaries keeps the value of a settled place. -/
theorem value_extend {new : List (String × α)} {k : Nat}
    (hm : m.temps.map Prod.fst = temporaries n)
    (hk : (m.temps ++ new).map Prod.fst = temporaries k) (hp : Settled n p) :
    value A { m with temps := m.temps ++ new } p = m.value A p := by
  have hnew : ∀ q ∈ new.map Prod.fst, isTemporary q = true := fun q hq =>
    isTemporary_of_mem (hk ▸ List.map_append ▸ List.mem_append_right _ hq)
  rcases hp with hnum | hmem | ⟨hnum, htmp⟩
  · simp [value, hnum]
  · -- a temporary the memory holds is found before the new ones
    obtain ⟨j, _, _, rfl⟩ := mem_temporaries.mp hmem
    rw [← hm] at hmem
    obtain ⟨x, hx, hxp⟩ := List.mem_map.mp hmem
    obtain ⟨y, hy⟩ : ∃ y, m.temps.find? (·.1 == temporary j) = some y :=
      Option.isSome_iff_exists.mp (List.find?_isSome.mpr ⟨x, hx, by simp [hxp]⟩)
    simp [value, isNumeral_temporary, List.find?_append, hy]
  · -- a plain name is in neither list of temporaries
    have hold : m.temps.find? (·.1 == p) = none :=
      find?_eq_none hm fun h => by simp [isTemporary_of_mem h] at htmp
    have hnone : new.find? (·.1 == p) = none := by
      rw [List.find?_eq_none]
      intro x hx hxp
      have := hnew x.1 (List.mem_map_of_mem hx)
      simp_all
    simp [value, hnum, List.find?_append, hold, hnone]

/-- An instruction into the next temporary adds its value. -/
theorem exec_fresh {op : Char} {l r : String} {lv rv : α} {f : α → α → α}
    (hm : m.temps.map Prod.fst = temporaries n) (hl : m.value A l = .ok lv)
    (hr : m.value A r = .ok rv) (hop : operation A op = some f) :
    m.exec A ⟨op, l, r, temporary (n + 1)⟩ =
      .ok { m with temps := m.temps ++ [(temporary (n + 1), f lv rv)] } := by
  have hfresh := find?_eq_none hm (temporary_not_mem n)
  simp [exec, hl, hr, hop, isTemporary_temporary (Nat.succ_pos n), hfresh]

/-- The next temporary, once added, has its value. -/
theorem value_fresh {v : α} (hm : m.temps.map Prod.fst = temporaries n) :
    value A { m with temps := m.temps ++ [(temporary (n + 1), v)] } (temporary (n + 1)) =
      .ok v := by
  have hfresh := find?_eq_none hm (temporary_not_mem n)
  simp [value, isNumeral_temporary, List.find?_append, hfresh]

/-- Code run in two parts: the second part starts where the first ends. -/
theorem runFrom_append {i : Nat} {m' : Memory α} {c₁ : List Instr}
    (h : runFrom A i m c₁ = (m', none)) (c₂ : List Instr) :
    runFrom A i m (c₁ ++ c₂) = runFrom A (i + c₁.length) m' c₂ := by
  induction c₁ generalizing i m with
  | nil =>
    simp only [runFrom, Prod.mk.injEq] at h
    simp [h.1]
  | cons ins c ih =>
    rw [List.cons_append]
    simp only [runFrom] at h ⊢
    cases he : m.exec A ins with
    | error f => simp [he] at h
    | ok m₁ =>
      simp only [he] at h ⊢
      rw [ih h, List.length_cons, Nat.add_assoc, Nat.add_comm 1]

end Memory

/-! ### Starting the machine

A machine starts with the bound names unless one of them is empty; evaluating first starts a
machine, so these two lemmas are all the later proofs need to know of `eval`. -/

/-- With no empty name among the bound names, the machine starts with them. -/
theorem start_eq_some {b : Bindings α} (hb : ∀ q ∈ b, q.1 ≠ "") :
    Memory.start b = some { globals := b } := by
  simp only [Memory.start, List.any_eq_true, String.isEmpty_iff, Option.ite_none_left_eq_some]
  exact ⟨fun ⟨q, hq, he⟩ => hb q hq he, trivial⟩

/-- Evaluating runs the code on the machine the bound names start. -/
theorem eval_of_start {A : Arith α} {b : Bindings α} {m : Memory α} (h : Memory.start b = some m)
    (code : List Instr) (p : String) : eval A code p b = m.eval A code p := by
  simp only [eval, h]

/-- A bound empty name stops evaluating before any instruction runs. -/
theorem eval_of_empty_name {A : Arith α} {b : Bindings α} (h : ∃ q ∈ b, q.1 = "")
    (code : List Instr) (p : String) : eval A code p b = .error .start := by
  have hs : Memory.start b = none := by
    obtain ⟨q, hq, he⟩ := h
    simp only [Memory.start, List.any_eq_true, String.isEmpty_iff]
    exact if_pos ⟨q, hq, he⟩
  simp only [eval, hs]

/-! ### Code that computes a value -/

/-- Run from `m`, which holds the first `n` temporaries, the code of `g` adds the next
temporaries, one an instruction, and leaves `v` at the place of `g`, which later code keeps. -/
def Leaves (A : Arith α) (m : Memory α) (i : Nat) (g : String × List Instr) (n : Nat) (v : α) :
    Prop :=
  ∃ new, Memory.runFrom A i m g.2 = ({ m with temps := m.temps ++ new }, none) ∧
    (m.temps ++ new).map Prod.fst = temporaries (n + g.2.length) ∧
    Settled (n + g.2.length) g.1 ∧ Memory.value A { m with temps := m.temps ++ new } g.1 = .ok v

section Leaves

variable {A : Arith α} {m : Memory α} {i n : Nat}

theorem leaves_place {p : String} {v : α} (hm : m.temps.map Prod.fst = temporaries n)
    (hs : Settled n p) (hv : m.value A p = .ok v) : Leaves A m i (p, []) n v :=
  ⟨[], by simp [Memory.runFrom], by simpa using hm, by simpa using hs, by simpa using hv⟩

theorem leaves_instr {op : Char} {l r : String} {lv rv : α} {f : α → α → α}
    (hm : m.temps.map Prod.fst = temporaries n) (hl : m.value A l = .ok lv)
    (hr : m.value A r = .ok rv) (hop : Memory.operation A op = some f) :
    Leaves A m i (temporary (n + 1), [⟨op, l, r, temporary (n + 1)⟩]) n (f lv rv) := by
  refine ⟨[(temporary (n + 1), f lv rv)], ?_, ?_, settled_temporary n, Memory.value_fresh hm⟩
  · simp [Memory.runFrom, Memory.exec_fresh hm hl hr hop]
  · simp [hm, temporaries_succ]

/-- Code in two parts leaves what the second part leaves, run where the first part ends. -/
theorem Leaves.append {g₁ : String × List Instr} {p₂ : String} {c₂ : List Instr} {v₁ v₂ : α}
    (h₁ : Leaves A m i g₁ n v₁)
    (h₂ : ∀ new, (m.temps ++ new).map Prod.fst = temporaries (n + g₁.2.length) →
      Settled (n + g₁.2.length) g₁.1 →
      Memory.value A { m with temps := m.temps ++ new } g₁.1 = .ok v₁ →
      Leaves A { m with temps := m.temps ++ new } (i + g₁.2.length) (p₂, c₂) (n + g₁.2.length)
        v₂) :
    Leaves A m i (p₂, g₁.2 ++ c₂) n v₂ := by
  obtain ⟨new₁, hrun₁, hn₁, hs₁, hv₁⟩ := h₁
  obtain ⟨new₂, hrun₂, hn₂, hs₂, hv₂⟩ := h₂ new₁ hn₁ hs₁ hv₁
  have hlen : n + (g₁.2 ++ c₂).length = n + g₁.2.length + c₂.length := by
    simp [Nat.add_assoc]
  refine ⟨new₁ ++ new₂, ?_, ?_, hlen ▸ hs₂, ?_⟩
  · rw [Memory.runFrom_append hrun₁, hrun₂]
    simp
  · rw [hlen]
    simpa using hn₂
  · simpa using hv₂

end Leaves

/-! ### Identities and combinations -/

/-- The identities of an arithmetic that identity elimination and the encoding of negation as
`0 - x` rely on. -/
structure Identities (A : Arith α) : Prop where
  add_zero : ∀ x, A.add x A.zero = x
  mul_one : ∀ x, A.mul x A.one = x
  zero_sub : ∀ x, A.sub A.zero x = A.neg x
  numeral_zero : A.numeral additiveIdentity = .ok A.zero
  numeral_one : A.numeral multiplicativeIdentity = .ok A.one

/-- How the machine carries out a way of combining: its identity is a numeral worth `e`, its
inverting instruction computes `invert` from the identity, and its joining instruction computes
`join`, of which `e` is a right unit. -/
structure Combine.Laws (A : Arith α) (c : Combine) (invert : α → α) (join : α → α → α) (e : α) :
    Prop where
  numeral : isNumeral c.identity = true
  identity : A.numeral c.identity = .ok e
  inverts : ∃ f, Memory.operation A c.invert = some f ∧ ∀ x, f e x = invert x
  joins : Memory.operation A c.combine = some join
  unit : ∀ x, join x e = x

section Laws

variable {A : Arith α}

theorem Identities.sum (h : Identities A) : Combine.sum.Laws A A.neg A.add A.zero where
  numeral := by simp [isNumeral, Lexicon.isNumeral, Combine.sum, additiveIdentity]
  identity := h.numeral_zero
  inverts := ⟨A.sub, rfl, h.zero_sub⟩
  joins := rfl
  unit := h.add_zero

theorem Identities.product (h : Identities A) :
    Combine.product.Laws A (A.div A.one) A.mul A.one where
  numeral := by simp [isNumeral, Lexicon.isNumeral, Combine.product, multiplicativeIdentity]
  identity := h.numeral_one
  inverts := ⟨A.div, rfl, fun _ => rfl⟩
  joins := rfl
  unit := h.mul_one

variable {c : Combine} {invert : α → α} {join : α → α → α} {e : α}

theorem Combine.Laws.value_identity (hc : c.Laws A invert join e) (m : Memory α) :
    m.value A c.identity = .ok e := by
  simp [Memory.value, hc.numeral, hc.identity]

theorem Combine.Laws.settled (hc : c.Laws A invert join e) (n : Nat) : Settled n c.identity :=
  .inl hc.numeral

/-- The code of a combination, run where its operands' settled places hold `fv` and `rv`,
leaves the first operand, inverted as `op` says, joined to the rest. Identity elimination
drops the join only when the rest is the identity, which is a right unit. -/
theorem Combine.Laws.code_leaves (hc : c.Laws A invert join e) (opt : Bool) (op : Symbol)
    {m : Memory α} {i n : Nat} {fp rp : String} {fv rv : α}
    (hm : m.temps.map Prod.fst = temporaries n) (hsf : Settled n fp) (hsr : Settled n rp)
    (hf : m.value A fp = .ok fv) (hr : m.value A rp = .ok rv) :
    Leaves A m i (c.code opt op fp rp n) n (join (if op = c.inverse then invert fv else fv) rv) := by
  obtain ⟨f, hinv, hfe⟩ := hc.inverts
  have hid := hc.value_identity
  have hre (hj : ¬(!opt || rp != c.identity) = true) : rv = e := by
    have hrp : rp = c.identity := by simp_all
    rw [hrp, hid] at hr
    cases hr
    rfl
  by_cases hop : op = c.inverse
  · rw [if_pos hop, ← hfe]
    by_cases hj : (!opt || rp != c.identity) = true
    · -- the inverse into one temporary, joined to the rest into the next
      simp only [Combine.code, if_pos hop, if_pos hj]
      have h₁ : Leaves A m i _ n _ := leaves_instr hm (hid m) hf hinv
      refine Leaves.append h₁ fun new hn _ hv => ?_
      exact leaves_instr hn hv (by rw [Memory.value_extend hm hn hsr, hr]) hc.joins
    · -- the rest is the identity, and only the inverse is computed
      rw [hre hj, hc.unit]
      simp only [Combine.code, if_pos hop, if_neg hj]
      exact leaves_instr hm (hid m) hf hinv
  · rw [if_neg hop]
    by_cases hj : (!opt || rp != c.identity) = true
    · simp only [Combine.code, if_neg hop, if_pos hj]
      exact leaves_instr hm hf hr hc.joins
    · rw [hre hj, hc.unit]
      simp only [Combine.code, if_neg hop, if_neg hj]
      exact leaves_place hm hsf hf

end Laws

/-! ### The code of a tree -/

/-- The code of `g`, emitted after `n` temporaries, computes `v` under the bindings `b`: run
from every memory that binds `b` and holds exactly those temporaries, it leaves `v` at its
place. -/
def Computes (A : Arith α) (b : Bindings α) (g : String × List Instr) (n : Nat) (v : α) : Prop :=
  ∀ (m : Memory α) (i : Nat), m.globals = b → m.temps.map Prod.fst = temporaries n →
    Leaves A m i g n v

/-- A token the machine reads as the translator does: a number spelled with digits, which the
machine reads as a numeral, and an identifier that is neither a numeral nor a temporary, which
the machine looks up. -/
def Token.Plain (tok : Token) : Prop :=
  (tok.symbol = .number → isNumeral tok.lexeme = true) ∧
    (tok.symbol = .identifier → isNumeral tok.lexeme = false ∧ isTemporary tok.lexeme = false)

theorem Combine.emit_eq (c : Combine) (opt : Bool) (op : Symbol) (n : Nat)
    (first : String × List Instr) (rest : Nat → String × List Instr) :
    c.emit opt op n first rest =
      let r := rest (n + first.2.length)
      let g := c.code opt op first.1 r.1 (n + first.2.length + r.2.length)
      (g.1, first.2 ++ (r.2 ++ g.2)) := by
  simp [Combine.emit]

section Computes

variable {A : Arith α} {b : Bindings α} {n : Nat}

theorem computes_place {p : String} {v : α} (hs : Settled n p)
    (hv : ∀ m : Memory α, m.globals = b → m.temps.map Prod.fst = temporaries n →
      m.value A p = .ok v) :
    Computes A b (p, []) n v :=
  fun m _ hg hm => leaves_place hm hs (hv m hg hm)

/-- The code of a combination computes the first operand, inverted as `op` says, joined to the
rest, when the code of each operand computes it. -/
theorem Combine.Laws.emit_computes {c : Combine} {invert : α → α} {join : α → α → α} {e : α}
    (hc : c.Laws A invert join e) (opt : Bool) (op : Symbol) {first : String × List Instr}
    {rest : Nat → String × List Instr} {fv rv : α} (hf : Computes A b first n fv)
    (hr : ∀ n', Computes A b (rest n') n' rv) :
    Computes A b (c.emit opt op n first rest) n
      (join (if op = c.inverse then invert fv else fv) rv) := by
  intro m i hg hm
  rw [Combine.emit_eq]
  -- the first operand, then the rest, then their combination
  refine Leaves.append (hf m i hg hm) fun new₁ hn₁ hs₁ hv₁ => ?_
  refine Leaves.append (hr _ _ _ hg hn₁) fun new₂ hn₂ hs₂ hv₂ => ?_
  refine hc.code_leaves opt op hn₂ (hs₁.mono (by omega)) hs₂ ?_ hv₂
  rw [Memory.value_extend hn₁ hn₂ hs₁, hv₁]

end Computes

section Trees

variable {cfg : Config α}

/-- A number spelled with digits and read by the arithmetic computes its value. -/
theorem computes_number {tok : Token} (hs : tok.symbol = .number) (hp : tok.Plain)
    (hr : Readable cfg [tok]) (n : Nat) :
    Computes cfg.arith cfg.bindings (tok.lexeme, []) n (Tree.numeralValue cfg.arith tok.lexeme) := by
  have hnum := hp.1 hs
  obtain ⟨v, hv⟩ := hr tok (by simp) hs
  refine computes_place (.inl hnum) fun m _ _ => ?_
  simp [Memory.value, Tree.numeralValue, hnum, hv]

/-- A name that is neither a numeral nor a temporary computes its binding, or one. -/
theorem computes_name {tok : Token} (hs : tok.symbol = .identifier) (hp : tok.Plain) (n : Nat) :
    Computes cfg.arith cfg.bindings (tok.lexeme, []) n
      (Tree.nameValue cfg.arith cfg.bindings tok.lexeme) := by
  obtain ⟨hnum, htmp⟩ := hp.2 hs
  refine computes_place (.inr (.inr ⟨hnum, htmp⟩)) fun m hg hm => ?_
  have hnone : m.temps.find? (·.1 == tok.lexeme) = none :=
    Memory.find?_eq_none hm fun h => by simp [isTemporary_of_mem h] at htmp
  cases hl : cfg.bindings.lookup tok.lexeme <;>
    simp [Memory.value, Tree.nameValue, hnum, htmp, hnone, hg, hl]

/-- **The code of a tree computes its value.** For a tree of a kind with a value, whose tokens
are plain and whose numerals the arithmetic reads, an arithmetic with the identities, and any
number of temporaries before it. -/
theorem gen_computes (hA : Identities cfg.arith) {k : Kind} (t : Tree k)
    (hk : k.isOperator = false) (hp : ∀ tok ∈ t.tokens, tok.Plain) (hr : Readable cfg t.tokens)
    (n : Nat) :
    Computes cfg.arith cfg.bindings (t.gen cfg.optimize n) n (t.value cfg.arith cfg.bindings) := by
  induction t generalizing n with
  | exprRule s t h _ iht ihh | exprTailMore s t h _ iht ihh =>
    simp only [Tree.tokens, List.forall_mem_append, readable_append] at hp hr
    exact hA.sum.emit_computes cfg.optimize s.op (iht rfl hp.1.2 hr.1.2 n)
      fun n' => ihh rfl hp.2 hr.2 n'
  | termRule f h ihf ihh =>
    simp only [Tree.tokens, List.forall_mem_append, readable_append] at hp hr
    exact hA.product.emit_computes cfg.optimize .times (ihf rfl hp.1 hr.1 n)
      fun n' => ihh rfl hp.2 hr.2 n'
  | termTailMore m f h _ ihf ihh =>
    simp only [Tree.tokens, List.forall_mem_append, readable_append] at hp hr
    exact hA.product.emit_computes cfg.optimize m.op (ihf rfl hp.1.2 hr.1.2 n)
      fun n' => ihh rfl hp.2 hr.2 n'
  | factorNumber tok hs => exact computes_number hs (hp tok (by simp [Tree.tokens])) hr n
  | factorIdentifier tok hs => exact computes_name hs (hp tok (by simp [Tree.tokens])) n
  | factorParens _ _ e _ _ ih =>
    have hre : Readable cfg e.tokens := fun tok h => hr tok (by simp [Tree.tokens, h])
    exact ih rfl (fun tok h => hp tok (by simp [Tree.tokens, h])) hre n
  | exprTailEnd =>
    exact computes_place (hA.sum.settled n) fun m _ _ => hA.sum.value_identity m
  | termTailEnd =>
    exact computes_place (hA.product.settled n) fun m _ _ => hA.product.value_identity m
  | signAddOp | signNone | addOpPlus | addOpMinus | mulOpTimes | mulOpSlash =>
    simp [Kind.isOperator] at hk

/-! ### Translations -/

/-- **The code computes the value.** Translating plain tokens with the expression table and an
arithmetic with the identities either fails with an error or succeeds, and then, when no bound
name is empty (so that a machine starts with them), the code evaluates at the place of the
result, under the bindings the value was computed with, to that value, whether identity
elimination is on or off. -/
theorem translate_code_computes_value (hT : cfg.table = expressionTable)
    (hA : Identities cfg.arith) (hb : ∀ q ∈ cfg.bindings, q.1 ≠ "") {tokens : List Token}
    (hp : ∀ tok ∈ tokens, tok.Plain) (abort : Bool) :
    (∃ e, (translate cfg tokens none abort).ending = .failure e) ∨
      ∃ v p, (translate cfg tokens none abort).ending = .success v p ∧
        eval cfg.arith (translate cfg tokens none abort).code p cfg.bindings = .ok v := by
  rcases translate_outcome hT with ⟨t, _, _, hsplit, _, hr, hend, hcode, _⟩ | ⟨_, _, e, _, _, hend⟩
  · refine .inr ⟨_, _, hend, ?_⟩
    rw [hcode]
    -- the tree's tokens come before the end marker, so they are tokens of the input
    have hpt : ∀ tok ∈ t.tokens, tok.Plain := fun tok htok => by
      have hmem : tok ∈ terminated tokens := by
        rw [hsplit]
        exact List.mem_append_left _ htok
      rcases mem_terminated hmem with h | h
      · exact hp tok h
      · exact absurd h (Tree.endOfInput_not_mem t htok)
    obtain ⟨new, hrun, -, -, hv⟩ :=
      gen_computes hA t rfl hpt hr 0 { globals := cfg.bindings } 1 rfl rfl
    simp only [List.nil_append] at hrun hv
    rw [eval_of_start (start_eq_some hb)]
    simp [Memory.eval, Memory.run, hrun, hv]
  · exact .inl ⟨e, hend⟩

end Trees

/-! ### Exact arithmetic -/

/-- Exact arithmetic in a field, numerals read by `read`. Division by zero gives zero, as in a
field of Lean. -/
def Arith.ofField {K : Type} [Field K] (read : String → Except Double.ReadError K) : Arith K where
  zero := 0
  one := 1
  add := (· + ·)
  sub := (· - ·)
  mul := (· * ·)
  div := (· / ·)
  neg := (- ·)
  numeral := read

/-- Exact arithmetic has the identities when it reads `0` and `1` as zero and one. -/
theorem Arith.ofField_identities {K : Type} [Field K] {read : String → Except Double.ReadError K}
    (h0 : read additiveIdentity = .ok 0) (h1 : read multiplicativeIdentity = .ok 1) :
    Identities (Arith.ofField read) where
  add_zero := add_zero
  mul_one := mul_one
  zero_sub := zero_sub
  numeral_zero := h0
  numeral_one := h1

/-- A numeral read as the number its digits spell; other words are refused. -/
def readDecimal {K : Type} [Field K] (s : String) : Except Double.ReadError K :=
  if isNumeral s then .ok (Nat.ofDigitChars 10 s.toList 0 : K) else .error .invalid

theorem readDecimal_identities {K : Type} [Field K] :
    Identities (Arith.ofField (readDecimal : String → Except Double.ReadError K)) :=
  Arith.ofField_identities
    (by simp [readDecimal, isNumeral, Lexicon.isNumeral, Nat.ofDigitChars, additiveIdentity])
    (by simp [readDecimal, isNumeral, Lexicon.isNumeral, Nat.ofDigitChars, multiplicativeIdentity])

/-- Exact rational arithmetic with decimal numerals and identity elimination on, for `x * 2`. -/
theorem rational_code_computes_value :
    let cfg : Config ℚ := ⟨Arith.ofField readDecimal, expressionTable, true, [], false⟩
    let tokens := [⟨"x", .identifier, 1⟩, ⟨"*", .times, 1⟩, ⟨"2", .number, 1⟩]
    (∃ e, (translate cfg tokens none false).ending = .failure e) ∨
      ∃ v p, (translate cfg tokens none false).ending = .success v p ∧
        eval cfg.arith (translate cfg tokens none false).code p cfg.bindings = .ok v :=
  translate_code_computes_value (by simp) readDecimal_identities (by simp)
    (by simp [Token.Plain, isNumeral, Lexicon.isNumeral, isTemporary]; decide) false

/-- A bound empty name: `x * y` translates, but its code has no value, as no machine starts with
the bindings. -/
theorem empty_name_stops_translated_code :
    let cfg : Config ℚ :=
      ⟨Arith.ofField readDecimal, expressionTable, true, [("", 1), ("x", 3), ("y", 2)], false⟩
    let tokens : List Token := [⟨"x", .identifier, 1⟩, ⟨"*", .times, 1⟩, ⟨"y", .identifier, 1⟩]
    ∃ v p, (translate cfg tokens none false).ending = .success v p ∧
      eval cfg.arith (translate cfg tokens none false).code p cfg.bindings = .error .start := by
  intro cfg tokens
  -- the run ends in success: the kernel evaluates the ending's constructor
  have hok : (match (translate cfg tokens none false).ending with
      | .success .. => true
      | .failure _ | .stepLimit | .aborted _ => false) = true := by
    decide +kernel
  obtain ⟨v, p, hend⟩ : ∃ v p, (translate cfg tokens none false).ending = .success v p := by
    revert hok
    cases (translate cfg tokens none false).ending <;> simp
  exact ⟨v, p, hend, eval_of_empty_name ⟨("", 1), by simp [cfg], rfl⟩ _ _⟩

end ExprTranslate
