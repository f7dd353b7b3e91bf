import ExprTranslate.Proofs.Evaluation
/-!
# When code runs, and what it computes

A machine runs three-address code instruction by instruction and then reads a place. This module
says, for every code, place and bound names, when that fails and what it gives otherwise, in terms
that never mention the machine's memory:

* `Unreadable`: a place without value once some temporaries are assigned: a numeral the
  arithmetic refuses, or a temporary that is neither bound nor assigned;
* `Faulty`, `CodeFault`: an instruction that cannot run after those before it, for an unreadable
  operand, an operator other than the four, or a destination that is no temporary or is assigned
  already;
* `placeValues`: the values of places as straight-line code assigns them, each instruction
  setting its destination to what its operator makes of its operands' values at that point: a
  place keeps its first value until an instruction assigns it (`placeValues_of_unassigned`), and
  the last instruction that does gives its value (`placeValues_of_defining`);
* `Tracks`: the invariant of a run: the memory holds the bound names and one value for each
  destination so far, and every value it gives is the one `placeValues` gives;
* `eval_error_iff`, `eval_ok_placeValues`: with no bound name empty, so that the machine starts,
  evaluation fails exactly when some instruction or the place is at fault, and otherwise gives
  the value `placeValues` assigns the place;
* `Double.read_digits_error`: the double reader refuses a numeral of digits only as out of range,
  so on doubles the numerals at fault are those beyond the largest double;
* `double_eval_faults`: all of it for doubles, once the machine has started, which it does when
  no bound name is empty; a bound empty name stops it (`empty_name_stops_machine`).
-/

namespace ExprTranslate

variable {α : Type}

/-! ### Faults -/

/-- A place without value once the temporaries `assigned` have values: a numeral the arithmetic
refuses, or a temporary that is neither bound nor assigned. -/
def Unreadable (A : Arith α) (b : Bindings α) (assigned : List String) (p : String) : Prop :=
  (isNumeral p = true ∧ ∃ e, A.numeral p = .error e) ∨
    (isTemporary p = true ∧ p ∉ b.map Prod.fst ∧ p ∉ assigned)

/-- An instruction that cannot run once the temporaries `assigned` have values: an operand
without value, an operator other than `+ - * /`, or a destination that is no temporary or has a
value already. -/
def Faulty (A : Arith α) (b : Bindings α) (assigned : List String) (i : Instr) : Prop :=
  Unreadable A b assigned i.left ∨ Unreadable A b assigned i.right ∨
    i.op ∉ ['+', '-', '*', '/'] ∨ isTemporary i.dest = false ∨ i.dest ∈ assigned

/-- Some instruction of `code` cannot run once the temporaries `assigned` and the destinations of
the instructions before it have values. -/
def CodeFault (A : Arith α) (b : Bindings α) (assigned : List String) (code : List Instr) : Prop :=
  ∃ pre i post, code = pre ++ i :: post ∧ Faulty A b (assigned ++ pre.map Instr.dest) i

section Faults

variable {A : Arith α} {b : Bindings α} {assigned : List String}

@[simp] theorem codeFault_nil : ¬ CodeFault A b assigned [] := by
  rintro ⟨pre, i, post, h, -⟩
  simp at h

/-- The first instruction is at fault, or one of the rest after it. -/
theorem codeFault_cons {i : Instr} {rest : List Instr} :
    CodeFault A b assigned (i :: rest) ↔
      Faulty A b assigned i ∨ CodeFault A b (assigned ++ [i.dest]) rest := by
  constructor
  · rintro ⟨pre, j, post, h, hf⟩
    cases pre with
    | nil =>
      obtain ⟨rfl, rfl⟩ := List.cons.inj h
      exact .inl (by simpa using hf)
    | cons k pre =>
      obtain ⟨rfl, rfl⟩ := List.cons.inj h
      exact .inr ⟨pre, j, post, rfl, by simpa using hf⟩
  · rintro (hf | ⟨pre, j, post, rfl, hf⟩)
    · exact ⟨[], i, rest, rfl, by simpa using hf⟩
    · exact ⟨i :: pre, j, post, rfl, by simpa using hf⟩

end Faults

/-! ### The values straight-line code assigns -/

/-- The values of places before any instruction: a numeral is read, a bound name has its
binding, a temporary without binding has none, and any other name stands for one. -/
def initialValues (A : Arith α) (b : Bindings α) (p : String) : Option α :=
  if isNumeral p then (A.numeral p).toOption
  else (b.lookup p).or (if isTemporary p then none else some A.one)

/-- The values of places after an instruction: its destination, unless a numeral, gets what the
operator makes of its operands' values; every other place keeps its value. -/
def assign (A : Arith α) (val : String → Option α) (i : Instr) (p : String) : Option α :=
  if isNumeral p = false ∧ p = i.dest then
    (Memory.operation A i.op).bind fun f => (val i.left).bind fun l => (val i.right).map (f l)
  else val p

/-- The values of places after straight-line code. -/
def placeValues (A : Arith α) (b : Bindings α) (code : List Instr) : String → Option α :=
  code.foldl (assign A) (initialValues A b)

section Values

variable {A : Arith α} {b : Bindings α}

theorem placeValues_append_single (code : List Instr) (i : Instr) :
    placeValues A b (code ++ [i]) = assign A (placeValues A b code) i := by
  simp [placeValues]

/-- Instructions that assign other places leave a place's value alone. -/
theorem foldl_assign_of_unassigned (val : String → Option α) {code : List Instr} {p : String}
    (hp : p ∉ code.map Instr.dest) : code.foldl (assign A) val p = val p := by
  induction code generalizing val with
  | nil => rfl
  | cons i rest ih =>
    simp only [List.map_cons, List.mem_cons, not_or] at hp
    rw [List.foldl_cons, ih _ hp.2, assign, if_neg (fun h => hp.1 h.2)]

/-- A place no instruction assigns keeps its first value. -/
theorem placeValues_of_unassigned {code : List Instr} {p : String}
    (hp : p ∉ code.map Instr.dest) : placeValues A b code p = initialValues A b p :=
  foldl_assign_of_unassigned _ hp

/-- A temporary's value is computed by the last instruction that assigns it, from the values its
operands have just before that instruction. -/
theorem placeValues_of_defining {pre post : List Instr} {i : Instr}
    (hn : isNumeral i.dest = false) (hpost : i.dest ∉ post.map Instr.dest) :
    placeValues A b (pre ++ i :: post) i.dest =
      (Memory.operation A i.op).bind fun f =>
        (placeValues A b pre i.left).bind fun l => (placeValues A b pre i.right).map (f l) := by
  rw [placeValues, List.foldl_append, List.foldl_cons, foldl_assign_of_unassigned _ hpost, assign,
    if_pos ⟨hn, rfl⟩]
  rfl

end Values

/-! ### The machine's memory -/

namespace Memory

variable {A : Arith α} {m : Memory α} {p d : String} {v : α}

/-- A name is missing from a list of pairs exactly when it is none of their names. -/
theorem find?_map_eq_none {l : List (String × α)} :
    (l.find? (·.1 == p)).map (·.2) = none ↔ p ∉ l.map Prod.fst := by
  simp only [Option.map_eq_none_iff, List.find?_eq_none, beq_iff_eq, List.mem_map, not_exists,
    not_and]

theorem isNumeral_eq_false_of_isTemporary (h : isTemporary p = true) : isNumeral p = false := by
  unfold isTemporary at h
  split at h
  · rename_i d rest hp
    cases hn : isNumeral p with
    | false => rfl
    | true =>
      have := ((isNumeral_iff p).mp hn).2 'T' (by simp [hp])
      exact absurd this (by decide)
  · cases h

/-- **What reading a place fails on.** A numeral the arithmetic refuses, and a temporary that is
neither held nor bound; any other place has a value. -/
theorem value_error_iff :
    (∃ f, m.value A p = .error f) ↔ Unreadable A m.globals (m.temps.map Prod.fst) p := by
  unfold value Unreadable
  by_cases hn : isNumeral p = true
  · -- a numeral is read, and is no temporary
    have ht : isTemporary p = false := by
      cases h : isTemporary p
      · rfl
      · simp [isNumeral_eq_false_of_isTemporary h] at hn
    cases A.numeral p <;> simp [hn, ht]
  · have hn' : isNumeral p = false := by simpa using hn
    rw [if_neg hn]
    split
    · -- a held temporary
      rename_i w hw
      have hmem : p ∈ m.temps.map Prod.fst := by
        by_contra h
        rw [find?_map_eq_none.mpr h] at hw
        cases hw
      simp [hn', hmem]
    · rename_i hw
      have hmem : p ∉ m.temps.map Prod.fst := find?_map_eq_none.mp hw
      split
      · -- a bound name
        rename_i w hg
        have hgm : p ∈ m.globals.map Prod.fst := by
          by_contra h
          have : m.globals.lookup p = none := find?_map_eq_none.mpr h
          rw [this] at hg
          cases hg
        simp [hn', hgm]
      · rename_i hg
        have hgm : p ∉ m.globals.map Prod.fst := find?_map_eq_none.mp hg
        cases isTemporary p <;> simp [hn', hmem, hgm]

/-- A place other than a new temporary reads as before it was added. -/
theorem value_push_of_ne (hp : p ≠ d) :
    value A { m with temps := m.temps ++ [(d, v)] } p = m.value A p := by
  have hnew : ([(d, v)] : List (String × α)).find? (·.1 == p) = none := by
    simp [Ne.symm hp]
  simp only [value, List.find?_append, hnew, Option.or_none]

/-- A new temporary reads as the value it was added with. -/
theorem value_push_self (hn : isNumeral d = false) (hd : d ∉ m.temps.map Prod.fst) :
    value A { m with temps := m.temps ++ [(d, v)] } d = .ok v := by
  have hold : (m.temps.find? (·.1 == d)).map (·.2) = none := find?_map_eq_none.mpr hd
  rw [Option.map_eq_none_iff] at hold
  simp [value, hn, List.find?_append, hold]

/-- The operators the machine knows are the four. -/
theorem operation_eq_none_iff (c : Char) : operation A c = none ↔ c ∉ ['+', '-', '*', '/'] := by
  unfold operation
  split <;> simp_all

/-- An instruction whose operands have values, whose operator is one of the four and whose
destination is a temporary without value adds that destination. -/
theorem exec_eq_ok_of {i : Instr} {l r : α} {f : α → α → α} (hl : m.value A i.left = .ok l)
    (hr : m.value A i.right = .ok r) (hop : operation A i.op = some f)
    (ht : isTemporary i.dest = true) (hfresh : i.dest ∉ m.temps.map Prod.fst) :
    m.exec A i = .ok { m with temps := m.temps ++ [(i.dest, f l r)] } := by
  have hnone := find?_map_eq_none.mpr hfresh
  rw [Option.map_eq_none_iff] at hnone
  simp [exec, hl, hr, hop, ht, hnone]

/-- **What one instruction does.** It runs only when both operands have values, the operator is
one of the four, and the destination is a temporary without value; it then adds the destination
with what the operator makes of the operands. -/
theorem exec_eq_ok {i : Instr} {m' : Memory α} (h : m.exec A i = .ok m') :
    ∃ l r f, m.value A i.left = .ok l ∧ m.value A i.right = .ok r ∧ operation A i.op = some f ∧
      isTemporary i.dest = true ∧ i.dest ∉ m.temps.map Prod.fst ∧
      m' = { m with temps := m.temps ++ [(i.dest, f l r)] } := by
  unfold exec at h
  rcases hl : m.value A i.left with _ | l <;> rw [hl] at h
  · cases h
  rcases hr : m.value A i.right with _ | r <;> simp only [hr] at h
  · cases h
  rcases hop : operation A i.op with _ | f <;> simp only [hop] at h
  · cases h
  by_cases ht : isTemporary i.dest = true
  · simp only [ht, Bool.not_true, Bool.false_eq_true, if_false] at h
    split at h
    · cases h
    · rename_i hfind
      have hnone : (m.temps.find? (·.1 == i.dest)).map (·.2) = none := by
        rw [Option.not_isSome_iff_eq_none.mp hfind]
        rfl
      exact ⟨l, r, f, rfl, rfl, rfl, ht, find?_map_eq_none.mp hnone, (Except.ok.inj h).symm⟩
  · simp [ht] at h

/-- An instruction fails exactly when an operand has no value, the operator is not one of the
four, or the destination is no temporary or has a value. -/
theorem exec_error_iff {i : Instr} :
    (∃ f, m.exec A i = .error f) ↔ Faulty A m.globals (m.temps.map Prod.fst) i := by
  unfold Faulty
  rw [← value_error_iff, ← value_error_iff, ← operation_eq_none_iff]
  constructor
  · -- an instruction without fault runs
    rintro ⟨e, he⟩
    by_contra hno
    simp only [not_or] at hno
    obtain ⟨hl, hr, hop, ht, hd⟩ := hno
    obtain ⟨l, hl⟩ : ∃ l, m.value A i.left = .ok l := by
      cases h : m.value A i.left with
      | error f => exact absurd ⟨f, h⟩ hl
      | ok l => exact ⟨l, rfl⟩
    obtain ⟨r, hr⟩ : ∃ r, m.value A i.right = .ok r := by
      cases h : m.value A i.right with
      | error f => exact absurd ⟨f, h⟩ hr
      | ok r => exact ⟨r, rfl⟩
    obtain ⟨f, hop⟩ := Option.ne_none_iff_exists'.mp hop
    rw [exec_eq_ok_of hl hr hop (by simpa using ht) hd] at he
    cases he
  · -- a fault contradicts every way the instruction could run
    intro hfault
    cases hx : m.exec A i with
    | error f => exact ⟨f, rfl⟩
    | ok m' =>
      exfalso
      obtain ⟨l, r, f, hl, hr, hop, ht, hfresh, -⟩ := exec_eq_ok hx
      rcases hfault with ⟨fl, hfl⟩ | ⟨fr, hfr⟩ | hop' | ht' | hd
      · rw [hl] at hfl; cases hfl
      · rw [hr] at hfr; cases hfr
      · rw [hop] at hop'; cases hop'
      · rw [ht] at ht'; cases ht'
      · exact hfresh hd

end Memory

/-! ### The invariant of a run -/

/-- The memory after running `done` from the bound names `b`: it holds the bindings, a value for
each destination of `done` in order, and every value it gives is the one `placeValues` gives. -/
structure Tracks (A : Arith α) (b : Bindings α) (done : List Instr) (m : Memory α) : Prop where
  globals : m.globals = b
  assigned : m.temps.map Prod.fst = done.map Instr.dest
  values : ∀ p v, m.value A p = .ok v → placeValues A b done p = some v

section Runs

variable {A : Arith α} {b : Bindings α}

/-- The first memory holds the bound names alone. -/
theorem tracks_start (A : Arith α) (b : Bindings α) : Tracks A b [] { globals := b } where
  globals := rfl
  assigned := rfl
  values p v h := by
    unfold Memory.value at h
    unfold placeValues initialValues
    by_cases hn : isNumeral p = true
    · cases hr : A.numeral p <;> simp_all [Except.toOption]
    · rcases hg : b.lookup p with _ | w
      · cases ht : isTemporary p <;> simp_all
      · simp_all

variable {done : List Instr} {m m' : Memory α} {i : Instr}

/-- **One instruction keeps the invariant**: its destination gets the value `assign` gives it,
and every other place keeps its value. -/
theorem Tracks.exec (h : Tracks A b done m) (hx : m.exec A i = .ok m') :
    Tracks A b (done ++ [i]) m' := by
  obtain ⟨l, r, f, hl, hr, hop, ht, hfresh, rfl⟩ := Memory.exec_eq_ok hx
  have hn := Memory.isNumeral_eq_false_of_isTemporary ht
  refine ⟨h.globals, by simp [h.assigned], fun p v hv => ?_⟩
  rw [placeValues_append_single, assign]
  by_cases hp : p = i.dest
  · subst hp
    rw [Memory.value_push_self hn hfresh, Except.ok.injEq] at hv
    rw [if_pos ⟨hn, rfl⟩, hop, h.values _ _ hl, h.values _ _ hr, ← hv]
    rfl
  · rw [Memory.value_push_of_ne hp] at hv
    rw [if_neg (fun h => hp h.2)]
    exact h.values p v hv

/-- Reading a place fails exactly on an unreadable place. -/
theorem Tracks.value_error_iff (h : Tracks A b done m) {p : String} :
    (∃ f, m.value A p = .error f) ↔ Unreadable A b (done.map Instr.dest) p := by
  rw [Memory.value_error_iff, h.globals, h.assigned]

/-- An instruction fails exactly on a fault. -/
theorem Tracks.exec_error_iff (h : Tracks A b done m) :
    (∃ f, m.exec A i = .error f) ↔ Faulty A b (done.map Instr.dest) i := by
  rw [Memory.exec_error_iff, h.globals, h.assigned]

/-- **A run stops exactly at a fault.** From a memory that tracks `done`, the rest of the code
fails exactly when one of its instructions is at fault after those before it, and a run that does
not fail tracks all the code. -/
theorem Tracks.runFrom (h : Tracks A b done m) (code : List Instr) (n : Nat) :
    ((∃ e, (Memory.runFrom A n m code).2 = some e) ↔
        CodeFault A b (done.map Instr.dest) code) ∧
      ((Memory.runFrom A n m code).2 = none →
        Tracks A b (done ++ code) (Memory.runFrom A n m code).1) := by
  induction code generalizing done m n with
  | nil => simpa [Memory.runFrom] using h
  | cons i rest ih =>
    rw [codeFault_cons]
    rcases hx : m.exec A i with f | m₁
    · have hf : Faulty A b (done.map Instr.dest) i := h.exec_error_iff.mp ⟨f, hx⟩
      simp [Memory.runFrom, hx, hf]
    · -- the first instruction runs, and the rest runs from the memory it leaves
      have hnf : ¬ Faulty A b (done.map Instr.dest) i := fun hf => by
        obtain ⟨f, hf⟩ := h.exec_error_iff.mpr hf
        rw [hx] at hf
        cases hf
      have := ih (h.exec hx) (n + 1)
      simp only [List.map_append, List.map_cons, List.map_nil, List.append_assoc,
        List.singleton_append] at this
      simpa [Memory.runFrom, hx, hnf] using this

end Runs

/-! ### Evaluation -/

section Evaluation

variable {A : Arith α}

/-- **Evaluation fails exactly on a fault**: once the machine has started, an instruction that
cannot run after those before it, or a place without value after all of them. -/
theorem eval_error_iff (A : Arith α) (code : List Instr) (p : String) {b : Bindings α}
    (hb : ∀ q ∈ b, q.1 ≠ "") :
    (∃ e, eval A code p b = .error e) ↔
      CodeFault A b [] code ∨ Unreadable A b (code.map Instr.dest) p := by
  obtain ⟨hrun, hdone⟩ := (tracks_start A b).runFrom code 1
  rw [eval_of_start (start_eq_some hb)]
  unfold Memory.eval Memory.run
  rcases hr : Memory.runFrom A 1 { globals := b } code with ⟨m, _ | e⟩
  · rw [hr] at hrun hdone
    have ht : Tracks A b code m := by simpa using hdone rfl
    have hnf : ¬ CodeFault A b [] code := fun hf => by simpa using hrun.mpr hf
    rw [← ht.value_error_iff]
    dsimp only
    rcases m.value A p with f | v <;> simp [hnf]
  · rw [hr] at hrun
    simp [(show CodeFault A b [] code by simpa using hrun.mp ⟨e, rfl⟩)]

/-- **What evaluation gives is the value the code assigns the place.** -/
theorem eval_ok_placeValues {code : List Instr} {p : String} {b : Bindings α} {v : α}
    (hb : ∀ q ∈ b, q.1 ≠ "") (h : eval A code p b = .ok v) : placeValues A b code p = some v := by
  obtain ⟨-, hdone⟩ := (tracks_start A b).runFrom code 1
  rw [eval_of_start (start_eq_some hb)] at h
  unfold Memory.eval Memory.run at h
  rcases hr : Memory.runFrom A 1 { globals := b } code with ⟨m, _ | e⟩ <;> rw [hr] at h hdone <;>
    dsimp only at h
  · have ht : Tracks A b code m := by simpa using hdone rfl
    rcases hv : m.value A p with f | w <;> rw [hv] at h
    · cases h
    · cases h
      exact ht.values p _ hv
  · cases h

end Evaluation

/-! ### Doubles -/

namespace Double

theorem digit_facts {c : Char} (hc : '0' ≤ c ∧ c ≤ '9') :
    c ≠ '+' ∧ c ≠ '-' ∧ c ≠ '_' ∧ c ≠ '.' ∧ c ≠ 'i' ∧ c ≠ 'I' ∧ c ≠ 'n' ∧ c ≠ 'N' ∧
      asciiLower c = c := by
  obtain ⟨h1, h2⟩ := hc
  have hupper : ¬('A' ≤ c ∧ c ≤ 'Z') := fun h => by
    simp only [Char.le_def, UInt32.le_iff_toNat_le] at h1 h2 h
    simp at h1 h2 h
    omega
  -- each named character lies outside the digits
  refine ⟨?_, ?_, ?_, ?_, ?_, ?_, ?_, ?_, by simp [asciiLower, hupper]⟩ <;>
    (rintro rfl; revert h1 h2; decide)

/-- Digits alone are all read: they make the mantissa, and nothing else changes but the count. -/
theorem readDigits_digits (d : Digits) (hd : d.sawDot = false) {cs : List Char}
    (hcs : ∀ c ∈ cs, '0' ≤ c ∧ c ≤ '9') :
    ∃ mant, readDigits false d cs =
      ({ d with mant, sawDigits := d.sawDigits || !cs.isEmpty, taken := d.taken + cs.length },
        []) := by
  induction cs generalizing d with
  | nil => exact ⟨d.mant, by simp [readDigits]⟩
  | cons c cs ih =>
    have hc := hcs c (by simp)
    obtain ⟨-, -, hu, hdot, -, -, -, -, -⟩ := digit_facts hc
    obtain ⟨mant, hm⟩ := ih ⟨d.mant * 10 + (c.toNat - 48), d.fracDigits, d.sawDot, true,
      d.underscores, d.taken + 1⟩ hd (fun x hx => hcs x (by simp [hx]))
    refine ⟨mant, ?_⟩
    rw [readDigits, if_neg hu, if_neg hdot, digitValue, if_pos hc]
    simp only [hd] at hm ⊢
    simpa [Nat.add_assoc, Nat.add_comm 1] using hm

/-- A numeral of digits scans whole, as a positive decimal mantissa without exponent. -/
theorem scanNumeral_digits {c : Char} {cs : List Char} (hd : ∀ x ∈ c :: cs, '0' ≤ x ∧ x ≤ '9') :
    ∃ mant, scanNumeral (c :: cs) = some ⟨false, false, mant, 0, cs.length + 1⟩ := by
  obtain ⟨h1, h2, -, -, -, -, -, -, -⟩ := digit_facts (hd c (by simp))
  obtain ⟨mant, hm⟩ := readDigits_digits {} rfl hd
  refine ⟨mant, ?_⟩
  unfold scanNumeral
  simp [h1, h2]
  split
  · -- a leading zero is no hexadecimal prefix, as a digit follows it
    rename_i x r heq
    have hx : asciiLower x ≠ 'x' := by
      obtain ⟨-, -, -, -, -, -, -, -, hlow⟩ := digit_facts (hd x (by simp_all))
      rw [hlow]
      rintro rfl
      have := hd 'x' (by simp_all)
      revert this
      decide
    simp [hx, hm]
  · simp [hm]

/-- Rounding refuses only a value beyond the largest double. -/
theorem roundQuotient_error {neg : Bool} {num den : Nat} {e : ReadError}
    (h : roundQuotient neg num den = .error e) : ∃ v, e = .range v := by
  unfold roundQuotient at h
  split at h
  · cases h
  · cases h
    exact ⟨_, rfl⟩

/-- A scanned numeral is refused only for being out of range. -/
theorem Scanned.value_error {s : Scanned} {e : ReadError} (h : s.value = .error e) :
    ∃ v, e = .range v := by
  dsimp only [Scanned.value] at h
  split_ifs at h
  · exact ⟨_, (Except.error.inj h).symm⟩
  · exact roundQuotient_error h
  · exact roundQuotient_error h
  · exact ⟨_, (Except.error.inj h).symm⟩
  · exact roundQuotient_error h
  · exact roundQuotient_error h

/-- **Digits are refused only as out of range.** A numeral of digits is always a numeral to the
reader, which refuses it only when its value rounds beyond the largest double. -/
theorem read_digits_error {q : String} (hq : isNumeral q = true) {e : ReadError}
    (h : read q = .error e) : ∃ v, e = .range v := by
  obtain ⟨hne, hd⟩ := (isNumeral_iff q).mp hq
  obtain ⟨c, cs, hcs⟩ := List.exists_cons_of_ne_nil hne
  rw [hcs] at hd
  obtain ⟨h1, h2, -, -, hi, hI, hn, hN, -⟩ := digit_facts (hd c (by simp))
  obtain ⟨mant, hm⟩ := scanNumeral_digits hd
  have hs : specialPrefix (c :: cs) = none := by simp [specialPrefix, h1, h2, hi, hI, hn, hN]
  simp only [read, hcs, hs, hm, List.length_cons, if_true] at h
  exact Scanned.value_error h

end Double

/-- **Running code on doubles.** When no bound name is empty, the machine starts; evaluating
fails exactly when an instruction cannot run after those before it or the place has no value
after them all, where a numeral is at fault only when it is out of range; otherwise it gives the
value the code assigns the place. -/
theorem double_eval_faults (code : List Instr) (p : String) (b : Bindings Float)
    (hb : ∀ q ∈ b, q.1 ≠ "") :
    Memory.start b = some { globals := b } ∧
      ((∃ e, eval Arith.float code p b = .error e) ↔
        CodeFault Arith.float b [] code ∨ Unreadable Arith.float b (code.map Instr.dest) p) ∧
      (∀ v, eval Arith.float code p b = .ok v → placeValues Arith.float b code p = some v) ∧
      (∀ q e, isNumeral q = true → Arith.float.numeral q = .error e → ∃ v, e = .range v) :=
  ⟨start_eq_some hb, eval_error_iff Arith.float code p hb, fun _ h => eval_ok_placeValues hb h,
    fun _ _ hq h => Double.read_digits_error hq h⟩

/-- The machine evaluating `x + 1` into `T1` with `x` bound to two. -/
theorem bound_double_eval_faults :
    let code : List Instr := [⟨'+', "x", "1", "T1"⟩]
    let b : Bindings Float := [("x", 2)]
    (∀ q ∈ b, q.1 ≠ "") ∧
      (Memory.start b = some { globals := b } ∧
        ((∃ e, eval Arith.float code "T1" b = .error e) ↔
          CodeFault Arith.float b [] code ∨ Unreadable Arith.float b (code.map Instr.dest) "T1") ∧
        (∀ v, eval Arith.float code "T1" b = .ok v →
          placeValues Arith.float b code "T1" = some v) ∧
        (∀ q e, isNumeral q = true → Arith.float.numeral q = .error e → ∃ v, e = .range v)) := by
  intro code b
  have hb : ∀ q ∈ b, q.1 ≠ "" := by simp [b]
  exact ⟨hb, double_eval_faults code "T1" b hb⟩

/-- A bound empty name stops the machine before it starts: no tag can be made for it. -/
theorem empty_name_stops_machine : Memory.start [("", (1 : Float))] = none := by
  simp [Memory.start]

end ExprTranslate
