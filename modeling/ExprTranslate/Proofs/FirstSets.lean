import ExprTranslate.Proofs.SymbolSets
import ExprTranslate.Proofs.Derivations
import Mathlib.Algebra.Order.BigOperators.Group.Finset
/-!
# The FIRST passes of the analysis

The analysis keeps, for each kind, whether it is nullable and its FIRST and FOLLOW sets in an
array of eight slots, and applies the rules in passes until a pass changes nothing.

* `firstIn` and `nullableIn` read FIRST and nullability of a sequence off the slots
  (`mem_firstIn_cons`, `nullableIn_cons`); they are sound when the slots are (`Sound.firstIn`)
  and complete when the slots are closed under the rules (`ClosedFirst.firstIn`);
* a pass is a fold whose flag records whether a step changed the slots (`flagged`): a pass that
  raises the flag makes a weight grow, one that leaves it down changed nothing and found each
  step satisfied (`foldl_flagged_quiet`);
* `Saturates` is the loop of passes until one reports no change; with fuel beyond the room a
  growing weight has under its bound, `saturate` runs that loop to its end
  (`saturate_saturates`);
* the FIRST passes end (`firstSlots_saturates`) with slots that are sound and closed under the
  FIRST rules (`firstSlots_sound`, `firstSlots_closed`).
-/

namespace ExprTranslate

instance : Fintype Kind where
  elems := ⟨Kind.all, by decide⟩
  complete k := by cases k <;> decide

theorem Kind.code_lt (k : Kind) : k.code < 8 := by cases k <;> decide

theorem Kind.code_injective {k k' : Kind} (h : k.code = k'.code) : k = k' := by
  revert h
  cases k <;> cases k' <;> decide

/-! ### Slots -/

section Slots

variable {info info' : Array KindInfo}

theorem infoOf_modify (h : info.size = 8) (k k' : Kind) (f : KindInfo → KindInfo) :
    infoOf (info.modify k'.code f) k = if k = k' then f (infoOf info k) else infoOf info k := by
  have hk : k.code < info.size := h ▸ k.code_lt
  unfold infoOf
  rw [Array.getElem?_modify]
  by_cases he : k = k'
  · subst he
    simp [Array.getElem?_eq_getElem hk]
  · have hc : k'.code ≠ k.code := fun hc => he (Kind.code_injective hc).symm
    simp [he, hc]

/-- Two arrays of eight slots that hold the same information for each kind are equal. -/
theorem info_ext (h : info.size = 8) (h' : info'.size = 8)
    (he : ∀ k, infoOf info k = infoOf info' k) : info = info' := by
  refine Array.ext (h.trans h'.symm) fun i hi hi' => ?_
  have hcodes : ∀ i < 8, ∃ k : Kind, k.code = i := by decide
  obtain ⟨k, rfl⟩ := hcodes i (h ▸ hi)
  have hk := he k
  unfold infoOf at hk
  rw [Array.getElem?_eq_getElem hi, Array.getElem?_eq_getElem hi'] at hk
  simpa using hk

/-- Writing back what a slot holds changes nothing. -/
theorem modify_infoOf (h : info.size = 8) (k : Kind) : info.modify k.code (fun _ => infoOf info k) = info :=
  info_ext (by rw [Array.size_modify, h]) h fun j => by
    rw [infoOf_modify h]
    split <;> simp_all

end Slots

/-! ### FIRST of a sequence, read off the slots -/

/-- Whether a symbol stands for nothing by the slots: an action, `ε`, or a non-terminal marked
nullable. -/
def GSym.vanishes (info : Array KindInfo) : GSym → Bool
  | .action _ => true
  | .terminal s => s = .empty
  | .nonterminal k => (infoOf info k).nullable

/-- `a` begins a symbol by the slots: a terminal other than `ε` that is `a`, or a non-terminal
with `a` in FIRST. -/
def GSym.starts (info : Array KindInfo) (a : Symbol) : GSym → Prop
  | .action _ => False
  | .terminal s => s ≠ .empty ∧ s = a
  | .nonterminal k => a ∈ (infoOf info k).first

/-- FIRST of a sequence by the slots. -/
def firstIn (info : Array KindInfo) (seq : List GSym) : SymSet := (firstOfSeqWith info [] seq).1

/-- Whether a sequence is nullable by the slots. -/
def nullableIn (info : Array KindInfo) (seq : List GSym) : Bool := (firstOfSeqWith info [] seq).2

section Sequences

variable {info : Array KindInfo} {acc : SymSet} {u v : List GSym} {s : GSym} {a : Symbol}

theorem firstOfSeqWith_snd (acc : SymSet) (seq : List GSym) :
    (firstOfSeqWith info acc seq).2 = seq.all (GSym.vanishes info) := by
  induction seq generalizing acc with
  | nil => rfl
  | cons s rest ih =>
    cases s with
    | action id => simp [firstOfSeqWith, GSym.vanishes, ih]
    | terminal t => by_cases ht : t = .empty <;> simp [firstOfSeqWith, GSym.vanishes, ht, ih]
    | nonterminal k =>
      cases hk : (infoOf info k).nullable <;> simp [firstOfSeqWith, GSym.vanishes, hk, ih]

theorem mem_firstOfSeqWith (acc : SymSet) (seq : List GSym) :
    a ∈ (firstOfSeqWith info acc seq).1 ↔ a ∈ acc ∨ a ∈ firstIn info seq := by
  induction seq generalizing acc with
  | nil => simp [firstIn, firstOfSeqWith]
  | cons s rest ih =>
    cases s with
    | action id => exact ih acc
    | terminal t =>
      by_cases ht : t = .empty
      · simp only [firstIn, firstOfSeqWith, ht, if_true]
        exact ih acc
      · simp [firstIn, firstOfSeqWith, ht, or_comm]
    | nonterminal k =>
      cases hk : (infoOf info k).nullable
      · simp [firstIn, firstOfSeqWith, hk]
      · simp only [firstIn, firstOfSeqWith, hk, if_true]
        rw [ih, ih (SymSet.union [] _)]
        simp only [SymSet.mem_union, List.not_mem_nil, false_or]
        tauto

@[simp] theorem nullableIn_nil : nullableIn info [] = true := rfl

@[simp] theorem firstIn_nil : firstIn info [] = [] := rfl

theorem nullableIn_cons : nullableIn info (s :: u) = (s.vanishes info && nullableIn info u) := by
  simp [nullableIn, firstOfSeqWith_snd]

theorem mem_firstIn_cons :
    a ∈ firstIn info (s :: u) ↔ s.starts info a ∨ (s.vanishes info = true ∧ a ∈ firstIn info u) := by
  cases s with
  | action id => simp [firstIn, firstOfSeqWith, GSym.starts, GSym.vanishes]
  | terminal t =>
    by_cases ht : t = .empty
    · simp [firstIn, firstOfSeqWith, GSym.starts, GSym.vanishes, ht]
    · simp [firstIn, firstOfSeqWith, GSym.starts, GSym.vanishes, ht, eq_comm]
  | nonterminal k =>
    cases hk : (infoOf info k).nullable
    · simp [firstIn, firstOfSeqWith, GSym.starts, GSym.vanishes, hk]
    · simp only [firstIn, firstOfSeqWith, hk, if_true, GSym.starts, GSym.vanishes, true_and]
      rw [mem_firstOfSeqWith]
      simp [firstIn]

/-- Slots that agree on nullability and FIRST read the same FIRST of every sequence. -/
theorem firstOfSeqWith_congr {info' : Array KindInfo}
    (h : ∀ k, (infoOf info' k).nullable = (infoOf info k).nullable ∧
      (infoOf info' k).first = (infoOf info k).first) (acc : SymSet) (seq : List GSym) :
    firstOfSeqWith info' acc seq = firstOfSeqWith info acc seq := by
  induction seq generalizing acc with
  | nil => rfl
  | cons s rest ih =>
    cases s with
    | action id => exact ih acc
    | terminal t => by_cases ht : t = .empty <;> simp [firstOfSeqWith, ht, ih]
    | nonterminal k => simp [firstOfSeqWith, (h k).1, (h k).2, ih]

end Sequences

/-! ### What the slots mean -/

/-- The slots are sound for a grammar: a kind marked nullable derives the empty string, and a
terminal in a kind's FIRST begins a form the kind derives. -/
structure Sound (g : Grammar) (info : Array KindInfo) : Prop where
  nullable : ∀ k, (infoOf info k).nullable = true → g.DerivesEmpty [.nonterminal k]
  first : ∀ k, ∀ a ∈ (infoOf info k).first, g.BeginsWith [.nonterminal k] a

/-- The slots are closed under the FIRST rules of a grammar: each production's right-hand side
passes its nullability and its FIRST to the left-hand side. -/
def ClosedFirst (g : Grammar) (info : Array KindInfo) : Prop :=
  ∀ p ∈ g.rules, (nullableIn info p.rhs = true → (infoOf info p.lhs).nullable = true) ∧
    firstIn info p.rhs ⊆ (infoOf info p.lhs).first

section Meaning

variable {g : Grammar} {info : Array KindInfo} {u w : List GSym} {a : Symbol}

theorem GSym.derivesEmpty_of_vanishes (hs : Sound g info) {s : GSym} (h : s.vanishes info = true) :
    g.DerivesEmpty [s] := by
  cases s with
  | action id => exact derivesEmpty_silent rfl
  | terminal t => exact derivesEmpty_silent h
  | nonterminal k => exact hs.nullable k h

theorem Sound.nullableIn (hs : Sound g info) (h : nullableIn info u = true) : g.DerivesEmpty u := by
  induction u with
  | nil => exact derivesEmpty_nil
  | cons s u ih =>
    rw [nullableIn_cons, Bool.and_eq_true] at h
    exact Grammar.DerivesEmpty.append (u := [s]) (GSym.derivesEmpty_of_vanishes hs h.1) (ih h.2)

theorem Sound.firstIn (hs : Sound g info) (h : a ∈ firstIn info u) : g.BeginsWith u a := by
  induction u with
  | nil => simp at h
  | cons s u ih =>
    rcases mem_firstIn_cons.mp h with hstart | ⟨hvan, hrest⟩
    · have hbegin : g.BeginsWith [s] a := by
        cases s with
        | action id => exact hstart.elim
        | terminal t =>
          obtain ⟨hne, rfl⟩ := hstart
          exact beginsWith_terminal hne
        | nonterminal k => exact hs.first k a hstart
      exact hbegin.append_right u
    · exact Grammar.BeginsWith.append_left (u := [s]) (GSym.derivesEmpty_of_vanishes hs hvan) (ih hrest)

/-- Closed slots read off every derivation: a form derived to silent symbols is nullable, and
the first terminal of a derived form is in FIRST. -/
theorem ClosedFirst.derives (hc : ClosedFirst g info) (hd : g.Derives u w) :
    ((∀ s ∈ w, s.silent = true) → nullableIn info u = true) ∧
      ∀ a, (w.filter fun s => !s.silent).head? = some (.terminal a) → a ∈ firstIn info u := by
  induction hd with
  | nil => simp
  | keep s _ ih =>
    obtain ⟨ihn, ihf⟩ := ih
    refine ⟨fun hsil => ?_, fun a ha => ?_⟩
    · have hs := hsil s (List.mem_cons_self ..)
      rw [nullableIn_cons, ihn fun t ht => hsil t (List.mem_cons_of_mem _ ht), Bool.and_true]
      cases s <;> simp_all [GSym.silent, GSym.vanishes]
    · rw [mem_firstIn_cons]
      cases hs : s.silent
      · simp only [List.filter_cons, hs, Bool.not_false, if_true, List.head?_cons,
          Option.some.injEq] at ha
        subst ha
        left
        simp_all [GSym.silent, GSym.starts]
      · simp only [List.filter_cons, hs, Bool.not_true] at ha
        right
        refine ⟨?_, ihf a (by simpa using ha)⟩
        cases s <;> simp_all [GSym.silent, GSym.vanishes]
  | @expand p u w₁ w₂ hp _ _ ih₁ ih₂ =>
    obtain ⟨hnull, hfirst⟩ := hc p hp
    obtain ⟨ihn₁, ihf₁⟩ := ih₁
    obtain ⟨ihn₂, ihf₂⟩ := ih₂
    refine ⟨fun hsil => ?_, fun a ha => ?_⟩
    · have hl : (infoOf info p.lhs).nullable = true :=
        hnull (ihn₁ fun t ht => hsil t (List.mem_append_left _ ht))
      rw [nullableIn_cons, ihn₂ fun t ht => hsil t (List.mem_append_right _ ht)]
      simp [GSym.vanishes, hl]
    · rw [mem_firstIn_cons]
      rw [List.filter_append] at ha
      cases hf : w₁.filter fun s => !s.silent with
      | nil =>
        -- the right-hand side derived only silent symbols: the left-hand side is nullable
        have hsil : ∀ t ∈ w₁, t.silent = true := by
          intro t ht
          have := List.filter_eq_nil_iff.mp hf t ht
          simpa using this
        rw [hf, List.nil_append] at ha
        exact .inr ⟨by simp [GSym.vanishes, hnull (ihn₁ hsil)], ihf₂ a ha⟩
      | cons t ts =>
        rw [hf, List.cons_append, List.head?_cons] at ha
        exact .inl (hfirst (ihf₁ a (by rw [hf, List.head?_cons, ha])))

theorem ClosedFirst.nullableIn (hc : ClosedFirst g info) (h : g.DerivesEmpty u) :
    nullableIn info u = true := by
  obtain ⟨w, hw, hsil⟩ := h
  exact (hc.derives hw).1 hsil

theorem ClosedFirst.firstIn (hc : ClosedFirst g info) (h : g.BeginsWith u a) :
    a ∈ firstIn info u := by
  obtain ⟨w, hw, hhead⟩ := h
  exact (hc.derives hw).2 a hhead

end Meaning

/-! ### Passes -/

section Flagged

variable {α β : Type}

/-- A step of a pass: `f` updates the state, and the flag records whether any step so far
changed it. -/
def flagged (f : α → β → α) (grew : α → β → Bool) (st : α × Bool) (b : β) : α × Bool :=
  (f st.1 b, st.2 || grew st.1 b)

variable {f : α → β → α} {grew : α → β → Bool} {l : List β} {I : α → Prop}

theorem foldl_flagged_fst (l : List β) (a : α) (c : Bool) :
    (l.foldl (flagged f grew) (a, c)).1 = l.foldl f a := by
  induction l generalizing a c with
  | nil => rfl
  | cons b l ih => exact ih (f a b) _

theorem foldl_flagged_raised (l : List β) (a : α) : (l.foldl (flagged f grew) (a, true)).2 = true := by
  induction l generalizing a with
  | nil => rfl
  | cons b l ih => exact ih (f a b)

/-- An invariant of every step holds after the pass. -/
theorem foldl_invariant (hI : ∀ a b, b ∈ l → I a → I (f a b)) {a : α} (ha : I a) :
    I (l.foldl f a) := by
  induction l generalizing a with
  | nil => exact ha
  | cons b l ih =>
    exact ih (fun a' b' hb' => hI a' b' (List.mem_cons_of_mem _ hb')) (hI a b (List.mem_cons_self ..) ha)

/-- A pass whose flag stays down changed nothing, and no step found anything to change. -/
theorem foldl_flagged_quiet (hquiet : ∀ a b, b ∈ l → I a → grew a b = false → f a b = a)
    {a : α} (ha : I a) (h : (l.foldl (flagged f grew) (a, false)).2 = false) :
    l.foldl f a = a ∧ ∀ b ∈ l, grew a b = false := by
  induction l with
  | nil => exact ⟨rfl, by simp⟩
  | cons b l ih =>
    have hb : grew a b = false := by
      cases hg : grew a b
      · rfl
      · simp only [List.foldl_cons, flagged, hg, Bool.false_or] at h
        rw [foldl_flagged_raised] at h
        cases h
    have hfab : f a b = a := hquiet a b (List.mem_cons_self ..) ha hb
    simp only [List.foldl_cons, flagged, hb, Bool.false_or, hfab] at h
    obtain ⟨hl, hall⟩ := ih (fun a' b' hb' => hquiet a' b' (List.mem_cons_of_mem _ hb')) h
    refine ⟨by rw [List.foldl_cons, hfab, hl], fun b' hb' => ?_⟩
    rcases List.mem_cons.mp hb' with rfl | hb'
    · exact hb
    · exact hall b' hb'

/-- A pass never lowers a weight that no step lowers, and raises it when its flag goes up. -/
theorem foldl_flagged_weight (w : α → Nat) (hI : ∀ a b, b ∈ l → I a → I (f a b))
    (hmono : ∀ a b, b ∈ l → I a → w a ≤ w (f a b))
    (hgrow : ∀ a b, b ∈ l → I a → grew a b = true → w a < w (f a b)) {a : α} (ha : I a) (c : Bool) :
    w a ≤ w (l.foldl f a) ∧
      ((l.foldl (flagged f grew) (a, c)).2 = true → c = true ∨ w a < w (l.foldl f a)) := by
  induction l generalizing a c with
  | nil => exact ⟨le_refl _, fun h => .inl h⟩
  | cons b l ih =>
    have hb := List.mem_cons_self (a := b) (l := l)
    have hab := hmono a b hb ha
    obtain ⟨hle, hraise⟩ := ih (fun a' b' hb' => hI a' b' (List.mem_cons_of_mem _ hb'))
      (fun a' b' hb' => hmono a' b' (List.mem_cons_of_mem _ hb'))
      (fun a' b' hb' => hgrow a' b' (List.mem_cons_of_mem _ hb')) (hI a b hb ha) (c || grew a b)
    refine ⟨le_trans hab hle, fun h => ?_⟩
    rcases hraise h with hc | hlt
    · cases hc' : c
      · rw [hc', Bool.false_or] at hc
        exact .inr (lt_of_lt_of_le (hgrow a b hb ha hc) hle)
      · exact .inl rfl
    · exact .inr (lt_of_le_of_lt hab hlt)

end Flagged

/-- The loop of passes from some slots: passes run until one reports that it changed nothing,
and the loop ends with that pass's slots. -/
inductive Saturates (pass : Array KindInfo → Array KindInfo × Bool) :
    Array KindInfo → Array KindInfo → Prop
  | stop {info info' : Array KindInfo} : pass info = (info', false) → Saturates pass info info'
  | next {info info' r : Array KindInfo} : pass info = (info', true) → Saturates pass info' r →
      Saturates pass info r

section Saturate

variable {pass : Array KindInfo → Array KindInfo × Bool} {I : Array KindInfo → Prop}

/-- With fuel beyond the room that a weight grown by every changing pass has under its bound,
`saturate` runs the loop to its end. -/
theorem saturate_saturates (w : Array KindInfo → Nat) (W : Nat) (hI : ∀ i, I i → I (pass i).1)
    (hgrow : ∀ i, I i → (pass i).2 = true → w i < w (pass i).1) (hbound : ∀ i, I i → w i ≤ W) :
    ∀ (fuel : Nat) (info : Array KindInfo), I info → W < fuel + w info →
      Saturates pass info (saturate pass fuel info) := by
  intro fuel
  induction fuel with
  | zero =>
    intro info hi hroom
    have := hbound info hi
    omega
  | succ fuel ih =>
    intro info hi hroom
    rcases hp : pass info with ⟨info', c⟩
    cases c with
    | false =>
      simp only [saturate, hp]
      exact .stop hp
    | true =>
      simp only [saturate, hp, if_true]
      have hlt : w info < w info' := by simpa [hp] using hgrow info hi (by simp [hp])
      have hi' : I info' := by simpa [hp] using hI info hi
      exact .next hp (ih info' hi' (by omega))

/-- The loop keeps an invariant of the passes. -/
theorem Saturates.invariant {info r : Array KindInfo} (h : Saturates pass info r)
    (hI : ∀ i, I i → I (pass i).1) (hi : I info) : I r := by
  induction h with
  | stop hp => simpa [hp] using hI _ hi
  | next hp _ ih => exact ih (by simpa [hp] using hI _ hi)

/-- The loop ends with a pass that reported no change, from slots that keep the invariant. -/
theorem Saturates.last {info r : Array KindInfo} (h : Saturates pass info r)
    (hI : ∀ i, I i → I (pass i).1) (hi : I info) : ∃ i, I i ∧ pass i = (r, false) := by
  induction h with
  | stop hp => exact ⟨_, hi, hp⟩
  | next hp _ ih => exact ih (by simpa [hp] using hI _ hi)

end Saturate

/-! ### Weights of the slots -/

section Weight

variable {info : Array KindInfo}

/-- A measure of the slots: the sum over the kinds of a measure of each slot. -/
def slotWeight (w : KindInfo → Nat) (info : Array KindInfo) : Nat := ∑ k : Kind, w (infoOf info k)

variable {w : KindInfo → Nat}

theorem slotWeight_modify_le (h : info.size = 8) {k : Kind} {f : KindInfo → KindInfo}
    (hk : w (infoOf info k) ≤ w (f (infoOf info k))) :
    slotWeight w info ≤ slotWeight w (info.modify k.code f) := by
  refine Finset.sum_le_sum fun j _ => ?_
  rw [infoOf_modify h]
  split
  · subst j; exact hk
  · exact le_refl _

theorem slotWeight_modify_lt (h : info.size = 8) {k : Kind} {f : KindInfo → KindInfo}
    (hk : w (infoOf info k) < w (f (infoOf info k))) :
    slotWeight w info < slotWeight w (info.modify k.code f) := by
  refine Finset.sum_lt_sum (fun j _ => ?_) ⟨k, Finset.mem_univ _, by rw [infoOf_modify h, if_pos rfl]; exact hk⟩
  rw [infoOf_modify h]
  split
  · subst j; exact hk.le
  · exact le_refl _

theorem slotWeight_le {B : Nat} (hb : ∀ k, w (infoOf info k) ≤ B) : slotWeight w info ≤ 8 * B :=
  calc slotWeight w info ≤ ∑ _k : Kind, B := Finset.sum_le_sum fun k _ => hb k
    _ = 8 * B := by
      rw [Finset.sum_const_nat fun _ _ => rfl, Finset.card_univ]
      rfl

end Weight

/-! ### The terminals of a grammar -/

/-- The terminals of the right-hand sides of some productions. -/
def rhsTerminals (rules : List Production) : List Symbol :=
  rules.flatMap fun p => p.rhs.filterMap fun
    | .terminal t => some t
    | _ => none

theorem mem_rhsTerminals {rules : List Production} {p : Production} {t : Symbol} (hp : p ∈ rules)
    (ht : .terminal t ∈ p.rhs) : t ∈ rhsTerminals rules :=
  List.mem_flatMap.mpr ⟨p, hp, List.mem_filterMap.mpr ⟨_, ht, rfl⟩⟩

theorem exists_of_mem_rhsTerminals {rules : List Production} {t : Symbol}
    (ht : t ∈ rhsTerminals rules) : ∃ p ∈ rules, .terminal t ∈ p.rhs := by
  simp only [rhsTerminals, List.mem_flatMap, List.mem_filterMap] at ht
  obtain ⟨p, hp, s, hs, hst⟩ := ht
  cases s <;> simp at hst
  subst hst
  exact ⟨p, hp, hs⟩

theorem length_rhsTerminals (rules : List Production) : (rhsTerminals rules).length ≤ rhsSize rules := by
  induction rules with
  | nil => exact le_refl _
  | cons p ps ih =>
    simp only [rhsTerminals, List.flatMap_cons, List.length_append, rhsSize] at ih ⊢
    exact Nat.add_le_add (List.length_filterMap_le _ _) ih

/-- FIRST of a sequence holds terminals of the sequence and of the slots' FIRST sets. -/
theorem firstIn_subset {info : Array KindInfo} {T : List Symbol} {seq : List GSym}
    (hinfo : ∀ k, (infoOf info k).first ⊆ T) (hseq : ∀ t, .terminal t ∈ seq → t ∈ T) :
    firstIn info seq ⊆ T := by
  induction seq with
  | nil => simp
  | cons s rest ih =>
    intro a ha
    rcases mem_firstIn_cons.mp ha with hstart | ⟨_, hrest⟩
    · cases s with
      | action id => exact hstart.elim
      | terminal t =>
        obtain ⟨_, rfl⟩ := hstart
        exact hseq _ (List.mem_cons_self ..)
      | nonterminal k => exact hinfo k hstart
    · exact ih (fun t ht => hseq t (List.mem_cons_of_mem _ ht)) hrest

/-! ### The FIRST passes -/

/-- The FIRST rule of a production: its left-hand side gains FIRST of its right-hand side, and
becomes nullable when the right-hand side is. -/
def firstRule (info : Array KindInfo) (p : Production) : Array KindInfo :=
  let old := infoOf info p.lhs
  info.modify p.lhs.code fun _ =>
    { old with first := old.first.union (firstIn info p.rhs), nullable := old.nullable || nullableIn info p.rhs }

/-- Whether the FIRST rule of a production changes the slots, as the pass decides it. -/
def firstGrows (info : Array KindInfo) (p : Production) : Bool :=
  let old := infoOf info p.lhs
  (old.first.union (firstIn info p.rhs)).length != old.first.length ||
    (nullableIn info p.rhs && !old.nullable)

theorem firstPass_eq (rules : List Production) (info : Array KindInfo) :
    firstPass rules info = rules.foldl (flagged firstRule firstGrows) (info, false) := by
  unfold firstPass
  congr 1
  funext st p
  obtain ⟨info, c⟩ := st
  simp [flagged, firstRule, firstGrows, firstIn, nullableIn, Bool.or_assoc]

/-- What the FIRST passes keep: eight slots whose FIRST sets are sorted, hold terminals of the
grammar, and are sound with the nullable marks, and whose FOLLOW sets are still empty. -/
structure FirstInv (g : Grammar) (info : Array KindInfo) : Prop where
  size : info.size = 8
  noFollow : ∀ k, (infoOf info k).follow = []
  sorted : ∀ k, SymSet.Sorted (infoOf info k).first
  bounded : ∀ k, (infoOf info k).first ⊆ rhsTerminals g.rules
  sound : Sound g info

/-- The measure the FIRST passes raise: the sizes of the FIRST sets and the nullable marks. -/
def firstWeight : Array KindInfo → Nat :=
  slotWeight fun i => i.first.length + i.nullable.toNat

section FirstPasses

variable {g : Grammar} {info : Array KindInfo} {p : Production}

theorem infoOf_firstRule (h : info.size = 8) (k : Kind) :
    infoOf (firstRule info p) k = if k = p.lhs then
      { infoOf info p.lhs with first := (infoOf info p.lhs).first.union (firstIn info p.rhs),
                               nullable := (infoOf info p.lhs).nullable || nullableIn info p.rhs }
    else infoOf info k := by
  rw [firstRule, infoOf_modify h]

theorem FirstInv.firstRule (hi : FirstInv g info) (hp : p ∈ g.rules) :
    FirstInv g (firstRule info p) where
  size := by rw [ExprTranslate.firstRule, Array.size_modify, hi.size]
  noFollow k := by
    rw [infoOf_firstRule hi.size]
    split
    · exact hi.noFollow _
    · exact hi.noFollow k
  sorted k := by
    rw [infoOf_firstRule hi.size]
    split
    · exact (hi.sorted _).union
    · exact hi.sorted k
  bounded k := by
    rw [infoOf_firstRule hi.size]
    split
    · intro a ha
      rcases SymSet.mem_union.mp ha with ha | ha
      · exact hi.bounded _ ha
      · exact firstIn_subset hi.bounded (fun t ht => mem_rhsTerminals hp ht) ha
    · exact hi.bounded k
  sound := by
    constructor
    · intro k hk
      rw [infoOf_firstRule hi.size] at hk
      split at hk
      · next hlhs =>
        subst hlhs
        simp only [Bool.or_eq_true] at hk
        rcases hk with hold | hrhs
        · exact hi.sound.nullable _ hold
        · exact derivesEmpty_rule hp (hi.sound.nullableIn hrhs)
      · exact hi.sound.nullable k hk
    · intro k a ha
      rw [infoOf_firstRule hi.size] at ha
      split at ha
      · next hlhs =>
        subst hlhs
        rcases SymSet.mem_union.mp ha with hold | hrhs
        · exact hi.sound.first _ a hold
        · exact beginsWith_rule hp (hi.sound.firstIn hrhs)
      · exact hi.sound.first k a ha

/-- A rule that leaves the sizes and the mark alone is satisfied by the slots. -/
theorem firstGrows_eq_false (hs : SymSet.Sorted (infoOf info p.lhs).first)
    (h : firstGrows info p = false) :
    (nullableIn info p.rhs = true → (infoOf info p.lhs).nullable = true) ∧
      firstIn info p.rhs ⊆ (infoOf info p.lhs).first := by
  have hlen : ((infoOf info p.lhs).first.union (firstIn info p.rhs)).length =
      (infoOf info p.lhs).first.length := by
    simp_all [firstGrows]
  refine ⟨fun hn => ?_, SymSet.subset_of_length_union hs hlen.le⟩
  simp_all [firstGrows]

theorem firstRule_eq_self (hi : FirstInv g info) (h : firstGrows info p = false) :
    firstRule info p = info := by
  obtain ⟨hnull, hsub⟩ := firstGrows_eq_false (hi.sorted _) h
  have hslot : { infoOf info p.lhs with
      first := (infoOf info p.lhs).first.union (firstIn info p.rhs),
      nullable := (infoOf info p.lhs).nullable || nullableIn info p.rhs } = infoOf info p.lhs := by
    have hmark : ((infoOf info p.lhs).nullable || nullableIn info p.rhs) = (infoOf info p.lhs).nullable := by
      cases hn : nullableIn info p.rhs <;> simp_all
    rw [SymSet.union_eq_self (hi.sorted _) hsub, hmark]
  rw [firstRule]
  simp only [hslot]
  exact modify_infoOf hi.size _

theorem firstWeight_firstRule_le (hi : FirstInv g info) :
    firstWeight info ≤ firstWeight (firstRule info p) := by
  apply slotWeight_modify_le hi.size
  have hlen := SymSet.length_le_union (a := (infoOf info p.lhs).first) (b := firstIn info p.rhs)
  cases (infoOf info p.lhs).nullable <;> cases nullableIn info p.rhs <;> simp <;> omega

theorem firstWeight_firstRule_lt (hi : FirstInv g info) (h : firstGrows info p = true) :
    firstWeight info < firstWeight (firstRule info p) := by
  apply slotWeight_modify_lt hi.size
  have hlen := SymSet.length_le_union (a := (infoOf info p.lhs).first) (b := firstIn info p.rhs)
  simp only [firstGrows, Bool.or_eq_true, bne_iff_ne, ne_eq, Bool.and_eq_true, Bool.not_eq_true'] at h
  rcases h with hne | ⟨hn, hold⟩
  · cases (infoOf info p.lhs).nullable <;> cases nullableIn info p.rhs <;> simp <;> omega
  · simp [hn, hold]
    omega

theorem firstWeight_le (hi : FirstInv g info) :
    firstWeight info ≤ 8 * ((rhsTerminals g.rules).length + 1) :=
  slotWeight_le fun k => Nat.add_le_add ((hi.sorted k).length_le (hi.bounded k)) (Bool.toNat_le _)

theorem FirstInv.firstPass (hi : FirstInv g info) : FirstInv g (firstPass g.rules info).1 := by
  rw [firstPass_eq, foldl_flagged_fst]
  exact foldl_invariant (fun _ _ hp hi => hi.firstRule hp) hi

theorem firstWeight_firstPass (hi : FirstInv g info) (h : (firstPass g.rules info).2 = true) :
    firstWeight info < firstWeight (firstPass g.rules info).1 := by
  rw [firstPass_eq] at h ⊢
  rw [foldl_flagged_fst]
  have hgrow := foldl_flagged_weight firstWeight (fun _ _ hp hi => hi.firstRule hp)
    (fun _ _ _ hi => firstWeight_firstRule_le hi) (fun _ _ _ hi hg => firstWeight_firstRule_lt hi hg)
    hi false
  simpa using hgrow.2 h

/-- A FIRST pass that reports no change left the slots as they were, and they are closed under
the FIRST rules. -/
theorem firstPass_quiet {info' : Array KindInfo} (hi : FirstInv g info)
    (h : firstPass g.rules info = (info', false)) : info' = info ∧ ClosedFirst g info := by
  rw [firstPass_eq] at h
  have hflag : (g.rules.foldl (flagged firstRule firstGrows) (info, false)).2 = false := by rw [h]
  obtain ⟨hsame, hall⟩ :=
    foldl_flagged_quiet (I := FirstInv g) (fun _ _ _ hi hg => firstRule_eq_self hi hg) hi hflag
  refine ⟨?_, fun p hp => firstGrows_eq_false (hi.sorted _) (hall p hp)⟩
  have hfst : (g.rules.foldl (flagged firstRule firstGrows) (info, false)).1 = g.rules.foldl firstRule info :=
    foldl_flagged_fst _ info false
  rw [h] at hfst
  exact hfst.trans hsame

end FirstPasses

theorem infoOf_blank (k : Kind) : infoOf Analysis.blank k = {} := by
  simp [infoOf, Analysis.blank, k.code_lt]

/-- The slots when the FIRST passes end. -/
def firstSlots (g : Grammar) : Array KindInfo := saturate (firstPass g.rules) g.passBound Analysis.blank

section FirstSlots

variable {g : Grammar}

theorem firstInv_blank : FirstInv g Analysis.blank where
  size := rfl
  noFollow k := by simp [infoOf_blank]
  sorted k := by simp [infoOf_blank, SymSet.Sorted]
  bounded k := by simp [infoOf_blank]
  sound := ⟨fun k => by simp [infoOf_blank], fun k => by simp [infoOf_blank]⟩

/-- The FIRST passes run until one changes nothing: each pass that changes something adds a
terminal of the grammar to a FIRST set or marks a kind nullable, and the grammar's bound leaves
room for all of them. -/
theorem firstSlots_saturates : Saturates (firstPass g.rules) Analysis.blank (firstSlots g) := by
  have hroom : 8 * ((rhsTerminals g.rules).length + 1) < g.passBound + firstWeight Analysis.blank := by
    have := length_rhsTerminals g.rules
    simp only [Grammar.passBound, Grammar.size]
    omega
  exact saturate_saturates (I := FirstInv g) firstWeight _ (fun _ hi => hi.firstPass)
    (fun _ hi h => firstWeight_firstPass hi h) (fun _ hi => firstWeight_le hi) _ _ firstInv_blank hroom

theorem firstInv_firstSlots : FirstInv g (firstSlots g) :=
  firstSlots_saturates.invariant (fun _ hi => hi.firstPass) firstInv_blank

theorem closedFirst_firstSlots : ClosedFirst g (firstSlots g) := by
  obtain ⟨i, hi, hpass⟩ := firstSlots_saturates.last (fun _ hi => hi.firstPass) firstInv_blank
  obtain ⟨rfl, hclosed⟩ := firstPass_quiet hi hpass
  exact hclosed

end FirstSlots

end ExprTranslate
