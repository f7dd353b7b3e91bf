import ExprTranslate.Grammar.Analysis
/-!
# Derivations of a grammar

What a grammar derives, said without its analysis. A sentential form rewrites to another by
replacing non-terminals with the right-hand sides of their productions, any number of times;
action symbols and `ε` stand for nothing (they are silent). In these terms:

* `g.DerivesEmpty u`: `u` derives a form of silent symbols only, that is the empty string;
* `g.BeginsWith u a`: `u` derives a form whose first symbol that is not silent is the terminal
  `a`, so that `a` is in FIRST of `u`;
* `g.Follows k a`: the least relation with the end marker after the start symbol, and, for a
  right-hand side `α B β` of a production of `A`, FIRST of `β` after `B` and, when `β` derives
  the empty string, whatever follows `A` after `B`.
-/

namespace ExprTranslate

/-- A symbol that stands for nothing: an action, or `ε`. -/
def GSym.silent : GSym → Bool
  | .action _ => true
  | .terminal s => s = .empty
  | .nonterminal _ => false

/-- The sentential form `u` rewrites to `w`: each of its non-terminals is either kept or replaced by
the right-hand side of one of its productions, which rewrites in turn. -/
inductive Grammar.Derives (g : Grammar) : List GSym → List GSym → Prop
  | nil : g.Derives [] []
  | keep (s : GSym) {u w : List GSym} : g.Derives u w → g.Derives (s :: u) (s :: w)
  | expand {p : Production} {u w₁ w₂ : List GSym} : p ∈ g.rules → g.Derives p.rhs w₁ →
      g.Derives u w₂ → g.Derives (.nonterminal p.lhs :: u) (w₁ ++ w₂)

/-- `u` derives the empty string: a form of silent symbols. -/
def Grammar.DerivesEmpty (g : Grammar) (u : List GSym) : Prop :=
  ∃ w, g.Derives u w ∧ ∀ s ∈ w, s.silent = true

/-- `u` derives a form whose first symbol that is not silent is the terminal `a`. -/
def Grammar.BeginsWith (g : Grammar) (u : List GSym) (a : Symbol) : Prop :=
  ∃ w, g.Derives u w ∧ (w.filter fun s => !s.silent).head? = some (.terminal a)

/-- The terminals that may follow a non-terminal: the least relation closed under the rules of
FOLLOW. -/
inductive Grammar.Follows (g : Grammar) : Kind → Symbol → Prop
  | start : g.Follows g.start .endOfInput
  | first {p : Production} {α β : List GSym} {B : Kind} {a : Symbol} : p ∈ g.rules →
      p.rhs = α ++ .nonterminal B :: β → g.BeginsWith β a → g.Follows B a
  | follow {p : Production} {α β : List GSym} {B : Kind} {a : Symbol} : p ∈ g.rules →
      p.rhs = α ++ .nonterminal B :: β → g.DerivesEmpty β → g.Follows p.lhs a → g.Follows B a

namespace Grammar.Derives

variable {g : Grammar} {u v w x : List GSym}

/-- A form rewrites to itself. -/
theorem refl (u : List GSym) : g.Derives u u := by
  induction u with
  | nil => exact .nil
  | cons s u ih => exact .keep s ih

/-- Rewriting two forms side by side rewrites their concatenation. -/
theorem append (h₁ : g.Derives u w) (h₂ : g.Derives v x) : g.Derives (u ++ v) (w ++ x) := by
  induction h₁ with
  | nil => exact h₂
  | keep s _ ih => exact .keep s ih
  | expand hp hrhs _ _ ih =>
    rw [List.cons_append, List.append_assoc]
    exact .expand hp hrhs ih

end Grammar.Derives

section Derived

variable {g : Grammar} {u v : List GSym} {p : Production} {a : Symbol}

theorem derivesEmpty_nil : g.DerivesEmpty [] := ⟨[], .nil, by simp⟩

theorem derivesEmpty_silent {s : GSym} (hs : s.silent = true) : g.DerivesEmpty [s] :=
  ⟨[s], .refl _, by simpa using hs⟩

theorem Grammar.DerivesEmpty.append (hu : g.DerivesEmpty u) (hv : g.DerivesEmpty v) :
    g.DerivesEmpty (u ++ v) := by
  obtain ⟨w, hw, hsw⟩ := hu
  obtain ⟨x, hx, hsx⟩ := hv
  refine ⟨w ++ x, hw.append hx, fun s hs => ?_⟩
  rcases List.mem_append.mp hs with hs | hs
  · exact hsw s hs
  · exact hsx s hs

/-- A production whose right-hand side derives the empty string makes its left-hand side derive
it. -/
theorem derivesEmpty_rule (hp : p ∈ g.rules) (h : g.DerivesEmpty p.rhs) :
    g.DerivesEmpty [.nonterminal p.lhs] := by
  obtain ⟨w, hw, hs⟩ := h
  exact ⟨w ++ [], .expand hp hw .nil, by simpa using hs⟩

theorem beginsWith_terminal (ha : a ≠ .empty) : g.BeginsWith [.terminal a] a :=
  ⟨[.terminal a], .refl _, by simp [GSym.silent, ha]⟩

theorem Grammar.BeginsWith.append_right (h : g.BeginsWith u a) (v : List GSym) :
    g.BeginsWith (u ++ v) a := by
  obtain ⟨w, hw, hhead⟩ := h
  refine ⟨w ++ v, hw.append (.refl v), ?_⟩
  rw [List.filter_append]
  cases hf : w.filter fun s => !s.silent with
  | nil => rw [hf] at hhead; cases hhead
  | cons t ts => rw [hf] at hhead; simpa using hhead

theorem Grammar.BeginsWith.append_left (hu : g.DerivesEmpty u) (h : g.BeginsWith v a) :
    g.BeginsWith (u ++ v) a := by
  obtain ⟨w, hw, hsilent⟩ := hu
  obtain ⟨x, hx, hhead⟩ := h
  refine ⟨w ++ x, hw.append hx, ?_⟩
  have hnil : (w.filter fun s => !s.silent) = [] :=
    List.filter_eq_nil_iff.mpr fun s hs => by simp [hsilent s hs]
  rw [List.filter_append, hnil, List.nil_append]
  exact hhead

/-- A production whose right-hand side begins with `a` makes its left-hand side begin with it. -/
theorem beginsWith_rule (hp : p ∈ g.rules) (h : g.BeginsWith p.rhs a) :
    g.BeginsWith [.nonterminal p.lhs] a := by
  obtain ⟨w, hw, hhead⟩ := h
  exact ⟨w ++ [], .expand hp hw .nil, by simpa using hhead⟩

end Derived

/-! ### Derivations by size -/

/-- A derivation with its number of expansions. -/
inductive Grammar.DerivesIn (g : Grammar) : Nat → List GSym → List GSym → Prop
  | nil : g.DerivesIn 0 [] []
  | keep (s : GSym) {n : Nat} {u w : List GSym} : g.DerivesIn n u w → g.DerivesIn n (s :: u) (s :: w)
  | expand {p : Production} {n₁ n₂ : Nat} {u w₁ w₂ : List GSym} : p ∈ g.rules →
      g.DerivesIn n₁ p.rhs w₁ → g.DerivesIn n₂ u w₂ →
      g.DerivesIn (n₁ + n₂ + 1) (.nonterminal p.lhs :: u) (w₁ ++ w₂)

namespace Grammar

variable {g : Grammar} {n : Nat} {u v w : List GSym}

theorem Derives.sized (h : g.Derives u w) : ∃ n, g.DerivesIn n u w := by
  induction h with
  | nil => exact ⟨0, .nil⟩
  | keep s _ ih =>
    obtain ⟨n, hn⟩ := ih
    exact ⟨n, .keep s hn⟩
  | expand hp _ _ ih₁ ih₂ =>
    obtain ⟨n₁, h₁⟩ := ih₁
    obtain ⟨n₂, h₂⟩ := ih₂
    exact ⟨_, .expand hp h₁ h₂⟩

theorem DerivesIn.derives (h : g.DerivesIn n u w) : g.Derives u w := by
  induction h with
  | nil => exact .nil
  | keep s _ ih => exact .keep s ih
  | expand hp _ _ ih₁ ih₂ => exact .expand hp ih₁ ih₂

/-- What a production's right-hand side derives, its left-hand side derives with one more
expansion. -/
theorem DerivesIn.rule {p : Production} (hp : p ∈ g.rules) (h : g.DerivesIn n p.rhs w) :
    g.DerivesIn (n + 1) [.nonterminal p.lhs] w := by
  simpa using DerivesIn.expand hp h .nil

/-- A derivation of two forms side by side splits into a derivation of each. -/
theorem DerivesIn.split (h : g.DerivesIn n (u ++ v) w) :
    ∃ n₁ n₂ w₁ w₂, n₁ + n₂ = n ∧ w = w₁ ++ w₂ ∧ g.DerivesIn n₁ u w₁ ∧ g.DerivesIn n₂ v w₂ := by
  induction u generalizing n w with
  | nil => exact ⟨0, n, [], w, by omega, rfl, .nil, h⟩
  | cons s u ih =>
    cases h with
    | keep _ h =>
      obtain ⟨n₁, n₂, w₁, w₂, hn, rfl, h₁, h₂⟩ := ih h
      exact ⟨n₁, n₂, s :: w₁, w₂, hn, rfl, .keep s h₁, h₂⟩
    | @expand p m₁ m₂ _ x₁ x₂ hp hrhs hrest =>
      obtain ⟨n₁, n₂, w₁, w₂, hn, rfl, h₁, h₂⟩ := ih hrest
      exact ⟨m₁ + n₁ + 1, n₂, x₁ ++ w₁, w₂, by omega, by rw [List.append_assoc], .expand hp hrhs h₁, h₂⟩

/-- A non-terminal is kept, or expanded by one of its productions with fewer expansions left. -/
theorem DerivesIn.nonterminal {X : Kind} (h : g.DerivesIn n [.nonterminal X] w) :
    w = [.nonterminal X] ∨ ∃ p ∈ g.rules, p.lhs = X ∧ ∃ m < n, g.DerivesIn m p.rhs w := by
  cases h with
  | keep _ h =>
    cases h
    exact .inl rfl
  | @expand p m₁ m₂ _ x₁ x₂ hp hrhs hrest =>
    cases hrest
    exact .inr ⟨p, hp, rfl, m₁, by omega, by simpa using hrhs⟩

end Grammar

end ExprTranslate
