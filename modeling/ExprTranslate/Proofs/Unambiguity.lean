import ExprTranslate.Proofs.Tree
/-!
# The expression grammar is unambiguous

A sequence of tokens is spelled by at most one tree, which is what makes "the expression the
input spells" well defined. The grammar is LL(1): every choice between productions is made by
the next token, so two trees that spell the same tokens make the same choices.

* `Kind.first`: the symbols a tree of each kind can start with;
* `Kind.Stops`: the tokens after a tree do not go on with it, as the end marker or a closing
  parenthesis after an expression does not;
* `Tree.eq_of_tokens_append`: two trees of one kind, each followed by tokens that stop it, that
  spell the same tokens are equal, and so are the tokens after them;
* `Tree.eq_of_terminated`: two expressions followed by an end marker are equal.
-/

namespace ExprTranslate

/-- The symbols a tree of a kind can start with. -/
def Kind.first : Kind → List Symbol
  | .expr => [.plus, .minus, .number, .identifier, .lparen]
  | .sign | .exprTail | .addOp => [.plus, .minus]
  | .term | .factor => [.number, .identifier, .lparen]
  | .termTail | .mulOp => [.times, .slash]

/-- The symbols that would go on with a tree of a kind if they came next: more of a sum or a
product after an expression or the tail of a sum, more of a product after a term or the tail of
a product, and an operator after a sign, which would start a signed term. -/
def Kind.extenders : Kind → List Symbol
  | .expr | .exprTail => [.plus, .minus, .times, .slash]
  | .term | .termTail => [.times, .slash]
  | .sign => [.plus, .minus]
  | .factor | .addOp | .mulOp => []

/-- The tokens after a tree of kind `k` do not go on with it. -/
def Kind.Stops (k : Kind) (rest : List Token) : Prop :=
  ∀ tok ∈ rest.head?, tok.symbol ∉ k.extenders

theorem Kind.Stops.mono {k k' : Kind} {rest : List Token} (h : k'.Stops rest)
    (hsub : k.extenders ⊆ k'.extenders) : k.Stops rest :=
  fun tok htok hk => h tok htok (hsub hk)

/-- Nothing goes on with a factor or an operator. -/
theorem Kind.stops_of_extenders_nil {k : Kind} (hk : k.extenders = []) (rest : List Token) :
    k.Stops rest :=
  fun _ _ => by simp [hk]

/-- The end marker, or a closing parenthesis, stops every kind. -/
theorem Kind.stops_cons {k : Kind} {tok : Token} (rest : List Token)
    (h : tok.symbol = .endOfInput ∨ tok.symbol = .rparen) : k.Stops (tok :: rest) := by
  intro tok' htok
  simp only [List.head?_cons, Option.mem_def, Option.some.injEq] at htok
  subst htok
  rcases h with h | h <;> rw [h] <;> cases k <;> decide

theorem head?_append_left {l l' : List Token} (h : l ≠ []) : (l ++ l').head? = l.head? := by
  cases l with
  | nil => exact absurd rfl h
  | cons a l => rfl

namespace Tree

variable {k k' : Kind}

/-- An operator is one token. -/
theorem op_ne_nil (t : Tree k) (hk : k = .addOp ∨ k = .mulOp) : t.tokens ≠ [] :=
  List.ne_nil_of_length_eq_add_one (op_shape t hk).1

/-- A tree starts with a symbol of its kind's first symbols. -/
theorem head_mem_first (t : Tree k) : ∀ tok ∈ t.tokens.head?, tok.symbol ∈ k.first := by
  induction t with
  | exprRule s t h ihs iht _ =>
    cases s with
    | signAddOp a =>
      -- the sign's operator comes first
      cases a <;> simp_all [tokens, Kind.first]
    | signNone =>
      -- the term comes first
      intro tok htok
      rw [tokens, tokens, List.nil_append, head?_append_left (tokens_ne_nil t (by simp))] at htok
      exact (by decide : Kind.term.first ⊆ Kind.expr.first) (iht tok htok)
  | termRule f h ihf _ =>
    intro tok htok
    rw [tokens, head?_append_left (tokens_ne_nil f (by simp))] at htok
    exact ihf tok htok
  | exprTailMore a _ _ iha _ _ | termTailMore a _ _ iha _ _ =>
    intro tok htok
    rw [tokens, List.append_assoc, head?_append_left (op_ne_nil a (by simp))] at htok
    exact iha tok htok
  | signAddOp a iha => exact iha
  | factorParens lp hl => simp [tokens, hl, Kind.first]
  | factorNumber _ hs | factorIdentifier _ hs | addOpPlus _ hs | addOpMinus _ hs
  | mulOpTimes _ hs | mulOpSlash _ hs => simp [tokens, hs, Kind.first]
  | signNone | exprTailEnd | termTailEnd => simp [tokens]

/-- Tokens that start with a tree stop a kind whose extenders the tree cannot start with, when
the tree is not empty or the tokens after it stop the kind too. -/
theorem stops_append (t : Tree k') {rest : List Token} (hdis : ∀ s ∈ k'.first, s ∉ k.extenders)
    (hr : t.tokens = [] → k.Stops rest) : k.Stops (t.tokens ++ rest) := by
  intro tok htok
  cases ht : t.tokens with
  | nil =>
    rw [ht, List.nil_append] at htok
    exact hr ht tok htok
  | cons a l =>
    rw [ht, List.cons_append, List.head?_cons, Option.mem_def, Option.some.injEq] at htok
    rw [← htok]
    exact hdis _ (head_mem_first t a (by simp [ht]))

/-- Tokens that start with a tree do not stop a kind that the tree's first symbols extend. -/
theorem not_stops (t : Tree k') {rest : List Token} (hne : t.tokens ≠ [])
    (hsub : k'.first ⊆ k.extenders) : ¬k.Stops (t.tokens ++ rest) := by
  intro h
  obtain ⟨tok, htok⟩ := Option.ne_none_iff_exists'.mp (mt List.head?_eq_none_iff.mp hne)
  exact h tok (by rw [head?_append_left hne]; exact htok)
    (hsub (head_mem_first t tok htok))

/-- **Trees are determined by their tokens.** Two trees of one kind that spell the same tokens,
each followed by tokens that stop the kind, are equal, and so are the tokens after them. Each
choice between productions is made by the next token: an empty tail or sign against one that
starts with an operator, which the tokens after the empty one would have to start with. -/
theorem eq_of_tokens_append {t₁ t₂ : Tree k} {r₁ r₂ : List Token}
    (h : t₁.tokens ++ r₁ = t₂.tokens ++ r₂) (h₁ : k.Stops r₁) (h₂ : k.Stops r₂) :
    t₁ = t₂ ∧ r₁ = r₂ := by
  induction t₁ generalizing r₁ r₂ with
  | exprRule s t e ihs iht ihe =>
    cases t₂ with
    | exprRule s' t' e' =>
      simp only [tokens, List.append_assoc] at h
      -- the sign, then the term, then the tail, each stopped by what follows it
      obtain ⟨rfl, hte⟩ := ihs h
        (stops_append t (by decide) fun ht => absurd ht (tokens_ne_nil t (by simp)))
        (stops_append t' (by decide) fun ht => absurd ht (tokens_ne_nil t' (by simp)))
      obtain ⟨rfl, he⟩ := iht hte (stops_append e (by decide) fun _ => h₁.mono (by decide))
        (stops_append e' (by decide) fun _ => h₂.mono (by decide))
      obtain ⟨rfl, rfl⟩ := ihe he h₁ h₂
      exact ⟨rfl, rfl⟩
  | exprTailMore a t e iha iht ihe =>
    cases t₂ with
    | exprTailMore a' t' e' =>
      simp only [tokens, List.append_assoc] at h
      obtain ⟨rfl, hte⟩ := iha h (Kind.stops_of_extenders_nil rfl _)
        (Kind.stops_of_extenders_nil rfl _)
      obtain ⟨rfl, he⟩ := iht hte (stops_append e (by decide) fun _ => h₁.mono (by decide))
        (stops_append e' (by decide) fun _ => h₂.mono (by decide))
      obtain ⟨rfl, rfl⟩ := ihe he h₁ h₂
      exact ⟨rfl, rfl⟩
    | exprTailEnd =>
      -- the tokens after the empty tail would start with the other tail's operator
      simp only [tokens, List.nil_append] at h
      exact absurd (h ▸ h₂)
        (not_stops (exprTailMore a t e) (by simp [tokens, tokens_ne_nil t]) (by decide))
  | exprTailEnd =>
    cases t₂ with
    | exprTailMore a t e =>
      simp only [tokens, List.nil_append] at h
      exact absurd (h ▸ h₁)
        (not_stops (exprTailMore a t e) (by simp [tokens, tokens_ne_nil t]) (by decide))
    | exprTailEnd => exact ⟨rfl, by simpa [tokens] using h⟩
  | termRule f e ihf ihe =>
    cases t₂ with
    | termRule f' e' =>
      simp only [tokens, List.append_assoc] at h
      obtain ⟨rfl, he⟩ := ihf h (Kind.stops_of_extenders_nil rfl _)
        (Kind.stops_of_extenders_nil rfl _)
      obtain ⟨rfl, rfl⟩ := ihe he h₁ h₂
      exact ⟨rfl, rfl⟩
  | termTailMore m f e ihm ihf ihe =>
    cases t₂ with
    | termTailMore m' f' e' =>
      simp only [tokens, List.append_assoc] at h
      obtain ⟨rfl, hfe⟩ := ihm h (Kind.stops_of_extenders_nil rfl _)
        (Kind.stops_of_extenders_nil rfl _)
      obtain ⟨rfl, he⟩ := ihf hfe (Kind.stops_of_extenders_nil rfl _)
        (Kind.stops_of_extenders_nil rfl _)
      obtain ⟨rfl, rfl⟩ := ihe he h₁ h₂
      exact ⟨rfl, rfl⟩
    | termTailEnd =>
      simp only [tokens, List.nil_append] at h
      exact absurd (h ▸ h₂)
        (not_stops (termTailMore m f e) (by simp [tokens, tokens_ne_nil f]) (by decide))
  | termTailEnd =>
    cases t₂ with
    | termTailMore m f e =>
      simp only [tokens, List.nil_append] at h
      exact absurd (h ▸ h₁)
        (not_stops (termTailMore m f e) (by simp [tokens, tokens_ne_nil f]) (by decide))
    | termTailEnd => exact ⟨rfl, by simpa [tokens] using h⟩
  | signAddOp a iha =>
    cases t₂ with
    | signAddOp a' =>
      obtain ⟨rfl, rfl⟩ := iha h (Kind.stops_of_extenders_nil rfl _)
        (Kind.stops_of_extenders_nil rfl _)
      exact ⟨rfl, rfl⟩
    | signNone =>
      simp only [tokens, List.nil_append] at h
      exact absurd (h ▸ h₂) (not_stops a (op_ne_nil a (.inl rfl)) (by decide))
  | signNone =>
    cases t₂ with
    | signAddOp a =>
      simp only [tokens, List.nil_append] at h
      exact absurd (h ▸ h₁) (not_stops a (op_ne_nil a (.inl rfl)) (by decide))
    | signNone => exact ⟨rfl, by simpa [tokens] using h⟩
  | factorParens lp hl e rp hr ih =>
    cases t₂ with
    | factorParens lp' hl' e' rp' hr' =>
      simp only [tokens, List.cons_append, List.append_assoc, List.cons.injEq] at h
      obtain ⟨rfl, he⟩ := h
      -- the closing parenthesis stops the inner expressions
      obtain ⟨rfl, hr⟩ := ih he (Kind.stops_cons _ (.inr hr)) (Kind.stops_cons _ (.inr hr'))
      obtain ⟨rfl, rfl⟩ := List.cons.inj hr
      exact ⟨rfl, rfl⟩
    | factorNumber tok hs | factorIdentifier tok hs =>
      -- the first tokens are one, of different symbols
      simp only [tokens, List.cons_append, List.cons.injEq] at h
      obtain ⟨rfl, -⟩ := h
      exact absurd (hs.symm.trans hl) (by decide)
  | factorNumber tok hs | factorIdentifier tok hs | addOpPlus tok hs | addOpMinus tok hs
  | mulOpTimes tok hs | mulOpSlash tok hs =>
    -- a leaf is its token; a tree of another production starts with another symbol
    cases t₂ <;> simp only [tokens, List.cons_append, List.cons.injEq] at h <;>
      obtain ⟨rfl, h⟩ := h <;>
      grind [Symbol.number, Symbol.identifier, Symbol.lparen, Symbol.plus, Symbol.minus,
        Symbol.times, Symbol.slash]

/-- An input spells at most one expression up to an end marker. -/
theorem eq_of_terminated {t₁ t₂ : Tree .expr} {e₁ e₂ : Token} {m₁ m₂ : List Token}
    (h : t₁.tokens ++ e₁ :: m₁ = t₂.tokens ++ e₂ :: m₂) (he₁ : e₁.symbol = .endOfInput)
    (he₂ : e₂.symbol = .endOfInput) : t₁ = t₂ :=
  (eq_of_tokens_append h (Kind.stops_cons _ (.inl he₁)) (Kind.stops_cons _ (.inl he₂))).1

end Tree

end ExprTranslate
