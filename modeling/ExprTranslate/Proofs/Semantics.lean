import ExprTranslate.Proofs.Evaluation
import ExprTranslate.Proofs.Unambiguity
import Mathlib.Tactic.Ring
/-!
# The value is the value of the expression

The semantic actions compute a sum as its first term, signed, plus the rest of the sum, and the
rest as its next term plus the rest after it: `a - b - c` becomes `a + (-b + (-c + 0))`, and a
product `a / b / c` becomes `a * (1/b * (1/c * 1))`. The expression the input spells is read the
usual way, operators associating to the left. In exact arithmetic the two agree:

* `Tree.Meaning`: what the value of a tree of each kind means in exact arithmetic: the value of
  the expression it spells, or what a tail adds to, or multiplies, the operand on its left;
* `Tree.meaning`: every tree has its meaning;
* `translate_value_is_standard`: translating with the expression table in exact arithmetic
  fails, or succeeds with the value of the one expression the input spells up to an end marker.
-/

namespace ExprTranslate

namespace Tree

variable {α : Type}

/-- What the value of a tree means: for an expression, a term or a factor, the value of the
expression it spells; for the tail of a sum, what it adds to the operand on its left; for the
tail of a product, what it multiplies the operand on its left by. -/
def Meaning (A : Arith α) (b : Bindings α) : {k : Kind} → Tree k → Prop
  | .expr, t | .term, t | .factor, t => t.value A b = t.ast.eval A b
  | .exprTail, t => ∀ left, (t.extend left).eval A b = A.add (left.eval A b) (t.value A b)
  | .termTail, t => ∀ left, (t.extend left).eval A b = A.mul (left.eval A b) (t.value A b)
  | .sign, _ | .addOp, _ | .mulOp, _ => True

variable {K : Type} [Field K] {read : String → Except Double.ReadError K} {b : Bindings K}

/-- **Every tree has its meaning in exact arithmetic.** By induction on the tree: the actions
nest a sum to the right, the expression nests it to the left, and associativity, with `x - y`
being `x + -y` and `x / y` being `x * (1 / y)`, carries one to the other. -/
theorem meaning {k : Kind} (t : Tree k) : t.Meaning (Arith.ofField read) b := by
  induction t with
  | exprRule s t e _ iht ihe =>
    simp only [Meaning, value, ast] at iht ihe ⊢
    rw [ihe, iht]
    split <;> simp [Ast.eval, Arith.ofField]
  | exprTailMore a t e _ iht ihe =>
    intro left
    simp only [Meaning, value, extend] at iht ihe ⊢
    rw [ihe, iht]
    split <;> simp only [Ast.eval, Arith.ofField] <;> ring
  | termRule f e ihf ihe =>
    simp only [Meaning, value, ast] at ihf ihe ⊢
    rw [ihe, ihf]
  | termTailMore m f e _ ihf ihe =>
    intro left
    simp only [Meaning, value, extend] at ihf ihe ⊢
    rw [ihe, ihf]
    split <;> simp only [Ast.eval, Arith.ofField] <;> ring
  | exprTailEnd => intro left; simp [extend, value, Arith.ofField]
  | termTailEnd => intro left; simp [extend, value, Arith.ofField]
  | factorParens _ _ e _ _ ih => exact ih
  | factorNumber | factorIdentifier => rfl
  | signAddOp | signNone | addOpPlus | addOpMinus | mulOpTimes | mulOpSlash => trivial

end Tree

section Translations

variable {K : Type} [Field K] {read : String → Except Double.ReadError K} {cfg : Config K}

/-- **The value is the value of the expression.** Translating with the expression table in
exact arithmetic fails, or the input spells exactly one expression up to an end marker and
translating succeeds with its value, read with the usual precedence and associativity, whether
identity elimination is on or off. -/
theorem translate_value_is_standard (hT : cfg.table = expressionTable)
    (hA : cfg.arith = Arith.ofField read) (tokens : List Token) (abort : Bool) :
    (∃ e, (translate cfg tokens none abort).ending = .failure e) ∨
      ∃ (t : Tree .expr) (eoi : Token) (more : List Token) (p : String),
        terminated tokens = t.tokens ++ eoi :: more ∧ eoi.symbol = .endOfInput ∧
        (translate cfg tokens none abort).ending = .success (t.ast.eval cfg.arith cfg.bindings) p ∧
        ∀ (t' : Tree .expr) (eoi' : Token) (more' : List Token),
          terminated tokens = t'.tokens ++ eoi' :: more' → eoi'.symbol = .endOfInput → t' = t := by
  rcases @translate_outcome K cfg hT tokens abort with
    ⟨t, eoi, more, hsplit, heoi, _, hend, _⟩ | ⟨_, _, e, _, _, hend⟩
  · -- the tree the run parsed is the only one, and its value is the expression's
    have hv : t.value (Arith.ofField read) cfg.bindings =
        t.ast.eval (Arith.ofField read) cfg.bindings :=
      Tree.meaning t
    refine .inr ⟨t, eoi, more, (t.gen cfg.optimize 0).1, hsplit, heoi, ?_,
      fun t' eoi' more' hsplit' heoi' =>
      Tree.eq_of_terminated (hsplit'.symm.trans hsplit) heoi' heoi⟩
    rw [hend, hA, hv]
  · exact .inl ⟨e, hend⟩

end Translations

/-- Exact rational arithmetic, identity elimination off and `a` bound to five, for
`-(a - 1) / 2`. -/
theorem rational_value_is_standard :
    let cfg : Config ℚ := ⟨Arith.ofField readDecimal, expressionTable, false, [("a", 5)], false⟩
    let tokens := [⟨"-", .minus, 1⟩, ⟨"(", .lparen, 1⟩, ⟨"a", .identifier, 1⟩, ⟨"-", .minus, 1⟩,
      ⟨"1", .number, 1⟩, ⟨")", .rparen, 1⟩, ⟨"/", .slash, 1⟩, ⟨"2", .number, 1⟩]
    (∃ e, (translate cfg tokens none false).ending = .failure e) ∨
      ∃ (t : Tree .expr) (eoi : Token) (more : List Token) (p : String),
        terminated tokens = t.tokens ++ eoi :: more ∧ eoi.symbol = .endOfInput ∧
        (translate cfg tokens none false).ending = .success (t.ast.eval cfg.arith cfg.bindings) p ∧
        ∀ (t' : Tree .expr) (eoi' : Token) (more' : List Token),
          terminated tokens = t'.tokens ++ eoi' :: more' → eoi'.symbol = .endOfInput → t' = t :=
  translate_value_is_standard (by simp) rfl _ false

end ExprTranslate
