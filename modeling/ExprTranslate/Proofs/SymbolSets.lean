import ExprTranslate.Grammar.Analysis
import Mathlib.Data.List.Nodup
/-!
# Sets of terminals

The analysis keeps its sets of terminals as lists sorted by symbol number. Inserting keeps a
sorted list sorted and adds the symbol once; the union inserts the symbols of one set into the
other. The analysis decides that a pass changed a set by comparing lengths, which is sound
because the sets are sorted:

* `SymSet.mem_insert`, `SymSet.mem_union`: the members;
* `SymSet.Sorted.insert`, `SymSet.Sorted.union`: sorted lists stay sorted;
* `SymSet.union_eq_self`: adding members already there changes nothing;
* `SymSet.subset_of_length_union`: a union no longer than a sorted set adds nothing to it;
* `SymSet.Sorted.eq_of_mem_iff`: a sorted set is determined by its members.
-/

namespace ExprTranslate

theorem Symbol.ext_code {s t : Symbol} (h : s.code = t.code) : s = t := by
  cases s; cases t; simp_all

namespace SymSet

variable {s x : Symbol} {l a b : SymSet}

/-- A set is sorted: its numbers strictly increase. -/
def Sorted (l : SymSet) : Prop := l.Pairwise fun a b => a.code < b.code

theorem Sorted.nodup (h : Sorted l) : l.Nodup :=
  h.imp fun hab he => by rw [he] at hab; exact Int.lt_irrefl _ hab

@[simp] theorem mem_insert : x ∈ l.insert s ↔ x = s ∨ x ∈ l := by
  fun_induction SymSet.insert s l with
  | case1 => simp
  | case2 t ts hlt => simp
  | case3 t ts _ heq =>
    have hst : s = t := Symbol.ext_code heq
    subst hst
    simp
  | case4 t ts _ _ ih =>
    simp only [List.mem_cons, ih]
    tauto

theorem Sorted.insert (h : Sorted l) : Sorted (l.insert s) := by
  fun_induction SymSet.insert s l with
  | case1 => exact List.pairwise_singleton _ _
  | case2 t ts hlt =>
    obtain ⟨ht, _⟩ := List.pairwise_cons.mp h
    refine List.pairwise_cons.mpr ⟨fun u hu => ?_, h⟩
    rcases List.mem_cons.mp hu with rfl | hu
    · exact hlt
    · exact Int.lt_trans hlt (ht u hu)
  | case3 => exact h
  | case4 t ts hlt hne ih =>
    obtain ⟨ht, hts⟩ := List.pairwise_cons.mp h
    refine List.pairwise_cons.mpr ⟨fun u hu => ?_, ih hts⟩
    rcases mem_insert.mp hu with rfl | hu
    · omega
    · exact ht u hu

/-- Inserting a member of a sorted set gives the set back. -/
theorem insert_eq_self (h : Sorted l) (hs : s ∈ l) : l.insert s = l := by
  fun_induction SymSet.insert s l with
  | case1 => simp at hs
  | case2 t ts hlt =>
    obtain ⟨ht, _⟩ := List.pairwise_cons.mp h
    rcases List.mem_cons.mp hs with rfl | hs
    · exact absurd hlt (Int.lt_irrefl _)
    · exact absurd (ht s hs) (by omega)
  | case3 => rfl
  | case4 t ts hlt hne ih =>
    have hst : s ≠ t := fun he => hne (by rw [he])
    rw [ih (List.pairwise_cons.mp h).2 ((List.mem_cons.mp hs).resolve_left hst)]

/-- Inserting a new symbol adds one. -/
theorem length_insert (hs : s ∉ l) : (l.insert s).length = l.length + 1 := by
  fun_induction SymSet.insert s l with
  | case1 => rfl
  | case2 => rfl
  | case3 t ts _ heq => exact absurd (List.mem_cons.mpr (.inl (Symbol.ext_code heq))) hs
  | case4 t ts _ _ ih =>
    simp only [List.length_cons, ih (fun h => hs (List.mem_cons_of_mem _ h))]

theorem length_le_insert : l.length ≤ (l.insert s).length := by
  fun_induction SymSet.insert s l <;> simp_all

@[simp] theorem mem_union : x ∈ a.union b ↔ x ∈ a ∨ x ∈ b := by
  induction b generalizing a with
  | nil => simp [union]
  | cons t ts ih =>
    simp only [union, List.foldl_cons] at ih ⊢
    rw [ih, mem_insert, List.mem_cons]
    tauto

theorem union_cons (t : Symbol) (ts : SymSet) : a.union (t :: ts) = (a.insert t).union ts := rfl

theorem Sorted.union (ha : Sorted a) : Sorted (a.union b) := by
  induction b generalizing a with
  | nil => exact ha
  | cons t ts ih => rw [union_cons]; exact ih ha.insert

theorem length_le_union : a.length ≤ (a.union b).length := by
  induction b generalizing a with
  | nil => exact Nat.le_refl _
  | cons t ts ih => rw [union_cons]; exact Nat.le_trans length_le_insert ih

/-- Adding members already in a sorted set gives the set back. -/
theorem union_eq_self (ha : Sorted a) (h : b ⊆ a) : a.union b = a := by
  induction b with
  | nil => rfl
  | cons t ts ih =>
    rw [union_cons, insert_eq_self ha (h (List.mem_cons_self ..))]
    exact ih (fun u hu => h (List.mem_cons_of_mem _ hu))

/-- A union no longer than a sorted set adds no symbol to it. -/
theorem subset_of_length_union (ha : Sorted a) (h : (a.union b).length ≤ a.length) : b ⊆ a := by
  induction b generalizing a with
  | nil => exact List.nil_subset _
  | cons t ts ih =>
    rw [union_cons] at h
    have hins : (a.insert t).length ≤ a.length := Nat.le_trans length_le_union h
    have ht : t ∈ a := by
      by_contra ht
      rw [length_insert ht] at hins
      omega
    rw [insert_eq_self ha ht] at h
    exact List.cons_subset.mpr ⟨ht, ih ha h⟩

/-- A sorted set holds at most as many symbols as any list containing them. -/
theorem Sorted.length_le (h : Sorted l) {T : List Symbol} (hT : l ⊆ T) : l.length ≤ T.length :=
  h.nodup.length_le_of_subset hT

/-- Two sorted sets with the same members are the same list. -/
theorem Sorted.eq_of_mem_iff (ha : Sorted a) (hb : Sorted b) (h : ∀ x, x ∈ a ↔ x ∈ b) : a = b := by
  have hperm : a.Perm b := (List.perm_ext_iff_of_nodup ha.nodup hb.nodup).mpr h
  exact hperm.eq_of_pairwise (fun _ _ _ _ hxy hyx => absurd (Int.lt_trans hxy hyx) (Int.lt_irrefl _)) ha hb

end SymSet

end ExprTranslate
