import ExprTranslate.Proofs.FirstSets
/-!
# The FOLLOW passes and the correctness of the analysis

After the FIRST passes the analysis puts the end marker into FOLLOW of the start symbol and
applies the FOLLOW rules in passes: for each non-terminal `B` of a right-hand side `α B β` of a
production of `A` (a *site* `(A, B, β)`), FOLLOW of `B` gains FIRST of `β`, and FOLLOW of `A`
when `β` is nullable.

* `followPass_eq`: a pass is the flagged fold of `followRule` over the sites of the grammar;
* the passes keep the FIRST slots, keep FOLLOW sound for `Follows`, and end
  (`followSlots_saturates`) closed under the FOLLOW rules;
* `analyze_nullable_iff`, `mem_analyze_first`, `mem_analyze_follow`, `mem_firstOfSeq`,
  `firstOfSeq_nullable_iff`: the analysis is the least solution of the equations, described by
  derivations.
-/

namespace ExprTranslate

/-- The non-terminals of a sequence, each with the rest of the sequence after it. -/
def positions : List GSym → List (Kind × List GSym)
  | [] => []
  | .nonterminal k :: rest => (k, rest) :: positions rest
  | _ :: rest => positions rest

theorem mem_positions {seq β : List GSym} {k : Kind} :
    (k, β) ∈ positions seq ↔ ∃ α, seq = α ++ .nonterminal k :: β := by
  induction seq with
  | nil => simp [positions]
  | cons s rest ih =>
    have hsplit : (∃ α, s :: rest = α ++ .nonterminal k :: β) ↔
        (s = .nonterminal k ∧ rest = β) ∨ ∃ α, rest = α ++ .nonterminal k :: β := by
      constructor
      · rintro ⟨α, hα⟩
        rcases List.cons_eq_append_iff.mp hα with ⟨rfl, hs⟩ | ⟨α', rfl, hrest⟩
        · simp only [List.cons.injEq] at hs
          exact .inl ⟨hs.1.symm, hs.2.symm⟩
        · exact .inr ⟨α', hrest⟩
      · rintro (⟨rfl, rfl⟩ | ⟨α, rfl⟩)
        · exact ⟨[], rfl⟩
        · exact ⟨s :: α, rfl⟩
    rw [hsplit, ← ih]
    cases s with
    | nonterminal k' => simp [positions, eq_comm]
    | terminal t => simp [positions]
    | action id => simp [positions]

/-- The FOLLOW sites of some productions: `(A, B, β)` for each non-terminal `B` of a right-hand
side `α B β` of a production of `A`. -/
def followSites (rules : List Production) : List (Kind × Kind × List GSym) :=
  rules.flatMap fun p => (positions p.rhs).map (Prod.mk p.lhs)

theorem mem_followSites {rules : List Production} {A B : Kind} {β : List GSym} :
    (A, B, β) ∈ followSites rules ↔
      ∃ p ∈ rules, p.lhs = A ∧ ∃ α, p.rhs = α ++ .nonterminal B :: β := by
  simp only [followSites, List.mem_flatMap, List.mem_map, Prod.mk.injEq, Prod.exists, mem_positions]
  constructor
  · rintro ⟨p, hp, B', β', hpos, rfl, rfl, rfl⟩
    exact ⟨p, hp, rfl, hpos⟩
  · rintro ⟨p, hp, rfl, hpos⟩
    exact ⟨p, hp, B, β, hpos, rfl, rfl, rfl⟩

/-- FOLLOW of `B` after the rule of the site `(A, B, β)`. -/
def followNew (info : Array KindInfo) (site : Kind × Kind × List GSym) : SymSet :=
  let set := (infoOf info site.2.1).follow.union (firstIn info site.2.2)
  if nullableIn info site.2.2 then set.union (infoOf info site.1).follow else set

/-- The FOLLOW rule of a site applied to the slots. -/
def followRule (info : Array KindInfo) (site : Kind × Kind × List GSym) : Array KindInfo :=
  info.modify site.2.1.code fun _ => { infoOf info site.2.1 with follow := followNew info site }

/-- Whether the FOLLOW rule of a site changes the slots, as the pass decides it. -/
def followGrows (info : Array KindInfo) (site : Kind × Kind × List GSym) : Bool :=
  (followNew info site).length != (infoOf info site.2.1).follow.length

theorem followPass_walk (p : Production) (seq : List GSym) (st : Array KindInfo × Bool) :
    followPass.walk p seq st =
      ((positions seq).map (Prod.mk p.lhs)).foldl (flagged followRule followGrows) st := by
  induction seq generalizing st with
  | nil => rfl
  | cons s rest ih =>
    obtain ⟨info, c⟩ := st
    cases s with
    | nonterminal k =>
      rw [followPass.walk]
      simp only [positions, List.map_cons, List.foldl_cons]
      rw [← ih]
      rfl
    | terminal t =>
      rw [followPass.walk]
      · exact ih (info, c)
      · intro _ _ _ _ h; cases h
    | action id =>
      rw [followPass.walk]
      · exact ih (info, c)
      · intro _ _ _ _ h; cases h

theorem followPass_eq (rules : List Production) (info : Array KindInfo) :
    followPass rules info = (followSites rules).foldl (flagged followRule followGrows) (info, false) := by
  unfold followPass
  simp only [Prod.mk.eta, followPass_walk]
  generalize (info, false) = st
  induction rules generalizing st with
  | nil => rfl
  | cons p ps ih =>
    rw [List.foldl_cons, followSites, List.flatMap_cons, List.foldl_append, ← followSites]
    exact ih _

/-- The slots when the FOLLOW passes start: the FIRST slots with the end marker after the start
symbol. -/
def followStart (g : Grammar) : Array KindInfo :=
  (firstSlots g).modify g.start.code fun _ =>
    { infoOf (firstSlots g) g.start with
      follow := (infoOf (firstSlots g) g.start).follow.insert .endOfInput }

theorem analyze_info (g : Grammar) :
    g.analyze.info = saturate (followPass g.rules) g.passBound (followStart g) := rfl

/-- What the FOLLOW passes keep: eight slots with the nullable marks and FIRST sets of the FIRST
passes, and sorted FOLLOW sets of terminals of the grammar and the end marker, sound for
`Follows`, with the end marker after the start symbol. -/
structure FollowInv (g : Grammar) (info : Array KindInfo) : Prop where
  size : info.size = 8
  nullable : ∀ k, (infoOf info k).nullable = (infoOf (firstSlots g) k).nullable
  first : ∀ k, (infoOf info k).first = (infoOf (firstSlots g) k).first
  sorted : ∀ k, SymSet.Sorted (infoOf info k).follow
  bounded : ∀ k, (infoOf info k).follow ⊆ .endOfInput :: rhsTerminals g.rules
  sound : ∀ k a, a ∈ (infoOf info k).follow → g.Follows k a
  start : .endOfInput ∈ (infoOf info g.start).follow

/-- The slots are closed under the FOLLOW rules of a grammar. -/
def ClosedFollow (g : Grammar) (info : Array KindInfo) : Prop :=
  ∀ A B β, (A, B, β) ∈ followSites g.rules →
    firstIn info β ⊆ (infoOf info B).follow ∧
      (nullableIn info β = true → (infoOf info A).follow ⊆ (infoOf info B).follow)

/-- The measure the FOLLOW passes raise: the sizes of the FOLLOW sets. -/
def followWeight : Array KindInfo → Nat :=
  slotWeight fun i => i.follow.length

section FollowPasses

variable {g : Grammar} {info : Array KindInfo} {A B : Kind} {β : List GSym} {a : Symbol}

theorem FollowInv.firstIn (hi : FollowInv g info) (seq : List GSym) :
    firstIn info seq = firstIn (firstSlots g) seq :=
  congrArg Prod.fst (firstOfSeqWith_congr (fun k => ⟨hi.nullable k, hi.first k⟩) [] seq)

theorem FollowInv.nullableIn (hi : FollowInv g info) (seq : List GSym) :
    nullableIn info seq = nullableIn (firstSlots g) seq :=
  congrArg Prod.snd (firstOfSeqWith_congr (fun k => ⟨hi.nullable k, hi.first k⟩) [] seq)

theorem mem_followNew :
    a ∈ followNew info (A, B, β) ↔ a ∈ (infoOf info B).follow ∨ a ∈ firstIn info β ∨
      (nullableIn info β = true ∧ a ∈ (infoOf info A).follow) := by
  unfold followNew
  split <;> simp_all [or_assoc]

theorem sorted_followNew (hs : SymSet.Sorted (infoOf info B).follow) :
    SymSet.Sorted (followNew info (A, B, β)) := by
  unfold followNew
  split
  · exact hs.union.union
  · exact hs.union

theorem length_le_followNew :
    (infoOf info B).follow.length ≤ (followNew info (A, B, β)).length := by
  unfold followNew
  split
  · exact Nat.le_trans SymSet.length_le_union SymSet.length_le_union
  · exact SymSet.length_le_union

theorem infoOf_followRule (h : info.size = 8) (k : Kind) :
    infoOf (followRule info (A, B, β)) k =
      if k = B then { infoOf info B with follow := followNew info (A, B, β) } else infoOf info k := by
  rw [followRule, infoOf_modify h]

theorem FollowInv.followRule (hi : FollowInv g info) (hs : (A, B, β) ∈ followSites g.rules) :
    FollowInv g (followRule info (A, B, β)) := by
  obtain ⟨p, hp, rfl, α, hrhs⟩ := mem_followSites.mp hs
  refine ⟨by rw [ExprTranslate.followRule, Array.size_modify, hi.size], fun k => ?_, fun k => ?_,
    fun k => ?_, fun k => ?_, fun k a => ?_, ?_⟩
  all_goals rw [infoOf_followRule hi.size]
  case refine_1 =>
    split
    · next hk => subst hk; exact hi.nullable _
    · exact hi.nullable k
  case refine_2 =>
    split
    · next hk => subst hk; exact hi.first _
    · exact hi.first k
  case refine_3 =>
    split
    · exact sorted_followNew (hi.sorted B)
    · exact hi.sorted k
  case refine_4 =>
    split
    · intro b hb
      rcases mem_followNew.mp hb with hold | hfirst | ⟨_, hlhs⟩
      · exact hi.bounded B hold
      · have hsub : ExprTranslate.firstIn info β ⊆ rhsTerminals g.rules := firstIn_subset
          (fun k => by rw [hi.first k]; exact firstInv_firstSlots.bounded k)
          (fun t ht => mem_rhsTerminals hp (by rw [hrhs]; simp [ht]))
        exact List.mem_cons_of_mem _ (hsub hfirst)
      · exact hi.bounded p.lhs hlhs
    · exact hi.bounded k
  case refine_5 =>
    split
    · next hk =>
      subst hk
      intro ha
      rcases mem_followNew.mp ha with hold | hfirst | ⟨hnull, hlhs⟩
      · exact hi.sound _ a hold
      · rw [hi.firstIn] at hfirst
        exact .first hp hrhs (firstInv_firstSlots.sound.firstIn hfirst)
      · rw [hi.nullableIn] at hnull
        exact .follow hp hrhs (firstInv_firstSlots.sound.nullableIn hnull) (hi.sound p.lhs a hlhs)
    · exact hi.sound k a
  case refine_6 =>
    split
    · next hk =>
      subst hk
      exact mem_followNew.mpr (.inl hi.start)
    · exact hi.start

/-- A rule that leaves the size of the set alone is satisfied by the slots. -/
theorem followGrows_eq_false (hs : SymSet.Sorted (infoOf info B).follow)
    (h : followGrows info (A, B, β) = false) :
    firstIn info β ⊆ (infoOf info B).follow ∧
      (nullableIn info β = true → (infoOf info A).follow ⊆ (infoOf info B).follow) := by
  have hlen : (followNew info (A, B, β)).length = (infoOf info B).follow.length := by
    simpa [followGrows] using h
  unfold followNew at hlen
  split at hlen
  · next hnull =>
    have hfirst : firstIn info β ⊆ (infoOf info B).follow :=
      SymSet.subset_of_length_union hs (Nat.le_trans SymSet.length_le_union hlen.le)
    rw [SymSet.union_eq_self hs hfirst] at hlen
    exact ⟨hfirst, fun _ => SymSet.subset_of_length_union hs hlen.le⟩
  · next hnull =>
    exact ⟨SymSet.subset_of_length_union hs hlen.le, fun h => absurd h hnull⟩

theorem followRule_eq_self (hi : FollowInv g info) (h : followGrows info (A, B, β) = false) :
    followRule info (A, B, β) = info := by
  obtain ⟨hfirst, hlhs⟩ := followGrows_eq_false (hi.sorted B) h
  have hnew : followNew info (A, B, β) = (infoOf info B).follow := by
    unfold followNew
    split
    · next hnull =>
      rw [SymSet.union_eq_self (hi.sorted B) hfirst, SymSet.union_eq_self (hi.sorted B) (hlhs hnull)]
    · exact SymSet.union_eq_self (hi.sorted B) hfirst
  rw [followRule]
  simp only [hnew]
  exact modify_infoOf hi.size B

theorem followWeight_followRule_le (hi : FollowInv g info) :
    followWeight info ≤ followWeight (followRule info (A, B, β)) :=
  slotWeight_modify_le hi.size length_le_followNew

theorem followWeight_followRule_lt (hi : FollowInv g info) (h : followGrows info (A, B, β) = true) :
    followWeight info < followWeight (followRule info (A, B, β)) := by
  apply slotWeight_modify_lt hi.size
  have hle : (infoOf info B).follow.length ≤ (followNew info (A, B, β)).length :=
    length_le_followNew
  have hne : (followNew info (A, B, β)).length ≠ (infoOf info B).follow.length := by
    simpa [followGrows] using h
  show (infoOf info B).follow.length < (followNew info (A, B, β)).length
  omega

theorem followWeight_le (hi : FollowInv g info) :
    followWeight info ≤ 8 * ((rhsTerminals g.rules).length + 1) :=
  slotWeight_le fun k => (hi.sorted k).length_le (hi.bounded k)

theorem FollowInv.followPass (hi : FollowInv g info) : FollowInv g (followPass g.rules info).1 := by
  rw [followPass_eq, foldl_flagged_fst]
  exact foldl_invariant (fun _ _ hs hi => hi.followRule hs) hi

theorem followWeight_followPass (hi : FollowInv g info) (h : (followPass g.rules info).2 = true) :
    followWeight info < followWeight (followPass g.rules info).1 := by
  rw [followPass_eq] at h ⊢
  rw [foldl_flagged_fst]
  have hgrow := foldl_flagged_weight followWeight (fun _ _ hs hi => hi.followRule hs)
    (fun _ _ _ hi => followWeight_followRule_le hi)
    (fun _ _ _ hi hg => followWeight_followRule_lt hi hg) hi false
  simpa using hgrow.2 h

/-- A FOLLOW pass that reports no change left the slots as they were, and they are closed under
the FOLLOW rules. -/
theorem followPass_quiet {info' : Array KindInfo} (hi : FollowInv g info)
    (h : followPass g.rules info = (info', false)) : info' = info ∧ ClosedFollow g info := by
  rw [followPass_eq] at h
  have hflag : ((followSites g.rules).foldl (flagged followRule followGrows) (info, false)).2 = false := by
    rw [h]
  obtain ⟨hsame, hall⟩ :=
    foldl_flagged_quiet (I := FollowInv g) (fun _ _ _ hi hg => followRule_eq_self hi hg) hi hflag
  refine ⟨?_, fun A B β hs => followGrows_eq_false (hi.sorted B) (hall _ hs)⟩
  have hfst : ((followSites g.rules).foldl (flagged followRule followGrows) (info, false)).1 =
      (followSites g.rules).foldl followRule info :=
    foldl_flagged_fst _ info false
  rw [h] at hfst
  exact hfst.trans hsame

/-- Closed slots hold every terminal that may follow a kind. -/
theorem ClosedFollow.follows (hc : ClosedFollow g info) (hi : FollowInv g info) {k : Kind}
    (h : g.Follows k a) : a ∈ (infoOf info k).follow := by
  induction h with
  | start => exact hi.start
  | @first p α β B a hp hrhs hbegin =>
    have hsite : (p.lhs, B, β) ∈ followSites g.rules := mem_followSites.mpr ⟨p, hp, rfl, α, hrhs⟩
    apply (hc _ _ _ hsite).1
    rw [hi.firstIn]
    exact closedFirst_firstSlots.firstIn hbegin
  | @follow p α β B a hp hrhs hempty _ ih =>
    have hsite : (p.lhs, B, β) ∈ followSites g.rules := mem_followSites.mpr ⟨p, hp, rfl, α, hrhs⟩
    apply (hc _ _ _ hsite).2 _ ih
    rw [hi.nullableIn]
    exact closedFirst_firstSlots.nullableIn hempty

end FollowPasses

section FollowSlots

variable {g : Grammar}

theorem followInv_followStart : FollowInv g (followStart g) := by
  have hf := firstInv_firstSlots (g := g)
  have hslot (k : Kind) : infoOf (followStart g) k = if k = g.start then
      { infoOf (firstSlots g) g.start with follow := [.endOfInput] } else infoOf (firstSlots g) k := by
    rw [followStart, infoOf_modify hf.size, hf.noFollow]
    rfl
  refine ⟨by rw [followStart, Array.size_modify, hf.size], fun k => ?_, fun k => ?_, fun k => ?_,
    fun k => ?_, fun k a => ?_, ?_⟩
  all_goals rw [hslot]
  case refine_1 => split <;> simp_all
  case refine_2 => split <;> simp_all
  case refine_3 => split <;> simp [hf.noFollow, SymSet.Sorted]
  case refine_4 => split <;> simp [hf.noFollow]
  case refine_5 =>
    split
    · next hk =>
      subst hk
      simp only [List.mem_singleton]
      rintro rfl
      exact .start
    · simp [hf.noFollow]
  case refine_6 => simp

/-- The FOLLOW passes run until one changes nothing: each pass that changes something adds a
terminal of the grammar or the end marker to a FOLLOW set. -/
theorem followSlots_saturates : Saturates (followPass g.rules) (followStart g) g.analyze.info := by
  have hroom : 8 * ((rhsTerminals g.rules).length + 1) < g.passBound + followWeight (followStart g) := by
    have := length_rhsTerminals g.rules
    simp only [Grammar.passBound, Grammar.size]
    omega
  rw [analyze_info]
  exact saturate_saturates (I := FollowInv g) followWeight _ (fun _ hi => hi.followPass)
    (fun _ hi h => followWeight_followPass hi h) (fun _ hi => followWeight_le hi) _ _
    followInv_followStart hroom

theorem followInv_analyze : FollowInv g g.analyze.info :=
  followSlots_saturates.invariant (fun _ hi => hi.followPass) followInv_followStart

theorem closedFollow_analyze : ClosedFollow g g.analyze.info := by
  obtain ⟨i, hi, hpass⟩ := followSlots_saturates.last (fun _ hi => hi.followPass) followInv_followStart
  obtain ⟨rfl, hclosed⟩ := followPass_quiet hi hpass
  exact hclosed

end FollowSlots

/-! ### The analysis -/

section Analysis

variable (g : Grammar)

theorem analyze_nullable_iff (k : Kind) :
    g.analyze.nullable k = true ↔ g.DerivesEmpty [.nonterminal k] := by
  rw [Analysis.nullable, followInv_analyze.nullable]
  refine ⟨firstInv_firstSlots.sound.nullable k, fun h => ?_⟩
  simpa [nullableIn_cons, GSym.vanishes] using closedFirst_firstSlots.nullableIn h

theorem mem_analyze_first (k : Kind) (a : Symbol) :
    a ∈ g.analyze.first k ↔ g.BeginsWith [.nonterminal k] a := by
  rw [Analysis.first, followInv_analyze.first]
  refine ⟨firstInv_firstSlots.sound.first k a, fun h => ?_⟩
  simpa [mem_firstIn_cons, GSym.starts] using closedFirst_firstSlots.firstIn h

theorem mem_analyze_follow (k : Kind) (a : Symbol) : a ∈ g.analyze.follow k ↔ g.Follows k a :=
  ⟨followInv_analyze.sound k a, closedFollow_analyze.follows followInv_analyze⟩

theorem firstOfSeq_nullable_iff (seq : List GSym) :
    (g.analyze.firstOfSeq seq).2 = true ↔ g.DerivesEmpty seq := by
  show nullableIn g.analyze.info seq = true ↔ _
  rw [followInv_analyze.nullableIn]
  exact ⟨firstInv_firstSlots.sound.nullableIn, closedFirst_firstSlots.nullableIn⟩

theorem mem_firstOfSeq (seq : List GSym) (a : Symbol) :
    a ∈ (g.analyze.firstOfSeq seq).1 ↔ g.BeginsWith seq a := by
  show a ∈ firstIn g.analyze.info seq ↔ _
  rw [followInv_analyze.firstIn]
  exact ⟨firstInv_firstSlots.sound.firstIn, closedFirst_firstSlots.firstIn⟩

/-- The analysis of a grammar ends each of its two loops with a pass that changes nothing, and
computes the least solution of the equations of nullability, FIRST and FOLLOW: a kind is
nullable when it derives the empty string, FIRST of a kind or of a sequence holds the terminals
that begin what it derives, and FOLLOW is the least relation closed under the rules. -/
theorem analyze_least_solution :
    Saturates (firstPass g.rules) Analysis.blank (firstSlots g) ∧
      Saturates (followPass g.rules) (followStart g) g.analyze.info ∧
      (∀ k, g.analyze.nullable k = true ↔ g.DerivesEmpty [.nonterminal k]) ∧
      (∀ k a, a ∈ g.analyze.first k ↔ g.BeginsWith [.nonterminal k] a) ∧
      (∀ k a, a ∈ g.analyze.follow k ↔ g.Follows k a) ∧
      ∀ seq, ((g.analyze.firstOfSeq seq).2 = true ↔ g.DerivesEmpty seq) ∧
        ∀ a, a ∈ (g.analyze.firstOfSeq seq).1 ↔ g.BeginsWith seq a :=
  ⟨firstSlots_saturates, followSlots_saturates, analyze_nullable_iff g, mem_analyze_first g,
    mem_analyze_follow g, fun seq => ⟨firstOfSeq_nullable_iff g seq, mem_firstOfSeq g seq⟩⟩

end Analysis

end ExprTranslate
