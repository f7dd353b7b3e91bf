import Mathlib.Data.String.Basic
import Mathlib.Logic.Equiv.List
import ExprTranslate.Cli.Cache
import ExprTranslate.Proofs.Scanning
/-!
# The cache of a session shows nothing of its own

A session keeps the translations of its expression lines, keyed by the lexemes of the line's
tokens, the identity-elimination switch and the bindings sorted by name. Given a hash that tells
keys apart, the cache changes nothing a session shows: lines given one by one to a session with
the cache show and reply what they show and reply without it, and a translation found in the
cache is the one translating the line's tokens now would give.

The key carries less than the translation reads, and three facts make up for it:

* the translator reads its bindings only by name (`translate_bindings_congr`), and sorting the
  bindings by name keeps what each name is bound to (`lookup_sortedBindings`);
* the tokens of one scanned line follow from their lexemes (`scanLine_tokens_eq_lineTokens`):
  every word is classified by itself and lies on line 1;
* a failed translation is never kept.

So a key stands for one translation (`TranslationKey.translation`), `CacheSound` says the cache
keeps only those, `CacheSound.evalCached` is the step of a line and `CacheSound.evalLinesCached`
the run.
-/

namespace ExprTranslate

/-! ### The translator reads its bindings by name -/

section Bindings

variable {α : Type} (c : Config α) {b b' : Bindings α}

theorem hold_bindings_congr (hb : ∀ n, b.lookup n = b'.lookup n) :
    hold { c with bindings := b } = hold { c with bindings := b' } := by
  funext tok pos
  simp only [hold, hb]

theorem matchTerminal_bindings_congr (hb : ∀ n, b.lookup n = b'.lookup n) :
    matchTerminal { c with bindings := b } = matchTerminal { c with bindings := b' } := by
  funext s
  unfold matchTerminal
  rw [hold_bindings_congr c hb]
  rfl

/-- Expanding and executing read no bindings, so a step differs only where it holds a literal. -/
theorem step_bindings_congr (hb : ∀ n, b.lookup n = b'.lookup n) :
    step { c with bindings := b } = step { c with bindings := b' } := by
  unfold step
  rw [matchTerminal_bindings_congr c hb]
  rfl

theorem runSteps_bindings_congr (hb : ∀ n, b.lookup n = b'.lookup n) (fuel : Nat)
    (st : State α) :
    runSteps { c with bindings := b } fuel st = runSteps { c with bindings := b' } fuel st := by
  induction fuel generalizing st with
  | zero => rfl
  | succ fuel ih => simp only [runSteps, step_bindings_congr c hb, ih]

/-- Bindings that bind every name alike give the same translation. -/
theorem translate_bindings_congr (hb : ∀ n, b.lookup n = b'.lookup n) (tokens : List Token) :
    translate { c with bindings := b } tokens = translate { c with bindings := b' } tokens := by
  simp only [translate, runSteps_bindings_congr c hb]
  rfl

end Bindings

namespace Cli

/-! ### Sorted bindings -/

/-- Sorting by name is stable: the bindings of one name keep their order. -/
theorem filter_sortedBindings (b : Bindings Float) (n : String) :
    (sortedBindings b).filter (·.1 == n) = b.filter (·.1 == n) := by
  have htrans : ∀ x y z : String × Float, decide (x.1 ≤ y.1) = true →
      decide (y.1 ≤ z.1) = true → decide (x.1 ≤ z.1) = true := by
    simp only [decide_eq_true_eq]
    exact fun _ _ _ => le_trans
  have htotal : ∀ x y : String × Float, (decide (x.1 ≤ y.1) || decide (y.1 ≤ x.1)) = true := by
    intro x y
    simpa using le_total x.1 y.1
  -- the bindings of `n` are sorted already, so they stay a sublist of the sorted bindings
  have hsub : (b.filter (·.1 == n)).Sublist (sortedBindings b) := by
    apply List.sublist_mergeSort htrans htotal _ List.filter_sublist
    refine List.Pairwise.imp_of_mem (R := fun _ _ => True) ?_ (List.pairwise_of_forall (by simp))
    intro x y hx hy _
    simp only [List.mem_filter, beq_iff_eq] at hx hy
    simp [hx.2, hy.2]
  have hsub' : (b.filter (·.1 == n)).Sublist ((sortedBindings b).filter (·.1 == n)) := by
    simpa using hsub.filter (·.1 == n)
  have hlen : ((sortedBindings b).filter (·.1 == n)).length = (b.filter (·.1 == n)).length :=
    ((List.mergeSort_perm b _).filter _).length_eq
  exact (hsub'.eq_of_length hlen.symm).symm

theorem lookup_sortedBindings (b : Bindings Float) (n : String) :
    Bindings.lookup (sortedBindings b) n = b.lookup n := by
  simp only [Bindings.lookup, ← List.head?_filter, filter_sortedBindings]

/-! ### The tokens of a line -/

/-- The tokens of one scanned line with the given lexemes, the end marker's last: each word
classified by itself, all on line 1. -/
def lineTokens (lexemes : List String) : List Token :=
  (lexemes.dropLast.map fun w => ⟨w, Lexicon.classify w, 1⟩) ++ [Token.endMarker 1]

/-- A line scanned on its own gives the tokens its lexemes determine. -/
theorem scanLine_tokens_eq_lineTokens (line : String) :
    (({} : Scanner).scanLine line).tokens =
      lineTokens ((({} : Scanner).scanLine line).tokens.map (·.lexeme)) := by
  have hrun : ({} : Scanner).scanLine line =
      (Scanner.words line).foldl (Scanner.addWord 1) { lines := 1 } := rfl
  obtain ⟨hlines, hread, -⟩ := Scanner.foldl_addWord 1 { lines := 1 } (Scanner.words line)
  rw [hrun]
  -- keep the words opaque: unfolding them would lower the line
  generalize (Scanner.words line).foldl (Scanner.addWord 1) { lines := 1 } = sc at hlines hread
  simp only [Scanner.tokens, hlines, hread, lineTokens, Token.endMarker, List.map_append,
    List.map_map]
  simp

/-! ### What a key stands for -/

/-- The translation a key stands for: the tokens of its lexemes, translated with its switch and
its bindings. -/
def TranslationKey.translation (k : TranslationKey) : Translated Float :=
  translate ({ optimize := k.optimize, bindings := k.bindings } : Settings).config
    (lineTokens k.input)

/-- The key of a scanned line stands for the line's translation in the session. -/
theorem translation_cacheKey (s : Session) (line : String) :
    (s.cacheKey (({} : Scanner).scanLine line).tokens).translation =
      translate s.settings.config (({} : Scanner).scanLine line).tokens := by
  -- unfold the configurations into their fields, so that no step compares the expression table
  -- with a projection of one (that would build the table)
  unfold TranslationKey.translation Session.cacheKey Settings.config
  dsimp only
  rw [translate_bindings_congr
      { arith := Arith.float, table := expressionTable, optimize := s.settings.optimize,
        bindings := s.settings.bindings } (lookup_sortedBindings _),
    ← scanLine_tokens_eq_lineTokens line]

/-! ### The cache keeps only what keys stand for -/

/-- Every translation the cache keeps under the fingerprint of a key is the one the key stands
for. -/
def CacheSound (hash : TranslationKey → String) (cache : TranslationCache) : Prop :=
  ∀ k t, cache.lookup (hash k) = some t → t = k.translation

section Sound

variable {hash : TranslationKey → String} {cache : TranslationCache}

theorem cacheSound_nil (hash : TranslationKey → String) : CacheSound hash [] :=
  fun _ _ h => absurd h (by simp)

/-- Keeping a key's translation under its fingerprint keeps the cache sound, as a hash that
tells keys apart gives no other key that fingerprint. -/
theorem CacheSound.cons (hinj : Function.Injective hash) (hc : CacheSound hash cache)
    (k : TranslationKey) : CacheSound hash ((hash k, k.translation) :: cache) := by
  intro k' t h
  by_cases hk : hash k' = hash k
  · have hbeq : (hash k' == hash k) = true := beq_iff_eq.mpr hk
    simp only [List.lookup_cons, hbeq, Option.some.injEq] at h
    rw [hinj hk, h]
  · have hbeq : (hash k' == hash k) = false := beq_eq_false_iff_ne.mpr hk
    simp only [List.lookup_cons, hbeq] at h
    exact hc k' t h

/-- A command, or a line with unrecognized words, never reaches the cache. -/
theorem evalCached_of_uncached (s : Session) {line : String}
    (h : line.startsWith ":" = true ∨ (({} : Scanner).scanLine line).errors.isEmpty = false) :
    s.evalCached hash cache line = (s.eval line, cache) := by
  unfold Session.evalCached Session.eval
  -- keep the scanned line opaque: unfolding it would lower the line
  generalize ({} : Scanner).scanLine line = sc at h ⊢
  rcases h with hcmd | herr
  · simp only [hcmd, if_true]
  · by_cases hcmd : line.startsWith ":" = true
    · simp only [hcmd, if_true]
    · simp only [hcmd, herr, Bool.not_false, Bool.false_eq_true, if_false, if_true]

/-- An expression line without unrecognized words shows its translation. -/
theorem eval_of_expression (s : Session) {line : String} (hcmd : line.startsWith ":" = false)
    (herr : (({} : Scanner).scanLine line).errors.isEmpty = true) :
    s.eval line =
      (if s.showTokens then report (({} : Scanner).scanLine line).tokens else "",
        s.answer (translate s.settings.config (({} : Scanner).scanLine line).tokens)) := by
  unfold Session.eval Session.answer
  generalize ({} : Scanner).scanLine line = sc at herr ⊢
  simp only [hcmd, herr, Bool.not_true, Bool.false_eq_true, if_false]
  -- keep the translation opaque: unfolding it would run the parser
  generalize translate s.settings.config sc.tokens = t
  rcases t with ⟨code, temps, steps, depth, cursor, events, ending⟩
  cases ending <;> rfl

/-- **Step.** With a sound cache, a line shows and replies what it does without one, and the
cache stays sound. -/
theorem CacheSound.evalCached (hinj : Function.Injective hash) (hc : CacheSound hash cache)
    (s : Session) (line : String) :
    (s.evalCached hash cache line).1 = s.eval line ∧
      CacheSound hash (s.evalCached hash cache line).2 := by
  by_cases hexpr : line.startsWith ":" = false ∧
      (({} : Scanner).scanLine line).errors.isEmpty = true
  case neg =>
    have huncached : line.startsWith ":" = true ∨
        (({} : Scanner).scanLine line).errors.isEmpty = false := by
      simpa only [not_and_or, Bool.not_eq_false, Bool.not_eq_true] using hexpr
    rw [evalCached_of_uncached s huncached]
    exact ⟨rfl, hc⟩
  case pos =>
    obtain ⟨hcmd, herr⟩ := hexpr
    rw [eval_of_expression s hcmd herr]
    have hkey := translation_cacheKey s line
    unfold Session.evalCached
    generalize ({} : Scanner).scanLine line = sc at herr hkey ⊢
    simp only [hcmd, herr, Bool.not_true, Bool.false_eq_true, if_false]
    generalize translate s.settings.config sc.tokens = t at hkey ⊢
    cases hfound : cache.lookup (hash (s.cacheKey sc.tokens)) with
    | some t' =>
      -- a kept translation is the line's translation now
      rw [hc _ t' hfound, hkey]
      exact ⟨rfl, hc⟩
    | none =>
      refine ⟨rfl, ?_⟩
      dsimp only
      split
      · rw [← hkey]
        exact hc.cons hinj _
      · exact hc

end Sound

/-! ### Lines one by one -/

/-- The session after a reply: the one a shown reply carries; a failure or the end leaves it. -/
def Reply.after : Reply → Session → Session
  | .shown _ next, _ => next
  | .failed _, s => s
  | .quit, s => s

/-- Lines given one by one to a session: what each shows and replies. -/
def Session.evalLines (s : Session) : List String → List (String × Reply)
  | [] => []
  | line :: rest => s.eval line :: ((s.eval line).2.after s).evalLines rest

/-- Lines given one by one to a session with a cache: what each shows and replies. -/
def Session.evalLinesCached (hash : TranslationKey → String) (s : Session)
    (cache : TranslationCache) : List String → List (String × Reply)
  | [] => []
  | line :: rest =>
    (s.evalCached hash cache line).1 ::
      (((s.evalCached hash cache line).1.2.after s).evalLinesCached hash
        (s.evalCached hash cache line).2 rest)

/-- The session and the cache after lines given one by one. -/
def Session.reachCached (hash : TranslationKey → String) (s : Session)
    (cache : TranslationCache) : List String → Session × TranslationCache
  | [] => (s, cache)
  | line :: rest =>
    ((s.evalCached hash cache line).1.2.after s).reachCached hash
      (s.evalCached hash cache line).2 rest

/-- **Run.** From a sound cache, lines show and reply what they do without the cache, and the
cache they leave is sound. -/
theorem CacheSound.evalLinesCached {hash : TranslationKey → String} (hinj : Function.Injective hash)
    {cache : TranslationCache} (hc : CacheSound hash cache) (s : Session) (lines : List String) :
    s.evalLinesCached hash cache lines = s.evalLines lines ∧
      CacheSound hash (s.reachCached hash cache lines).2 := by
  induction lines generalizing s cache with
  | nil => exact ⟨rfl, hc⟩
  | cons line rest ih =>
    obtain ⟨heval, hc'⟩ := hc.evalCached hinj s line
    obtain ⟨hrest, hreach⟩ := ih hc' ((s.evalCached hash cache line).1.2.after s)
    refine ⟨?_, hreach⟩
    rw [Session.evalLinesCached, Session.evalLines, hrest, heval]

/-- **The cache shows nothing of its own.** With a hash that tells keys apart, lines given one
by one to a session with an empty cache show and reply exactly what they do without a cache,
and afterwards every translation the cache holds for a line is the one translating the line
gives in the session reached. -/
theorem session_cache_transparent (hash : TranslationKey → String)
    (hinj : Function.Injective hash) (s : Session) (lines : List String) :
    s.evalLinesCached hash [] lines = s.evalLines lines ∧
      ∀ s' cache', s.reachCached hash [] lines = (s', cache') →
        ∀ line t, cache'.lookup (hash (s'.cacheKey (({} : Scanner).scanLine line).tokens)) = some t →
          t = translate s'.settings.config (({} : Scanner).scanLine line).tokens := by
  obtain ⟨hlines, hsound⟩ := (cacheSound_nil hash).evalLinesCached hinj s lines
  refine ⟨hlines, ?_⟩
  intro s' cache' hreach line t hfound
  rw [hreach] at hsound
  rw [hsound _ t hfound, translation_cacheKey]

/-! ### A hash that tells keys apart -/

/-- A key in numbers: lexemes and names by the code points of their characters, values by their
bits. -/
def TranslationKey.codes (k : TranslationKey) : List (List ℕ) × Bool × List (List ℕ × ℕ) :=
  (k.input.map fun w => w.toList.map Char.toNat, k.optimize,
    k.bindings.map fun b => (b.1.toList.map Char.toNat, b.2.toBits.toNat))

/-- Floats with the same bits are the same float. -/
theorem float_eq_of_toBits_eq {v v' : Float} (h : v.toBits = v'.toBits) : v = v' := by
  rcases v with ⟨⟨bits, valid⟩⟩
  rcases v' with ⟨⟨bits', valid'⟩⟩
  -- a float's bits are the bits of its model, read off without unfolding `Float.toBits`
  have hbits : bits = bits' := h
  subst hbits
  rfl

theorem codes_injective : Function.Injective TranslationKey.codes := by
  have hname : Function.Injective fun w : String => w.toList.map Char.toNat :=
    fun w w' h => String.toList_injective
      (List.map_injective_iff.mpr (fun _ _ h => Char.toNat_inj.mp h) h)
  have hvalue : Function.Injective fun v : Float => v.toBits.toNat :=
    fun v v' h => float_eq_of_toBits_eq (UInt64.toNat_inj.mp h)
  have hbinding : Function.Injective fun b : String × Float =>
      (b.1.toList.map Char.toNat, b.2.toBits.toNat) :=
    fun b b' h => Prod.ext (hname (Prod.ext_iff.mp h).1) (hvalue (Prod.ext_iff.mp h).2)
  rintro ⟨input, optimize, bindings⟩ ⟨input', optimize', bindings'⟩ h
  simp only [TranslationKey.codes, Prod.mk.injEq] at h
  obtain ⟨hin, hopt, hbind⟩ := h
  rw [List.map_injective_iff.mpr hname hin, hopt, List.map_injective_iff.mpr hbinding hbind]

/-- A fingerprint of keys: a run of `a` as long as the number that encodes the key. -/
def tallyHash (k : TranslationKey) : String :=
  String.ofList (List.replicate (Encodable.encode k.codes) 'a')

theorem tallyHash_injective : Function.Injective tallyHash := by
  intro k k' h
  have hlen := congrArg String.length h
  simp only [tallyHash, String.length_ofList, List.length_replicate] at hlen
  exact codes_injective (Encodable.encode_injective hlen)

/-- The lines of a short session: an expression, the same one written otherwise, a binding, and
the expression again. -/
theorem tallyHash_session_cache_transparent :
    Function.Injective tallyHash ∧
      (({ settings := { optimize := true, bindings := [] } } : Session).evalLinesCached tallyHash []
          ["a + 1", "A+1", ":let a 4", "a + 1"] =
        ({ settings := { optimize := true, bindings := [] } } : Session).evalLines
          ["a + 1", "A+1", ":let a 4", "a + 1"] ∧
      ∀ s' cache', ({ settings := { optimize := true, bindings := [] } } : Session).reachCached
          tallyHash [] ["a + 1", "A+1", ":let a 4", "a + 1"] = (s', cache') →
        ∀ line t,
          cache'.lookup (tallyHash (s'.cacheKey (({} : Scanner).scanLine line).tokens)) = some t →
            t = translate s'.settings.config (({} : Scanner).scanLine line).tokens) :=
  ⟨tallyHash_injective,
    session_cache_transparent tallyHash tallyHash_injective _ ["a + 1", "A+1", ":let a 4", "a + 1"]⟩

end Cli

end ExprTranslate
