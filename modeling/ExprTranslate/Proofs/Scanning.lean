import ExprTranslate.Token.Scanner
/-!
# Scanning a line

A line becomes tokens in three steps: its operators and delimiters are set apart by spaces, it is
lowered, and it is split into words at blanks. Each word is one token of the line, classified
whole. This module states each step as the scanner's description of it has it:

* `separate_cons`: normalization scans the line from the left and, at each position, sets apart
  the first operator in table order that the rest starts with, else the first delimiter, and
  keeps any other character; `<=`, `>=` and `:=` come before their prefixes, so they are never
  split;
* `words_eq_splitOnP`: the words are the maximal runs of non-blanks;
* `classify_eq_firstPattern`, `classifyBy_eq_classify`: the classifier's lexer is assumed to
  return the longest match of its patterns at the start of a word, the first pattern on equal
  length (`LongestMatch`); a word is classified only if that match covers it whole. This gives
  the priority keyword, operator, delimiter, number, identifier, and an error for the rest;
  `longestMatch` is such a lexer;
* `scanLine_tokens`: a line appends one token per word, in order, with the line's number, and
  one lexical error per word that is an error.
-/

namespace ExprTranslate

namespace Lexicon

/-! ### Setting lexemes apart -/

/-- The first lexeme of a table that a rest of a line starts with. -/
def prefixLexeme (table : List (String × Symbol)) (cs : List Char) : Option (List Char) :=
  (table.find? fun e => e.1.toList.isPrefixOf cs).map (·.1.toList)

/-- The lexeme set apart at a position: the first operator that the rest starts with, else the
first delimiter. -/
def lexemeAt (cs : List Char) : Option (List Char) :=
  (prefixLexeme operators cs).or (prefixLexeme delimiters cs)

/-- A two-character operator wins over its one-character prefix. -/
theorem lexemeAt_two {c : Char} (cs : List Char) (hc : c = '<' ∨ c = '>' ∨ c = ':') :
    lexemeAt (c :: '=' :: cs) = some [c, '='] := by
  rcases hc with rfl | rfl | rfl <;> simp [lexemeAt, prefixLexeme, operators, List.isPrefixOf]

/-- Where no two-character operator starts, the lexeme is the character itself, if it is an
operator or delimiter. -/
theorem lexemeAt_single {c : Char} {cs : List Char}
    (hc : ∀ d ∈ cs.head?, c = '<' ∨ c = '>' ∨ c = ':' → d ≠ '=') :
    lexemeAt (c :: cs) = if isSingle c then some [c] else none := by
  by_cases hs : isSingle c
  · simp only [isSingle, Bool.or_eq_true, decide_eq_true_eq] at hs
    rcases hs with ((((((((((((rfl | rfl) | rfl) | rfl) | rfl) | rfl) | rfl) | rfl) | rfl) | rfl) |
      rfl) | rfl) | rfl) <;> rcases cs with _ | ⟨d, ds⟩ <;>
      simp_all [lexemeAt, prefixLexeme, operators, delimiters, List.isPrefixOf, isSingle,
        eq_comm (a := '=')]
  · rcases cs with _ | ⟨d, ds⟩ <;>
      simp_all [lexemeAt, prefixLexeme, operators, delimiters, List.isPrefixOf, isSingle,
        eq_comm (b := c), eq_comm (a := '=')]

/-- **Normalization scans left to right.** At each position it sets apart the lexeme `lexemeAt`
finds there, with a space on each side, and goes on after it; where there is none it keeps the
character. -/
theorem separate_cons (c : Char) (cs : List Char) :
    separate (c :: cs) = (lexemeAt (c :: cs)).elim (c :: separate cs)
      fun lx => spaced lx ++ separate ((c :: cs).drop lx.length) := by
  -- unfold once: the equation lemmas of the character patterns are costly to build
  rw [separate.eq_def]
  split
  · rename_i h
    cases h
  · rename_i cs' h
    obtain ⟨rfl, rfl⟩ := List.cons.inj h
    rw [lexemeAt_two cs' (.inl rfl)]
    rfl
  · rename_i cs' h
    obtain ⟨rfl, rfl⟩ := List.cons.inj h
    rw [lexemeAt_two cs' (.inr (.inl rfl))]
    rfl
  · rename_i cs' h
    obtain ⟨rfl, rfl⟩ := List.cons.inj h
    rw [lexemeAt_two cs' (.inr (.inr rfl))]
    rfl
  · rename_i c' cs' h₁ h₂ h₃ h
    obtain ⟨rfl, rfl⟩ := List.cons.inj h
    -- no two-character operator starts here
    have hc : ∀ d ∈ cs.head?, c = '<' ∨ c = '>' ∨ c = ':' → d ≠ '=' := by
      intro d hd hc hdq
      obtain ⟨ds, rfl⟩ : ∃ ds, cs = d :: ds := by
        cases cs with
        | nil => cases hd
        | cons d' ds => exact ⟨ds, by cases hd; rfl⟩
      subst hdq
      rcases hc with hc | hc | hc
      · exact h₁ ds hc rfl
      · exact h₂ ds hc rfl
      · exact h₃ ds hc rfl
    rw [lexemeAt_single hc]
    split <;> rfl

end Lexicon

/-! ### Words -/

namespace Text

/-- The words read from the rest of a text, when the characters `acc` (last first) of a word are
already read: the runs between blanks, the first one after `acc`, without the empty runs. -/
theorem wordsAux_eq (cs acc : List Char) :
    wordsAux cs acc = ((cs.splitOnP isBlank).modifyHead (acc.reverse ++ ·)).filter (· ≠ []) := by
  have hid : ∀ l : List (List Char), l.modifyHead (fun x => x) = l :=
    fun l => congrFun List.modifyHead_id l
  induction cs generalizing acc with
  | nil => cases acc <;> simp [wordsAux]
  | cons c cs ih =>
    rw [List.splitOnP_cons_eq_if_modifyHead]
    by_cases hc : isBlank c
    · cases acc <;> simp [wordsAux, hc, ih, hid]
    · simp [wordsAux, hc, ih, List.modifyHead_modifyHead, Function.comp_def]

/-- **The words of a text are its maximal runs of non-blanks**, the text split at every blank
with the empty pieces dropped. -/
theorem words_eq_splitOnP (s : String) :
    words s = ((s.toList.splitOnP isBlank).filter (· ≠ [])).map String.ofList := by
  have hnil : (fun x : List Char => [].reverse ++ x) = id := rfl
  rw [words, wordsAux_eq, hnil, List.modifyHead_id, id]

end Text

/-! ### Classifying a word -/

namespace Lexicon

/-- The patterns of the word classifier, in the order they are added to its lexer: each keyword,
operator and delimiter as a literal, then numbers, then identifiers. -/
def patterns : List (Symbol × (String → Bool)) :=
  (keywords ++ operators ++ delimiters).map (fun e => (e.2, fun p => e.1 == p)) ++
    [(.number, isNumeral), (.identifier, isIdentifier)]

/-- The symbol of the first pattern that matches a whole text. -/
def firstPattern (p : String) : Option Symbol := (patterns.find? (·.2 p)).map (·.1)

/-- **A word is classified by the first pattern that matches it whole**, an error if none. -/
theorem classify_eq_firstPattern (w : String) : classify w = (firstPattern w).getD .error := by
  -- the literals come first: their search is the lexicon's
  have hlit : ((keywords ++ operators ++ delimiters).map fun e => (e.2, fun p => e.1 == p)).find?
      (·.2 w) = ((keywords ++ operators ++ delimiters).find? (·.1 == w)).map
        fun e => (e.2, fun p => e.1 == p) := by
    rw [List.find?_map]
    rfl
  rw [firstPattern, patterns, List.find?_append, hlit]
  unfold classify
  split
  · rename_i h
    rw [h]
    rfl
  · rename_i h
    simp only [h, Option.map_none, Option.none_or, List.find?_cons, List.find?_nil]
    split <;> split <;> simp_all

/-- The first `n` characters of a word. -/
def wordPrefix (w : String) (n : Nat) : String := String.ofList (w.toList.take n)

theorem wordPrefix_length (w : String) : wordPrefix w w.length = w := by
  simp [wordPrefix, ← String.length_toList]

/-- What the classifier's lexer is assumed to return for a word: the length of the longest
non-empty prefix that some pattern matches, with the first pattern that matches that prefix, or
nothing when no pattern matches a non-empty prefix. -/
def LongestMatch (w : String) (r : Option (Nat × Symbol)) : Prop :=
  (∀ n s, r = some (n, s) → 0 < n ∧ n ≤ w.length ∧ firstPattern (wordPrefix w n) = some s ∧
    ∀ m, n < m → m ≤ w.length → firstPattern (wordPrefix w m) = none) ∧
  (r = none → ∀ m, 0 < m → m ≤ w.length → firstPattern (wordPrefix w m) = none)

/-- How the scanner classifies a word with a lexer: the symbol of the match the lexer returns if
the match covers the whole word, else an error. -/
def classifyBy (next : String → Option (Nat × Symbol)) (w : String) : Symbol :=
  (next w).elim .error fun m => if m.1 = w.length then m.2 else .error

/-- **A longest-match lexer classifies as the priorities say.** The match covers the whole word
exactly when some pattern matches the whole word, and the first such pattern is then the one
chosen. -/
theorem classifyBy_eq_classify {next : String → Option (Nat × Symbol)} {w : String}
    (h : LongestMatch w (next w)) : classifyBy next w = classify w := by
  rw [classify_eq_firstPattern]
  unfold classifyBy
  rcases hn : next w with _ | ⟨n, s⟩
  · -- no match at all: no pattern matches the whole word, the empty word included
    by_cases hl : 0 < w.length
    · have hw := h.2 hn w.length hl (Nat.le_refl _)
      rw [wordPrefix_length] at hw
      simp [hw]
    · have he : w = "" := by
        rw [← wordPrefix_length w, Nat.eq_zero_of_not_pos hl]
        rfl
      subst he
      rfl
  · obtain ⟨-, hle, hs, hmax⟩ := h.1 n s hn
    by_cases heq : n = w.length
    · subst heq
      rw [wordPrefix_length] at hs
      simp [hs]
    · -- a shorter match: the whole word matches no pattern
      have hw := hmax w.length (Nat.lt_of_le_of_ne hle heq) (Nat.le_refl _)
      rw [wordPrefix_length] at hw
      simp [heq, hw]

/-- The longest-match lexer over the classifier's patterns: it tries the prefixes of a word from
the longest down, and takes the first pattern that matches. -/
def longestMatch (w : String) : Option (Nat × Symbol) :=
  (List.range w.length).reverse.findSome? fun i =>
    (firstPattern (wordPrefix w (i + 1))).map ((i + 1), ·)

/-- `longestMatch` is a longest-match lexer. -/
theorem longestMatch_spec (w : String) : LongestMatch w (longestMatch w) := by
  constructor
  · intro n s h
    obtain ⟨l₁, a, l₂, hl, ha, hnone⟩ := List.findSome?_eq_some_iff.mp h
    obtain ⟨s', hs', hpair⟩ := Option.map_eq_some_iff.mp ha
    obtain ⟨rfl, rfl⟩ := Prod.mk.inj hpair
    have ha_lt : a < w.length := by
      have : a ∈ (List.range w.length).reverse := by rw [hl]; simp
      simpa using this
    -- the prefixes are tried from the longest down, so every longer one comes first
    have hp : (l₁ ++ a :: l₂).Pairwise (· > ·) := by
      rw [← hl, List.pairwise_reverse]
      exact List.pairwise_lt_range
    refine ⟨Nat.succ_pos a, ha_lt, hs', fun m hm hml => ?_⟩
    have hmem : m - 1 ∈ l₁ := by
      have hin : m - 1 ∈ l₁ ++ a :: l₂ := by rw [← hl]; simp; omega
      rcases List.mem_append.mp hin with h₁ | h₂
      · exact h₁
      · have hbelow : ∀ y ∈ a :: l₂, y ≤ a := by
          intro y hy
          rcases List.mem_cons.mp hy with rfl | hy
          · exact Nat.le_refl _
          · exact Nat.le_of_lt ((List.pairwise_cons.mp (List.pairwise_append.mp hp).2.1).1 y hy)
        have := hbelow _ h₂
        omega
    have := hnone (m - 1) hmem
    rwa [Nat.sub_add_cancel (by omega : 1 ≤ m), Option.map_eq_none_iff] at this
  · intro h m hm hml
    have := List.findSome?_eq_none_iff.mp h (m - 1) (by simp; omega)
    rwa [Nat.sub_add_cancel hm, Option.map_eq_none_iff] at this

end Lexicon

/-! ### Scanning a line -/

namespace Scanner

/-- Reading words appends one token for each, with its symbol and the line, and one lexical error
for each that is an error. -/
theorem foldl_addWord (n : Nat) (s : Scanner) (ws : List String) :
    (ws.foldl (addWord n) s).lines = s.lines ∧
    (ws.foldl (addWord n) s).read.toList =
      s.read.toList ++ ws.map (fun w => ⟨w, Lexicon.classify w, n⟩) ∧
    (ws.foldl (addWord n) s).errors.toList =
      s.errors.toList ++ (ws.filter (Lexicon.classify · = .error)).map (⟨·, n⟩) := by
  induction ws generalizing s with
  | nil => simp
  | cons w ws ih =>
    obtain ⟨h₁, h₂, h₃⟩ := ih (s.addWord n w)
    rw [List.foldl_cons]
    refine ⟨by rw [h₁]; rfl, by rw [h₂]; simp [addWord], ?_⟩
    rw [h₃]
    by_cases he : Lexicon.classify w = .error <;> simp [addWord, he]

/-- **A line appends one token per word.** With a longest-match lexer, scanning a line counts it,
splits its normalized, lowered text at blanks, and appends, in order, one token per word with
the new line count as its line and the symbol the lexer classifies it with; that symbol is the
word's keyword, operator or delimiter, else a number or an identifier, else an error. Each error
is also reported once, as a lexical error of the line, and counted. Normalization sets apart
the first operator, else delimiter, at each position from the left. -/
theorem scanLine_tokens (next : String → Option (Nat × Symbol))
    (hnext : ∀ w, Lexicon.LongestMatch w (next w)) (s : Scanner) (line : String) :
    let n := s.lines + 1
    let ws := (((Text.lowerBuffered (Lexicon.normalize line)).toList.splitOnP Text.isBlank).filter
      (· ≠ [])).map String.ofList
    (s.scanLine line).lines = n ∧
    (s.scanLine line).read.toList =
      s.read.toList ++ ws.map (fun w => ⟨w, Lexicon.classifyBy next w, n⟩) ∧
    (s.scanLine line).errors.toList =
      s.errors.toList ++ (ws.filter (Lexicon.classifyBy next · = .error)).map (⟨·, n⟩) ∧
    (s.scanLine line).errorCount =
      s.errorCount + ws.countP (Lexicon.classifyBy next · = .error) ∧
    (∀ w, Lexicon.classifyBy next w = Lexicon.classify w) ∧
    Lexicon.separate [] = [] ∧
    (∀ c cs, Lexicon.separate (c :: cs) = (Lexicon.lexemeAt (c :: cs)).elim
      (c :: Lexicon.separate cs) fun lx => Lexicon.spaced lx ++ Lexicon.separate ((c :: cs).drop lx.length)) := by
  intro n ws
  have hcl : ∀ w, Lexicon.classifyBy next w = Lexicon.classify w :=
    fun w => Lexicon.classifyBy_eq_classify (hnext w)
  have hrun : s.scanLine line = ws.foldl (addWord n) { s with lines := n } := by
    rw [scanLine, Scanner.words, Text.words_eq_splitOnP]
  obtain ⟨h₁, h₂, h₃⟩ := foldl_addWord n { s with lines := n } ws
  refine ⟨by rw [hrun, h₁], ?_, ?_, ?_, hcl, rfl, Lexicon.separate_cons⟩
  · rw [hrun, h₂]
    simp only [hcl]
  · rw [hrun, h₃]
    simp only [hcl]
  · rw [errorCount, errorCount, hrun, ← Array.length_toList, h₃]
    simp [hcl, List.countP_eq_length_filter]

end Scanner

/-- Scanning `x:=1` with the longest-match lexer, on a fresh scanner. -/
theorem fresh_scanLine_tokens :
    (∀ w, Lexicon.LongestMatch w (Lexicon.longestMatch w)) ∧
    let s : Scanner := {}
    let line := "x:=1"
    let n := s.lines + 1
    let ws := (((Text.lowerBuffered (Lexicon.normalize line)).toList.splitOnP Text.isBlank).filter
      (· ≠ [])).map String.ofList
    (s.scanLine line).lines = n ∧
    (s.scanLine line).read.toList =
      s.read.toList ++ ws.map (fun w => ⟨w, Lexicon.classifyBy Lexicon.longestMatch w, n⟩) ∧
    (s.scanLine line).errors.toList =
      s.errors.toList ++ (ws.filter (Lexicon.classifyBy Lexicon.longestMatch · = .error)).map (⟨·, n⟩) ∧
    (s.scanLine line).errorCount =
      s.errorCount + ws.countP (Lexicon.classifyBy Lexicon.longestMatch · = .error) ∧
    (∀ w, Lexicon.classifyBy Lexicon.longestMatch w = Lexicon.classify w) ∧
    Lexicon.separate [] = [] ∧
    (∀ c cs, Lexicon.separate (c :: cs) = (Lexicon.lexemeAt (c :: cs)).elim
      (c :: Lexicon.separate cs) fun lx => Lexicon.spaced lx ++ Lexicon.separate ((c :: cs).drop lx.length)) :=
  ⟨Lexicon.longestMatch_spec, Scanner.scanLine_tokens Lexicon.longestMatch Lexicon.longestMatch_spec {} "x:=1"⟩

end ExprTranslate
