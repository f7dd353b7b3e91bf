import ExprTranslate.Proofs.Scanning
/-!
# Reading a text by lines and splitting it at line feeds

A text reaches the scanner in two ways. Read line by line (`Scanner.scanText`), each line loses
the line feeds and carriage returns at its end, and an empty piece after the last line feed is no
line. Split as a string (`scanPieces`), one line feed at its end is dropped and the rest is cut at
every line feed, carriage returns kept.

* `textLines_eq_trimmed_pieces`: the lines of a nonempty text are its pieces, each without the
  carriage returns at its end;
* `reading_scans_trimmed_pieces`: so reading a nonempty text scans as many lines as splitting it,
  and the same tokens when no piece ends in a carriage return. The empty text is no line when
  read and one empty piece when split;
* `reading_and_splitting_differ`: a carriage return can change the tokens. Lowering works in
  windows of bytes, and a capital sigma at the end of a window is final only when the window
  ends the line: read, the line ends at the sigma; split, the carriage return follows, so the
  sigma opens the next window, outside any word.
-/

namespace ExprTranslate

/-! ### Pieces of a split -/

section Pieces

variable {α : Type} [DecidableEq α]

/-- No piece of a split holds the separator. -/
theorem not_mem_of_mem_splitOn {a : α} {xs p : List α} (hp : p ∈ xs.splitOn a) : a ∉ p := by
  induction xs generalizing p with
  | nil =>
    rw [List.splitOn_nil, List.mem_singleton] at hp
    simp [hp]
  | cons x xs ih =>
    obtain ⟨q, qs, hq⟩ := List.exists_cons_of_ne_nil (List.splitOn_ne_nil a xs)
    rw [List.splitOn_cons_eq_if_modifyHead, hq] at hp
    rw [hq] at ih
    split at hp
    · -- a separator starts a new, empty piece
      rcases List.mem_cons.1 hp with rfl | hp
      · simp
      · exact ih hp
    · -- any other element joins the first piece
      rename_i hx
      rw [List.modifyHead_cons] at hp
      rcases List.mem_cons.1 hp with rfl | hp
      · have hxa : a ≠ x := fun h => hx (by simp [h])
        simpa [hxa] using ih List.mem_cons_self
      · exact ih (List.mem_cons_of_mem _ hp)

/-- A list that ends in an element other than the separator splits into pieces the last of which
ends in that element. -/
theorem getLast?_splitOn_append_singleton {a c : α} (hc : c ≠ a) (xs : List α) :
    ∃ l, ((xs ++ [c]).splitOn a).getLast? = some (l ++ [c]) := by
  induction xs with
  | nil =>
    refine ⟨[], ?_⟩
    rw [List.nil_append, List.splitOn_eq_singleton (by simpa using hc.symm)]
    rfl
  | cons x xs ih =>
    obtain ⟨l, hl⟩ := ih
    obtain ⟨q, qs, hq⟩ := List.exists_cons_of_ne_nil (List.splitOn_ne_nil a (xs ++ [c]))
    rw [hq] at hl
    rw [List.cons_append, List.splitOn_cons_eq_if_modifyHead, hq]
    split
    · exact ⟨l, by rwa [List.getLast?_cons_cons]⟩
    · -- the first piece grows; it is the last one only when it is the only one
      cases qs with
      | nil =>
        obtain rfl : q = l ++ [c] := by simpa using hl
        exact ⟨x :: l, rfl⟩
      | cons q' qs => exact ⟨l, by rwa [List.modifyHead_cons, List.getLast?_cons_cons]⟩

end Pieces

/-! ### Lines and pieces -/

/-- Trimming the end of a line changes nothing when it ends in neither a line feed nor a carriage
return. -/
theorem trimLineEnd_of_getLast? {cs : List Char} (hn : cs.getLast? ≠ some '\n')
    (hr : cs.getLast? ≠ some '\r') : trimLineEnd cs = cs := by
  rcases List.eq_nil_or_concat cs with rfl | ⟨l, c, rfl⟩
  · rfl
  · rw [List.concat_eq_append, List.getLast?_concat, ne_eq, Option.some_inj] at hn hr
    simp [trimLineEnd, hn, hr]

/-- The lines of a nonempty text are its pieces, each without the carriage returns at its end. -/
theorem textLines_eq_trimmed_pieces {t : String} (ht : t ≠ "") :
    textLines t = (textPieces t).map fun p => String.ofList (trimLineEnd p.toList) := by
  have hcs : t.toList ≠ [] := fun h => ht (String.toList_eq_nil_iff.1 h)
  unfold textLines textPieces
  simp only [List.map_map, Function.comp_def, String.toList_ofList]
  rcases List.eq_nil_or_concat t.toList with h | ⟨xs, c, h⟩
  · exact absurd h hcs
  rw [h, List.concat_eq_append, List.getLast?_concat]
  by_cases hc : c = '\n'
  · -- a final line feed leaves an empty last piece, which is no line
    subst hc
    rw [List.splitOn_append_cons_self xs [], List.splitOn_nil, List.getLast?_concat]
    simp
  · -- otherwise the last piece ends in the last character, so it is a line
    obtain ⟨l, hl⟩ := getLast?_splitOn_append_singleton hc xs
    rw [hl]
    simp [hc]

/-- The pieces of a text hold no line feed. -/
theorem not_mem_of_mem_textPieces {t p : String} (hp : p ∈ textPieces t) : '\n' ∉ p.toList := by
  unfold textPieces at hp
  obtain ⟨q, hq, rfl⟩ := List.mem_map.1 hp
  rw [String.toList_ofList]
  exact not_mem_of_mem_splitOn hq

/-- Trimming changes no piece of a text when none ends in a carriage return. -/
theorem trimmed_pieces_eq_self {t : String}
    (hcr : ∀ p ∈ textPieces t, p.toList.getLast? ≠ some '\r') :
    ((textPieces t).map fun p => String.ofList (trimLineEnd p.toList)) = textPieces t := by
  refine (List.map_congr_left fun p hp => ?_).trans (List.map_id _)
  -- a piece holds no line feed, so it does not end in one either
  have hn : p.toList.getLast? ≠ some '\n' :=
    fun h => not_mem_of_mem_textPieces hp (List.mem_of_getLast? h)
  rw [trimLineEnd_of_getLast? hn (hcr p hp), String.ofList_toList, id]

/-! ### Counting lines -/

namespace Scanner

/-- A line counts once, whatever its words. -/
theorem scanLine_lines (s : Scanner) (line : String) : (s.scanLine line).lines = s.lines + 1 := by
  rw [scanLine]
  exact (foldl_addWord _ _ (words line)).1

/-- Reading lines counts each of them. -/
theorem scanLines_lines (s : Scanner) (ls : List String) :
    (s.scanLines ls).lines = s.lines + ls.length := by
  induction ls generalizing s with
  | nil => rfl
  | cons l ls ih =>
    rw [scanLines, List.foldl_cons, ← scanLines, ih, scanLine_lines, List.length_cons]
    omega

end Scanner

/-! ### Reading against splitting -/

/-- **Reading a text scans its pieces, trimmed.** A nonempty text read line by line is scanned as
its pieces split at line feeds, each without the carriage returns at its end; so both count the
same lines, and when no piece ends in a carriage return they give the same tokens. The empty
text is no line when read, so its end marker is on line 0, and one empty piece when split, with
the end marker on line 1. -/
theorem reading_scans_trimmed_pieces (t : String) :
    (t = "" → (({} : Scanner).scanText t).tokens = [Token.endMarker 0] ∧
      scanPieces t = [Token.endMarker 1]) ∧
    (t ≠ "" →
      ({} : Scanner).scanText t =
          ({} : Scanner).scanLines ((textPieces t).map fun p => String.ofList (trimLineEnd p.toList)) ∧
        (({} : Scanner).scanText t).lines = (({} : Scanner).scanLines (textPieces t)).lines ∧
        ((∀ p ∈ textPieces t, p.toList.getLast? ≠ some '\r') →
          (({} : Scanner).scanText t).tokens = scanPieces t)) := by
  refine ⟨fun ht => ?empty, fun ht => ?nonempty⟩
  case empty =>
    subst ht
    exact ⟨rfl, rfl⟩
  case nonempty =>
    have hlines := textLines_eq_trimmed_pieces ht
    have hscan : ({} : Scanner).scanText t =
        ({} : Scanner).scanLines ((textPieces t).map fun p => String.ofList (trimLineEnd p.toList)) := by
      rw [Scanner.scanText, hlines]
    refine ⟨hscan, ?_, fun hcr => ?_⟩
    · rw [hscan, Scanner.scanLines_lines, Scanner.scanLines_lines, List.length_map]
    · rw [scanPieces, hscan, trimmed_pieces_eq_self hcr]

/-- Two lines, the second after an empty one and without a final line feed, read as they split. -/
theorem spaced_lines_read_as_split :
    "x := 1\n\ny" ≠ "" ∧ (∀ p ∈ textPieces "x := 1\n\ny", p.toList.getLast? ≠ some '\r') ∧
      (({} : Scanner).scanText "x := 1\n\ny").tokens = scanPieces "x := 1\n\ny" :=
  have hne : "x := 1\n\ny" ≠ "" := by decide
  have hcr : ∀ p ∈ textPieces "x := 1\n\ny", p.toList.getLast? ≠ some '\r' := by decide
  ⟨hne, hcr, ((reading_scans_trimmed_pieces "x := 1\n\ny").2 hne).2.2 hcr⟩

/-- A line of 128 bytes up to its capital sigma, one window of lowering, ended by a carriage return
and a line feed: 31 four-byte capital Deseret letters, two capital Latin letters and the sigma. -/
def sigmaAtWindowEnd : String := String.ofList (List.replicate 31 '𐐀' ++ "AAΣ\r\n".toList)

/-- **Reading and splitting differ.** The empty text is no line when read and one empty piece
when split, so the end markers stand on different lines. A capital sigma at the end of a window
of lowering is final only when the window ends the line: read, the line ends at the sigma, which
becomes `ς`; split, the carriage return follows, and the sigma opens the next window as `σ`. -/
theorem reading_and_splitting_differ :
    (({} : Scanner).scanText "").tokens = [Token.endMarker 0] ∧
      scanPieces "" = [Token.endMarker 1] ∧
      (({} : Scanner).scanText sigmaAtWindowEnd).tokens.map (·.lexeme) =
        [String.ofList (List.replicate 31 '𐐨' ++ "aaς".toList), ""] ∧
      (scanPieces sigmaAtWindowEnd).map (·.lexeme) =
        [String.ofList (List.replicate 31 '𐐨' ++ "aaσ".toList), ""] :=
  ⟨rfl, rfl, by decide +kernel, by decide +kernel⟩

end ExprTranslate
