/-
Where tokens stand.

A text is cut into pieces, and the only piece with a line break in it is a line break.  So while a text is
scanned, the line at hand is one more than the number of line breaks behind, and what is found in a
piece starts and ends on that line.
-/
import Mathlib.Data.List.TakeWhile
import Primer.Token.Scan

namespace Primer

/-- The span lies in the text, on a single line. -/
structure Span.OnLine (text : List Char) (s : Span) : Prop where
  ordered : s.start ≤ s.stop
  inside : s.stop ≤ text.length
  starts : s.line = 1 + (text.take s.start).count '\n'
  stops : s.line = 1 + (text.take s.stop).count '\n'

/-! ### Pieces -/

namespace Piece

theorem take_takeWhile (p : Char → Bool) (rest : List Char) :
    rest.take (rest.takeWhile p).length = rest.takeWhile p :=
  (List.prefix_iff_eq_take.mp (List.takeWhile_prefix p)).symm

/-- Characters that are no line breaks. -/
theorem count_takeWhile {p : Char → Bool} (hp : p '\n' = false) (rest : List Char) :
    (rest.takeWhile p).count '\n' = 0 := by
  refine List.count_eq_zero.mpr fun hmem => ?_
  have hbreak := List.mem_takeWhile_imp hmem
  rw [hp] at hbreak
  cases hbreak

theorem count_quoted {quote : Char} (hquote : quote ≠ '\n') (rest : List Char) :
    (rest.take (quotedLength (quoted quote rest))).count '\n' = 0 := by
  unfold quotedLength quoted
  extract_lets content
  have hcontent : rest.take content.length = content := take_takeWhile _ _
  have hbreak : content.count '\n' = 0 := count_takeWhile (by simp) rest
  rw [List.take_add, hcontent, List.count_append, hbreak]
  cases hrest : rest.drop content.length with
  | nil => simp
  | cons c more => 
    by_cases hc : c = quote
    · subst hc
      simp [hquote]
    · simp [hc]

theorem count_numeral (rest : List Char) : (rest.take (numeral rest).2).count '\n' = 0 := by
  have hdigits : ∀ cs : List Char, (cs.takeWhile Text.isDigit).count '\n' = 0 :=
    count_takeWhile (by decide)
  unfold numeral
  extract_lets whole
  have hwhole : rest.take whole.length = whole := take_takeWhile _ _
  split
  · rename_i d more hrest
    split
    · extract_lets fraction
      have hfraction : (d :: more).take fraction.length = fraction := take_takeWhile _ _
      rw [Nat.add_assoc, List.take_add, hwhole, hrest, Nat.add_comm 1, List.take_succ_cons, hfraction]
      simp [whole, fraction, hdigits]
    · rw [hwhole]
      exact hdigits rest
  · rw [hwhole]
    exact hdigits rest

theorem numeral_ne_newline (rest : List Char) : (numeral rest).1 ≠ .newline := by
  unfold numeral
  extract_lets whole
  split
  · split <;> simp
  · simp

theorem count_second {second : Char} {rest : List Char} (hsecond : second ≠ '\n')
    (h : rest.head? = some second) : (rest.take 1).count '\n' = 0 := by
  obtain ⟨more, rfl⟩ := List.head?_eq_some_iff.mp h
  simp [hsecond]

/-- A line break is a piece of its own, and no other piece has one. -/
theorem count_atHead (c : Char) (rest : List Char) :
    (c :: rest.take (atHead c rest).2).count '\n' = if (atHead c rest).1 = .newline then 1 else 0 := by
  have hpair : ∀ {second : Char}, second ≠ '\n' → rest.head? = some second →
      (rest.take 1).count '\n' = 0 := fun hsecond h => count_second hsecond h
  unfold atHead markPair
  split
  -- most marks are one character that cannot be anything else
  all_goals try (simp; done)
  · split
    · rename_i h
      simp [hpair (by decide) h]
    · simp
  · split
    · rename_i h
      simp [hpair (by decide) h]
    · simp
  · split
    · rename_i h
      simp [hpair (by decide) h]
    · split
      · rename_i h
        simp [hpair (by decide) h]
      · simp
  · split
    · rename_i h
      simp [hpair (by decide) h]
    · simp
  · split
    · simp [take_takeWhile, count_takeWhile]
    · simp
  · simp [count_quoted]
  · simp [count_quoted]
  · rename_i hbreak _ _
    have hc : c ≠ '\n' := hbreak
    split
    · simp [numeral_ne_newline, hc, count_numeral]
    · split
      · have hname : Text.continuesName '\n' = false := by decide
        simp [hc, take_takeWhile, count_takeWhile hname]
      · simp [hc]

end Piece

/-! ### Scanning -/

namespace Scan

/-- The scanner has worked through `done`, which is how `text` starts. -/
structure Sound (text done : List Char) (s : Scan) : Prop where
  start : done <+: text
  position : s.position = done.length
  line : s.line = 1 + done.count '\n'
  tokens : ∀ t ∈ s.tokens, t.span.OnLine text
  problems : ∀ found ∈ s.problems, found.2.OnLine text

variable {text done taken : List Char} {s : Scan} {length : Nat}

/-- What comes next and has no line break. -/
theorem Sound.onLine (h : s.Sound text done) (htext : done ++ taken <+: text)
    (htaken : taken.count '\n' = 0) : (s.span taken.length).OnLine text := by
  have htake : ∀ {cs : List Char}, cs <+: text → text.take cs.length = cs := fun hcs =>
    (List.prefix_iff_eq_take.mp hcs).symm
  have hstop : s.position + taken.length = (done ++ taken).length := by
    rw [h.position, List.length_append]
  refine ⟨Nat.le_add_right _ _, ?_, ?_, ?_⟩
  · show s.position + taken.length ≤ text.length
    rw [hstop]
    exact htext.length_le
  · show s.line = 1 + (text.take s.position).count '\n'
    rw [h.position, htake h.start]
    exact h.line
  · show s.line = 1 + (text.take (s.position + taken.length)).count '\n'
    rw [hstop, htake htext, List.count_append, htaken]
    exact h.line

theorem Sound.emit (h : s.Sound text done) (hspan : (s.span length).OnLine text) (kind : TokenKind)
    (lexeme : String) : (s.emit kind lexeme length).Sound text done :=
  ⟨h.start, h.position, h.line, List.forall_mem_cons.mpr ⟨hspan, h.tokens⟩, h.problems⟩

theorem Sound.report (h : s.Sound text done) (hspan : (s.span length).OnLine text)
    (problem : LexicalProblem) : (s.report problem length).Sound text done :=
  ⟨h.start, h.position, h.line, h.tokens, List.forall_mem_cons.mpr ⟨hspan, h.problems⟩⟩

theorem Sound.word (h : s.Sound text done) (hspan : (s.span length).OnLine text) (lexeme : String) :
    (s.word lexeme length).Sound text done := by
  unfold Scan.word
  split
  · exact h.emit hspan _ _
  · split
    · exact h.emit hspan _ _
    · split
      · exact h.emit hspan _ _
      · split
        · exact { h.emit hspan .identifier lexeme with }
        · exact (h.report hspan _).emit hspan _ _

/-- Past a piece without a line break. -/
theorem Sound.advance (h : s.Sound text done) (htext : done ++ taken <+: text)
    (htaken : taken.count '\n' = 0) {position : Nat} (hposition : position = done.length) :
    Sound text (done ++ taken) { s with position := position + taken.length } where
  start := htext
  position := by simp [hposition]
  line := by rw [List.count_append, htaken]; exact h.line
  tokens := h.tokens
  problems := h.problems

/-- One piece further. -/
theorem Sound.take (piece : Piece) (h : s.Sound text done) (htext : done ++ taken <+: text)
    (htaken : taken.count '\n' = if piece = .newline then 1 else 0) :
    (s.take piece taken).Sound text (done ++ taken) := by
  by_cases hbreak : piece = .newline
  · subst hbreak
    refine ⟨htext, by simp [Scan.take, h.position], ?_, h.tokens, h.problems⟩
    rw [List.count_append, htaken]
    exact congrArg (· + 1) h.line
  · rw [if_neg hbreak] at htaken
    have hspan := h.onLine htext htaken
    refine Sound.advance ?_ htext htaken h.position
    cases piece with
    | gap => exact h
    | newline => exact absurd rfl hbreak
    | mark kind => exact h.emit hspan _ _
    | number kind => exact h.emit hspan _ _
    | text content closed =>
      cases closed with
      | true => exact h.emit hspan _ _
      | false => exact (h.report hspan _).emit hspan _ _
    | character content closed =>
      refine Sound.emit ?_ ?_ _ _
      · split
        · exact h.report hspan _
        · split
          · exact h.report hspan _
          · exact h
      · split
        · exact hspan
        · split <;> exact hspan
    | word => exact h.word hspan _
    | stray c => exact h.report hspan _

/-- To the end of the text. -/
theorem Sound.run {rest : List Char} (h : s.Sound text done) (htext : text = done ++ rest) :
    (s.run rest).Sound text text := by
  fun_induction Scan.run s rest generalizing done with
  | case1 s => simpa [htext] using h
  | case2 s c rest piece more hpiece ih =>
    have hcut : done ++ (c :: rest.take more) ++ rest.drop more = text := by
      rw [htext, List.append_assoc, List.cons_append, List.take_append_drop]
    refine ih (h.take piece ⟨_, hcut⟩ ?_) hcut.symm
    have hcount := Piece.count_atHead c rest
    rwa [hpiece] at hcount

theorem sound_run (text : List Char) : (Scan.run {} text).Sound text text := by
  have hstart : Sound text [] {} :=
    ⟨List.nil_prefix, rfl, rfl, fun _ h => (List.not_mem_nil h).elim, fun _ h => (List.not_mem_nil h).elim⟩
  exact hstart.run rfl

theorem sound_finish (text : List Char) : (Scan.run {} text).finish.Sound text text := by
  have hrun := sound_run text
  have hend : ((Scan.run {} text).span ([] : List Char).length).OnLine text :=
    hrun.onLine (by simp) rfl
  exact hrun.emit hend _ _

end Scan

/-- Every token of a text lies in it, on a single line. -/
theorem onLine_scan (source : String) : ∀ t ∈ (scan source).1, t.span.OnLine source.toList :=
  fun t ht => (Scan.sound_finish source.toList).tokens t (List.mem_reverse.mp ht)

/-- So does everything that is wrong with the text. -/
theorem onLine_scan_problems (source : String) :
    ∀ d ∈ (scan source).2, d.span.OnLine source.toList := by
  intro d hd
  obtain ⟨found, hfound, rfl⟩ := List.mem_map.mp hd
  exact (Scan.sound_finish source.toList).problems found (List.mem_reverse.mp hfound)

end Primer
