/-
Tokens tile the text.

A text is cut into parts, and each part is a token or is left out.  Left out are blanks, line breaks and
comments, and characters that mean nothing, which are reported.  A token has what it was cut from as its
lexeme, except that a quoted literal goes without its quotes and that a reserved word in the wrong case is
put right.

`Tiling` says this along the text.  What follows for the positions of the tokens is read off it.
-/
import Primer.Proofs.Token.Lines

namespace Primer

/-- The characters are a quoted literal with this content.  The quote at the end may be missing. -/
structure Quotes (quote : Char) (content chars : List Char) : Prop where
  chars : chars = quote :: content ++ [quote] ∨ chars = quote :: content
  inside : quote ∉ content ∧ '\n' ∉ content

/-- The token may be cut from these characters.  What is told about the text is given. -/
inductive Token.CutFrom (told : LexicalProblem → Span → Prop) (chars : List Char) (t : Token) : Prop where
  | plain (hkind : t.kind ≠ .text ∧ t.kind ≠ .character) (hlexeme : t.lexeme = String.ofList chars)
  | text {content : List Char} (hkind : t.kind = .text) (hquotes : Quotes '"' content chars)
      (hlexeme : t.lexeme = String.ofList content)
  /-- Only the first character counts, and a space where there is none. -/
  | character {content : List Char} (hkind : t.kind = .character) (hquotes : Quotes '\'' content chars)
      (hlexeme : t.lexeme = String.singleton (content.head?.getD ' '))
  /-- A reserved word in the wrong case gets its proper spelling, and this is told. -/
  | repaired (hword : (t.lexeme, t.kind) ∈ TokenKind.reserved)
      (hcase : Text.toLower (String.ofList chars) = Text.toLower t.lexeme)
      (htold : told (.wrongCase (String.ofList chars) t.lexeme) t.span)

/-- The characters at the span are left out. -/
inductive Skipped (told : LexicalProblem → Span → Prop) (chars : List Char) (span : Span) : Prop where
  | blank {c : Char} (hblank : c = ' ' ∨ c = '\t' ∨ c = '\r' ∨ c = '\n') (hchars : chars = [c])
  | comment {more : List Char} (hchars : chars = '/' :: '/' :: more) (hline : '\n' ∉ more)
  | stray {c : Char} (hchars : chars = [c]) (htold : told (.unexpectedCharacter c) span)

/-- The characters from `position` on are cut into these tokens and what is left out. -/
inductive Tiling (told : LexicalProblem → Span → Prop) : Nat → List Char → List Token → Prop where
  | done {position : Nat} : Tiling told position [] []
  | token {position : Nat} {chars rest : List Char} {t : Token} {tokens : List Token} (hsome : chars ≠ [])
      (hstart : t.span.start = position) (hstop : t.span.stop = position + chars.length)
      (hcut : t.CutFrom told chars) (h : Tiling told (position + chars.length) rest tokens) :
      Tiling told position (chars ++ rest) (t :: tokens)
  | skip {position line : Nat} {chars rest : List Char} {tokens : List Token}
      (hskipped : Skipped told chars ⟨position, position + chars.length, line⟩)
      (h : Tiling told (position + chars.length) rest tokens) :
      Tiling told position (chars ++ rest) tokens

section Told

variable {told told' : LexicalProblem → Span → Prop} {chars : List Char}

theorem Token.CutFrom.mono {t : Token} (h : t.CutFrom told chars)
    (htold : ∀ problem span, told problem span → told' problem span) : t.CutFrom told' chars := by
  cases h with
  | plain hkind hlexeme => exact .plain hkind hlexeme
  | text hkind hquotes hlexeme => exact .text hkind hquotes hlexeme
  | character hkind hquotes hlexeme => exact .character hkind hquotes hlexeme
  | repaired hword hcase hproblem => exact .repaired hword hcase (htold _ _ hproblem)

theorem Skipped.mono {span : Span} (h : Skipped told chars span)
    (htold : ∀ problem span, told problem span → told' problem span) : Skipped told' chars span := by
  cases h with
  | blank hblank hchars => exact .blank hblank hchars
  | comment hchars hline => exact .comment hchars hline
  | stray hchars hproblem => exact .stray hchars (htold _ _ hproblem)

/-- It does no harm to tell more. -/
theorem Tiling.mono {position : Nat} {tokens : List Token} (h : Tiling told position chars tokens)
    (htold : ∀ problem span, told problem span → told' problem span) :
    Tiling told' position chars tokens := by
  induction h with
  | done => exact .done
  | token hsome hstart hstop hcut _ ih => exact .token hsome hstart hstop (hcut.mono htold) ih
  | skip hskipped _ ih => exact .skip (hskipped.mono htold) ih

end Told

/-! ### Pieces -/

namespace Piece

/-- The characters make a piece of this kind. -/
def Makes (chars : List Char) : Piece → Prop
  | .gap => (∃ c, (c = ' ' ∨ c = '\t' ∨ c = '\r') ∧ chars = [c]) ∨
      ∃ more, chars = '/' :: '/' :: more ∧ '\n' ∉ more
  | .newline => chars = ['\n']
  | .mark kind | .number kind => kind ≠ .text ∧ kind ≠ .character
  | .text content _ => Quotes '"' content chars
  | .character content _ => Quotes '\'' content chars
  | .word => True
  | .stray c => chars = [c]

theorem quotes_quoted (quote : Char) (rest : List Char) :
    Quotes quote (quoted quote rest).1 (quote :: rest.take (quotedLength (quoted quote rest))) := by
  unfold quotedLength quoted
  extract_lets content
  have hcontent : rest.take content.length = content := take_takeWhile _ _
  have hinside : ∀ c ∈ content, c ≠ quote ∧ c ≠ '\n' := by
    intro c hc
    simpa using List.mem_takeWhile_imp hc
  refine ⟨?_, fun h => (hinside _ h).1 rfl, fun h => (hinside _ h).2 rfl⟩
  rw [List.take_add, hcontent]
  by_cases hclosed : (rest.drop content.length).head? = some quote
  · obtain ⟨more, hmore⟩ := List.head?_eq_some_iff.mp hclosed
    exact Or.inl (by simp [hmore])
  · rw [decide_eq_false hclosed]
    exact Or.inr (by simp)

theorem makes_numeral (chars rest : List Char) : (numeral rest).1.Makes chars := by
  unfold numeral
  extract_lets whole
  split
  · split
    · exact ⟨nofun, nofun⟩
    · exact ⟨nofun, nofun⟩
  · exact ⟨nofun, nofun⟩

/-- What is cut off at the head of a text makes the piece that it is taken for. -/
theorem makes_atHead (c : Char) (rest : List Char) :
    (atHead c rest).1.Makes (c :: rest.take (atHead c rest).2) := by
  unfold atHead markPair
  split
  -- marks of one character, blanks and line breaks
  all_goals try (simp [Makes]; done)
  · split
    · exact ⟨nofun, nofun⟩
    · rfl
  · split <;> exact ⟨nofun, nofun⟩
  · split
    · exact ⟨nofun, nofun⟩
    · split <;> exact ⟨nofun, nofun⟩
  · split <;> exact ⟨nofun, nofun⟩
  · split
    · rename_i h
      obtain ⟨more, rfl⟩ := List.head?_eq_some_iff.mp h
      refine Or.inr ⟨more.takeWhile (· != '\n'), ?_, fun hmem => ?_⟩
      · rw [take_takeWhile]
        rfl
      · simpa using List.mem_takeWhile_imp hmem
    · exact ⟨nofun, nofun⟩
  · exact quotes_quoted '"' rest
  · exact quotes_quoted '\'' rest
  · split
    · exact makes_numeral _ rest
    · split
      · trivial
      · rfl

end Piece

/-! ### One piece further -/

namespace Scan

/-- What the scanner has told. -/
def Tells (s : Scan) (problem : LexicalProblem) (span : Span) : Prop := (problem, span) ∈ s.problems

variable {s : Scan} {kind : TokenKind}

theorem plain_of_ofWord {word : String} (h : TokenKind.ofWord? word = some kind) :
    kind ≠ .text ∧ kind ≠ .character := by
  obtain ⟨before, after, heq, -⟩ := List.lookup_eq_some_iff.mp h
  have hmem : (word, kind) ∈ TokenKind.reserved := by
    rw [heq]
    simp
  have hall : ∀ entry ∈ TokenKind.reserved, entry.2 ≠ .text ∧ entry.2 ≠ .character := by decide
  exact hall _ hmem

theorem reserved_of_ofWordIgnoringCase {word proper : String}
    (h : TokenKind.ofWordIgnoringCase? word = some (proper, kind)) :
    (proper, kind) ∈ TokenKind.reserved ∧ Text.toLower word = Text.toLower proper := by
  obtain ⟨before, after, heq, -⟩ := List.lookup_eq_some_iff.mp h
  have hmem : (Text.toLower word, proper, kind) ∈ TokenKind.folded := by
    rw [heq]
    simp
  obtain ⟨entry, hentry, hfolded⟩ := List.mem_map.mp hmem
  simp only [Prod.mk.injEq] at hfolded
  obtain ⟨hlower, rfl, rfl⟩ := hfolded
  exact ⟨hentry, hlower.symm⟩

/-- The scanner has cut a token off. -/
def Cuts (s s' : Scan) (taken : List Char) : Prop :=
  ∃ t, s'.tokens = t :: s.tokens ∧ t.span = s.span taken.length ∧ t.CutFrom s'.Tells taken

theorem cuts_emit (hkind : kind ≠ .text ∧ kind ≠ .character) (taken : List Char) :
    s.Cuts (s.emit kind (String.ofList taken) taken.length) taken :=
  ⟨_, rfl, rfl, .plain hkind rfl⟩

theorem cuts_word (s : Scan) (taken : List Char) :
    s.Cuts (s.word (String.ofList taken) taken.length) taken := by
  unfold word
  split
  · rename_i hword
    exact cuts_emit (plain_of_ofWord hword) taken
  · split
    · exact cuts_emit (by decide) taken
    · split
      · exact cuts_emit (by decide) taken
      · rename_i hword
        obtain ⟨hreserved, hcase⟩ := reserved_of_ofWordIgnoringCase hword
        split
        · exact ⟨_, rfl, rfl, .plain ⟨nofun, nofun⟩ rfl⟩
        · exact ⟨_, rfl, rfl, .repaired hreserved hcase List.mem_cons_self⟩

/-- **A piece is a token or is left out.** -/
theorem take_cuts_or_skips {piece : Piece} {taken : List Char} (h : piece.Makes taken) :
    s.Cuts (s.take piece taken) taken ∨
      (s.take piece taken).tokens = s.tokens ∧
        Skipped (s.take piece taken).Tells taken (s.span taken.length) := by
  cases piece with
  | gap =>
    rcases h with ⟨c, hblank, hchars⟩ | ⟨more, hchars, hline⟩
    · exact Or.inr ⟨rfl, .blank (hblank.imp_right (Or.imp_right Or.inl)) hchars⟩
    · exact Or.inr ⟨rfl, .comment hchars hline⟩
  | newline => exact Or.inr ⟨rfl, .blank (Or.inr (Or.inr (Or.inr rfl))) h⟩
  | mark kind => exact Or.inl (cuts_emit h taken)
  | number kind => exact Or.inl (cuts_emit h taken)
  | text content closed =>
    refine Or.inl ⟨⟨.text, String.ofList content, s.span taken.length⟩, ?_, rfl, .text rfl h rfl⟩
    cases closed <;> rfl
  | character content closed =>
    refine Or.inl ⟨⟨.character, String.singleton (content.head?.getD ' '), s.span taken.length⟩, ?_, rfl,
      .character rfl h rfl⟩
    cases closed with
    | false => rfl
    | true =>
      simp only [take]
      split
      · rfl
      · split <;> rfl
  | word => exact Or.inl (cuts_word s taken)
  | stray c => exact Or.inr ⟨rfl, .stray h List.mem_cons_self⟩

/-- Nothing that was told is taken back. -/
theorem problems_take (s : Scan) (piece : Piece) (taken : List Char) :
    ∀ found ∈ s.problems, found ∈ (s.take piece taken).problems := by
  intro found hfound
  cases piece with
  | gap | newline | mark | number => exact hfound
  | stray => exact List.mem_cons_of_mem _ hfound
  | text content closed =>
    cases closed with
    | false => exact List.mem_cons_of_mem _ hfound
    | true => exact hfound
  | character content closed =>
    simp only [take]
    split
    · exact List.mem_cons_of_mem _ hfound
    · split
      · exact List.mem_cons_of_mem _ hfound
      · exact hfound
  | word =>
    simp only [take, word]
    split
    · exact hfound
    · split
      · exact hfound
      · split
        · exact hfound
        · split
          · exact hfound
          · exact List.mem_cons_of_mem _ hfound

/-! ### To the end of the text -/

/-- **The rest of a text is tiled by the tokens that the scanner adds.** -/
theorem tiling_run (s : Scan) (rest : List Char) :
    (∀ found ∈ s.problems, found ∈ (s.run rest).problems) ∧
      ∃ tokens, (s.run rest).tokens = tokens.reverse ++ s.tokens ∧
        Tiling (s.run rest).Tells s.position rest tokens := by
  fun_induction Scan.run s rest with
  | case1 s => exact ⟨fun _ hfound => hfound, [], rfl, .done⟩
  | case2 s c rest piece more hpiece ih =>
    obtain ⟨htold, tokens, htokens, htiling⟩ := ih
    have hmakes : piece.Makes (c :: rest.take more) := by
      have hmakes := Piece.makes_atHead c rest
      rwa [hpiece] at hmakes
    have htext : c :: rest = (c :: rest.take more) ++ rest.drop more := by
      rw [List.cons_append, List.take_append_drop]
    rw [htext]
    refine ⟨fun found hfound => htold _ (problems_take s piece _ found hfound), ?_⟩
    rcases take_cuts_or_skips hmakes with ⟨t, htake, hspan, hcut⟩ | ⟨htake, hskipped⟩
    · refine ⟨t :: tokens, by rw [htokens, htake, List.reverse_cons, List.append_assoc]; rfl, ?_⟩
      exact .token (List.cons_ne_nil _ _) (by rw [hspan]; rfl) (by rw [hspan]; rfl)
        (hcut.mono fun _ _ => htold _) htiling
    · exact ⟨tokens, by rw [htokens, htake], .skip (hskipped.mono fun _ _ => htold _) htiling⟩

end Scan

/-! ### Where tokens and gaps are -/

/-- The characters at the span. -/
def Span.slice (s : Span) (text : List Char) : List Char := (text.drop s.start).take s.length

/-- The span is left out of the tokens, apart from all of them. -/
structure Span.LeftOut (told : LexicalProblem → Span → Prop) (text : List Char) (tokens : List Token)
    (s : Span) : Prop where
  skipped : Skipped told (s.slice text) s
  apart : ∀ t ∈ tokens, t.span.stop ≤ s.start ∨ s.stop ≤ t.span.start

/-- The tokens tile the text. -/
structure Tiles (told : LexicalProblem → Span → Prop) (text : List Char) (tokens : List Token) : Prop where
  nonempty : ∀ t ∈ tokens, t.span.start < t.span.stop
  inside : ∀ t ∈ tokens, t.span.stop ≤ text.length
  ordered : tokens.Pairwise fun t later => t.span.stop ≤ later.span.start
  lexemes : ∀ t ∈ tokens, t.CutFrom told (t.span.slice text)
  /-- Every character is in a token, or in something that is left out. -/
  gaps : ∀ p < text.length, (∃ t ∈ tokens, t.span.start ≤ p ∧ p < t.span.stop) ∨
    ∃ s : Span, s.start ≤ p ∧ p < s.stop ∧ s.LeftOut told text tokens

theorem Span.slice_of_append {s : Span} {before chars after : List Char} (hstart : s.start = before.length)
    (hstop : s.stop = before.length + chars.length) : s.slice (before ++ (chars ++ after)) = chars := by
  rw [slice, Span.length, hstart, hstop, List.drop_left, Nat.add_sub_cancel_left, List.take_left]

namespace Tiling

variable {told : LexicalProblem → Span → Prop} {position : Nat} {rest text : List Char}
  {tokens : List Token}

theorem start_le (h : Tiling told position rest tokens) : ∀ t ∈ tokens, position ≤ t.span.start := by
  induction h with
  | done => exact fun t ht => absurd ht List.not_mem_nil
  | token _ hstart _ _ _ ih =>
    exact List.forall_mem_cons.mpr ⟨hstart.ge, fun t ht => Nat.le_trans (Nat.le_add_right _ _) (ih t ht)⟩
  | skip _ _ ih => exact fun t ht => Nat.le_trans (Nat.le_add_right _ _) (ih t ht)

theorem nonempty (h : Tiling told position rest tokens) : ∀ t ∈ tokens, t.span.start < t.span.stop := by
  induction h with
  | done => exact fun t ht => absurd ht List.not_mem_nil
  | token hsome hstart hstop _ _ ih =>
    refine List.forall_mem_cons.mpr ⟨?_, ih⟩
    have hpos := List.length_pos_iff.mpr hsome
    omega
  | skip _ _ ih => exact ih

theorem ordered (h : Tiling told position rest tokens) :
    tokens.Pairwise fun t later => t.span.stop ≤ later.span.start := by
  induction h with
  | done => exact .nil
  | token _ _ hstop _ hrest ih => exact .cons (fun t ht => hstop ▸ hrest.start_le t ht) ih
  | skip _ _ ih => exact ih

/-- The lexemes, where `before` is what comes before the rest. -/
theorem lexemes (h : Tiling told position rest tokens) {before : List Char}
    (htext : text = before ++ rest) (hposition : position = before.length) :
    ∀ t ∈ tokens, t.span.stop ≤ text.length ∧ t.CutFrom told (t.span.slice text) := by
  induction h generalizing before with
  | done => exact fun t ht => absurd ht List.not_mem_nil
  | @token position chars rest t tokens _ hstart hstop hcut _ ih =>
    subst hposition
    refine List.forall_mem_cons.mpr ⟨⟨?_, ?_⟩, @ih (before ++ chars) ?_ List.length_append.symm⟩
    · rw [hstop, htext]
      simp
    · rw [htext, Span.slice_of_append hstart hstop]
      exact hcut
    · rw [htext, List.append_assoc]
  | @skip position line chars rest tokens _ _ ih =>
    subst hposition
    exact @ih (before ++ chars) (by rw [htext, List.append_assoc]) List.length_append.symm

/-- What the characters of the rest belong to.  What is left out starts in the rest, so it is apart from the
tokens before. -/
theorem gaps (h : Tiling told position rest tokens) {before : List Char}
    (htext : text = before ++ rest) (hposition : position = before.length) {p : Nat}
    (hp : position ≤ p) (hend : p < text.length) :
    (∃ t ∈ tokens, t.span.start ≤ p ∧ p < t.span.stop) ∨
      ∃ s : Span, position ≤ s.start ∧ s.start ≤ p ∧ p < s.stop ∧ s.LeftOut told text tokens := by
  induction h generalizing before with
  | done =>
    rw [htext, List.append_nil] at hend
    omega
  | @token position chars rest t tokens _ hstart hstop _ hrest ih =>
    subst hposition
    by_cases hhere : p < before.length + chars.length
    · exact Or.inl ⟨t, List.mem_cons_self, by omega, by omega⟩
    · have hlater := @ih (before ++ chars) (by rw [htext, List.append_assoc]) List.length_append.symm
        (Nat.le_of_not_lt hhere)
      rcases hlater with ⟨u, hu, hcovers⟩ | ⟨s, hs, hfirst, hlast, hleft⟩
      · exact Or.inl ⟨u, List.mem_cons_of_mem _ hu, hcovers⟩
      · refine Or.inr ⟨s, by omega, hfirst, hlast, hleft.skipped, ?_⟩
        exact List.forall_mem_cons.mpr ⟨Or.inl (by omega), hleft.apart⟩
  | @skip position line chars rest tokens hskipped hrest ih =>
    subst hposition
    by_cases hhere : p < before.length + chars.length
    · refine Or.inr ⟨⟨before.length, before.length + chars.length, line⟩, Nat.le_refl _, hp, hhere,
        ?_, ?_⟩
      · rw [htext, Span.slice_of_append rfl rfl]
        exact hskipped
      · exact fun t ht => Or.inr (hrest.start_le t ht)
    · have hlater := @ih (before ++ chars) (by rw [htext, List.append_assoc]) List.length_append.symm
        (Nat.le_of_not_lt hhere)
      rcases hlater with hcovers | ⟨s, hs, hleft⟩
      · exact Or.inl hcovers
      · exact Or.inr ⟨s, by omega, hleft⟩

/-- **What is cut into tokens and gaps is tiled.** -/
theorem tiles (h : Tiling told 0 text tokens) : Tiles told text tokens where
  nonempty := h.nonempty
  inside t ht := (h.lexemes (List.nil_append text).symm rfl t ht).1
  ordered := h.ordered
  lexemes t ht := (h.lexemes (List.nil_append text).symm rfl t ht).2
  gaps p hp := by
    rcases h.gaps (List.nil_append text).symm rfl (Nat.zero_le p) hp with hcovers | ⟨s, -, hleft⟩
    · exact Or.inl hcovers
    · exact Or.inr ⟨s, hleft⟩

end Tiling

/-- What the diagnostics of a text tell. -/
def Telling (diagnostics : List Diagnostic) (problem : LexicalProblem) (span : Span) : Prop :=
  problem.wording.at span ∈ diagnostics

/-- **The tokens of a text tile it, and the last one stands at its end.** -/
theorem tokens_tile (source : String) :
    ∃ tokens line,
      (scan source).1 = tokens ++ [⟨.endOfInput, "", ⟨source.length, source.length, line⟩⟩] ∧
      Tiles (Telling (scan source).2) source.toList tokens := by
  obtain ⟨-, tokens, htokens, htiling⟩ := Scan.tiling_run {} source.toList
  have hend : (Scan.run {} source.toList).position = source.length := by
    rw [(Scan.sound_run source.toList).position, String.length_toList]
  refine ⟨tokens, (Scan.run {} source.toList).line, ?_, (htiling.mono fun problem span htold => ?_).tiles⟩
  · simp [scan, Scan.finish, Scan.emit, Scan.span, htokens, hend]
  · refine List.mem_map.mpr ⟨(problem, span), ?_, rfl⟩
    exact List.mem_reverse.mpr htold

end Primer
