/-
Texts as they are written and scanned.

`Written rest kind lexeme chars` says how a token of this kind can be written where `rest` follows.  A
mark, a number or a word must not be cut short: what follows does not make a longer one of it.  The
tokens of a line have blanks between them, as many as the author likes, and maybe a comment at the
end; lines are parted by line breaks.  None of this mentions the scanner.

A text that is written this way is scanned into exactly these tokens, and nothing is wrong with it.
-/
import Primer.Proofs.Token.Lines

namespace Primer

/-- The marks as they are written. -/
def marks : List (List Char × TokenKind) := [
  (['('], .leftParen), ([')'], .rightParen), (['['], .leftBracket), ([']'], .rightBracket),
  ([','], .comma), ([':'], .colon), (['.'], .dot),
  (['-'], .minus), (['+'], .plus), (['/'], .slash), (['*'], .star), (['^'], .caret),
  (['='], .equal), (['=', '='], .equalEqual), (['!', '='], .notEqual), (['<', '>'], .notEqual),
  (['>'], .greater), (['>', '='], .greaterEqual), (['<'], .less), (['<', '='], .lessEqual)]

/-- The characters make a word. -/
def IsWord : List Char → Prop
  | [] => False
  | c :: more => Text.startsName c = true ∧ ∀ d ∈ more, Text.continuesName d = true

instance : DecidablePred IsWord := fun cs =>
  match cs with
  | [] => inferInstanceAs (Decidable False)
  | c :: more =>
    decidable_of_iff (Text.startsName c = true ∧ more.all Text.continuesName = true)
      (and_congr_right fun _ => List.all_eq_true)

/-- One or more digits. -/
def Digits (chars : List Char) : Prop := chars ≠ [] ∧ ∀ d ∈ chars, Text.isDigit d = true

instance (chars : List Char) : Decidable (Digits chars) :=
  decidable_of_iff (chars ≠ [] ∧ chars.all Text.isDigit = true)
    (and_congr_right fun _ => List.all_eq_true)

/-- A token of this kind and lexeme is written with these characters where `rest` follows. -/
inductive Written (rest : List Char) : TokenKind → String → List Char → Prop where
  /-- What follows does not make a longer mark of it, nor a comment. -/
  | mark {mark : List Char} {kind : TokenKind} (hmark : (mark, kind) ∈ marks)
      (hnext : ∀ c ∈ rest.head?, mark ++ [c] ∉ ['/', '/'] :: marks.map Prod.fst) :
      Written rest kind (String.ofList mark) mark
  | reserved {word : String} {kind : TokenKind} (hword : (word, kind) ∈ TokenKind.reserved)
      (hnext : ∀ c ∈ rest.head?, Text.continuesName c = false) :
      Written rest kind word word.toList
  /-- A name is no reserved word, whatever the case of its letters. -/
  | name {name : String} (hname : IsWord name.toList)
      (hfree : TokenKind.ofWordIgnoringCase? name = none)
      (hnext : ∀ c ∈ rest.head?, Text.continuesName c = false) :
      Written rest .identifier name name.toList
  | integer {digits : String} (hdigits : Digits digits.toList)
      (hnext : ∀ c ∈ rest.head?, Text.isDigit c = false)
      (hpoint : rest.head? = some '.' → ∀ d ∈ rest.tail.head?, Text.isDigit d = false) :
      Written rest .integer digits digits.toList
  | real {numeral : String} {whole fraction : List Char} (hwhole : Digits whole)
      (hfraction : Digits fraction) (hnumeral : numeral.toList = whole ++ '.' :: fraction)
      (hnext : ∀ c ∈ rest.head?, Text.isDigit c = false) :
      Written rest .real numeral numeral.toList
  | text {content : String} (hcontent : ∀ c ∈ content.toList, c ≠ '"' ∧ c ≠ '\n') :
      Written rest .text content ('"' :: (content.toList ++ ['"']))
  | character {c : Char} (hquote : c ≠ '\'') (hbreak : c ≠ '\n') :
      Written rest .character (String.singleton c) ['\'', c, '\'']

/-- What is written on the line from `position` on, without the line break. -/
inductive WrittenLine (line : Nat) : Nat → List Char → List Token → Prop where
  | done {position : Nat} : WrittenLine line position [] []
  | blank {position : Nat} {c : Char} {chars : List Char} {row : List Token}
      (hblank : c = ' ' ∨ c = '\t' ∨ c = '\r') (h : WrittenLine line (position + 1) chars row) :
      WrittenLine line position (c :: chars) row
  | comment {position : Nat} {chars : List Char} (hline : '\n' ∉ chars) :
      WrittenLine line position ('/' :: '/' :: chars) []
  | token {position : Nat} {kind : TokenKind} {lexeme : String} {chars rest : List Char}
      {row : List Token} (htoken : Written rest kind lexeme chars)
      (h : WrittenLine line (position + chars.length) rest row) :
      WrittenLine line position (chars ++ rest)
        (⟨kind, lexeme, ⟨position, position + chars.length, line⟩⟩ :: row)

/-- What is written on the lines from `line` on, where `position` characters stand before. -/
inductive WrittenText : Nat → Nat → List Char → List (List Token) → Prop where
  | last {line position : Nat} {chars : List Char} {row : List Token}
      (h : WrittenLine line position chars row) : WrittenText line position chars [row]
  | more {line position : Nat} {chars rest : List Char} {row : List Token}
      {rows : List (List Token)} (h : WrittenLine line position chars row)
      (hmore : WrittenText (line + 1) (position + chars.length + 1) rest rows) :
      WrittenText line position (chars ++ '\n' :: rest) (row :: rows)

/-! ### Where the tokens stand -/

theorem WrittenLine.line_eq {line position : Nat} {chars : List Char} {row : List Token}
    (h : WrittenLine line position chars row) : ∀ t ∈ row, t.line = line := by
  induction h with
  | done | comment => simp
  | blank _ _ ih => exact ih
  | token _ _ ih => exact List.forall_mem_cons.mpr ⟨rfl, ih⟩

/-- The tokens of a row stand on one line, and those of a later row on a later line. -/
theorem WrittenText.lines {line position : Nat} {chars : List Char} {rows : List (List Token)}
    (h : WrittenText line position chars rows) :
    (∀ row ∈ rows, ∃ l ≥ line, ∀ t ∈ row, t.line = l) ∧
      rows.Pairwise fun row later => ∀ t ∈ row, ∀ t' ∈ later, t.line < t'.line := by
  induction h with
  | last h => exact ⟨List.forall_mem_singleton.mpr ⟨_, Nat.le_refl _, h.line_eq⟩, by simp⟩
  | more h _ ih =>
    obtain ⟨hrows, hordered⟩ := ih
    refine ⟨List.forall_mem_cons.mpr ⟨⟨_, Nat.le_refl _, h.line_eq⟩, fun row hrow => ?_⟩,
      List.pairwise_cons.mpr ⟨fun later hlater t ht t' ht' => ?_, hordered⟩⟩
    · obtain ⟨l, hl, hline⟩ := hrows row hrow
      exact ⟨l, Nat.le_of_succ_le hl, hline⟩
    · obtain ⟨l, hl, hline⟩ := hrows later hlater
      rw [h.line_eq t ht, hline t' ht']
      exact hl

/-! ### Pieces -/

namespace Piece

variable {c : Char} {more rest : List Char}

theorem takeWhile_until {p : Char → Bool} (hmore : ∀ d ∈ more, p d = true)
    (hnext : ∀ d ∈ rest.head?, p d = false) : (more ++ rest).takeWhile p = more := by
  rw [List.takeWhile_append_of_pos hmore]
  cases rest with
  | nil => simp
  | cons d others => simp [hnext d rfl]

/-- What starts neither a number nor a word. -/
def specials : List Char :=
  ['(', ')', '[', ']', ',', ':', '.', '-', '+', '*', '^', '!', '=', '<', '>', '/', ' ', '\r', '\t',
    '\n', '"', '\'']

theorem atHead_plain (hplain : c ∉ specials) :
    atHead c rest =
      if Text.isDigit c then numeral rest
      else if Text.startsName c then (.word, (rest.takeWhile Text.continuesName).length)
      else (.stray c, 0) := by
  unfold atHead
  split
  all_goals first
    | rfl
    | exact absurd (by decide) hplain

theorem isDigit_of_startsName (h : Text.startsName c = true) : Text.isDigit c = false := by
  have hdigits : ∀ n < 58, 48 ≤ n → Text.startsName (Char.ofNat n) = false := by decide
  refine Bool.eq_false_iff.mpr fun hdigit => ?_
  simp only [Text.isDigit, Char.isDigit, Bool.and_eq_true, decide_eq_true_eq] at hdigit
  have hnot := hdigits c.toNat (Nat.lt_succ_of_le hdigit.2) hdigit.1
  rw [Char.ofNat_toNat, h] at hnot
  cases hnot

theorem atHead_word (hword : IsWord (c :: more))
    (hnext : ∀ d ∈ rest.head?, Text.continuesName d = false) :
    atHead c (more ++ rest) = (.word, more.length) := by
  have hplain : c ∉ specials := fun hmem => by
    have hspecials : (specials.all fun c => !Text.startsName c) = true := by decide +kernel
    have hnot : (!Text.startsName c) = true := List.all_eq_true.mp hspecials c hmem
    rw [hword.1] at hnot
    cases hnot
  rw [atHead_plain hplain, if_neg (by rw [isDigit_of_startsName hword.1]; decide), if_pos hword.1,
    takeWhile_until hword.2 hnext]

theorem atHead_digit (hdigit : Text.isDigit c = true) : atHead c rest = numeral rest := by
  have hplain : c ∉ specials := fun hmem => by
    have hspecials : (specials.all fun c => !Text.isDigit c) = true := by decide +kernel
    have hnot : (!Text.isDigit c) = true := List.all_eq_true.mp hspecials c hmem
    rw [hdigit] at hnot
    cases hnot
  rw [atHead_plain hplain, if_pos hdigit]

theorem numeral_integer (hmore : ∀ d ∈ more, Text.isDigit d = true)
    (hnext : ∀ d ∈ rest.head?, Text.isDigit d = false)
    (hpoint : rest.head? = some '.' → ∀ d ∈ rest.tail.head?, Text.isDigit d = false) :
    numeral (more ++ rest) = (.number .integer, more.length) := by
  unfold numeral
  rw [takeWhile_until hmore hnext]
  dsimp only
  rw [List.drop_left]
  split
  · rename_i d others
    rw [if_neg (by rw [hpoint rfl d rfl]; decide)]
  · rfl

theorem numeral_real {fraction : List Char} (hmore : ∀ d ∈ more, Text.isDigit d = true)
    (hfraction : Digits fraction) (hnext : ∀ d ∈ rest.head?, Text.isDigit d = false) :
    numeral (more ++ '.' :: fraction ++ rest)
      = (.number .real, (more ++ '.' :: fraction).length) := by
  obtain ⟨hne, hdigits⟩ := hfraction
  obtain ⟨d, others, rfl⟩ := List.exists_cons_of_ne_nil hne
  unfold numeral
  rw [List.append_assoc, takeWhile_until hmore (by simp; decide)]
  dsimp only
  rw [List.drop_left]
  have hfraction : (d :: (others ++ rest)).takeWhile Text.isDigit = d :: others :=
    takeWhile_until hdigits hnext
  simp only [List.cons_append, hdigits d List.mem_cons_self, hfraction, if_true]
  simp [Nat.add_assoc, Nat.add_comm]

theorem quoted_of_closed {quote : Char} {content : List Char}
    (hcontent : ∀ c ∈ content, c ≠ quote ∧ c ≠ '\n') (rest : List Char) :
    quoted quote (content ++ quote :: rest) = (content, true) := by
  unfold quoted
  rw [takeWhile_until (fun c hc => by simpa using hcontent c hc) (by simp)]
  simp

theorem atHead_mark {mark : List Char} {kind : TokenKind} (hmark : (mark, kind) ∈ marks)
    (hnext : ∀ c ∈ rest.head?, mark ++ [c] ∉ ['/', '/'] :: marks.map Prod.fst) :
    ∃ c more, mark = c :: more ∧ atHead c (more ++ rest) = (.mark kind, more.length) := by
  have hnot : ∀ c, mark ++ [c] ∈ ['/', '/'] :: marks.map Prod.fst → rest.head? ≠ some c :=
    fun c hlonger hhead => hnext c hhead hlonger
  simp only [marks, List.mem_cons, Prod.mk.injEq] at hmark
  repeat' rcases hmark with ⟨rfl, rfl⟩ | hmark
  all_goals first
    | exact ⟨_, _, rfl, rfl⟩
    | exact ⟨_, _, rfl, if_neg (hnot _ (by decide))⟩
    | exact ⟨_, _, rfl, (if_neg (hnot '=' (by decide))).trans (if_neg (hnot '>' (by decide)))⟩

end Piece

/-! ### Tokens, lines and texts -/

section Scanning

variable {kind : TokenKind} {lexeme : String} {line position : Nat} {c : Char}
  {chars rest more : List Char} {row : List Token} {rows : List (List Token)}

/-- The end of a line cuts no token short. -/
theorem Written.atLineEnd (h : Written rest kind lexeme chars) (hmore : ∀ c ∈ more.head?, c = '\n') :
    Written (rest ++ more) kind lexeme chars := by
  have hhead : ∀ {P : Char → Prop} {before : List Char}, (∀ c ∈ before.head?, P c) → P '\n' →
      ∀ c ∈ (before ++ more).head?, P c := by
    intro P before hbefore hbreak c hc
    cases before with
    | nil => exact hmore c hc ▸ hbreak
    | cons d others => exact hbefore c hc
  cases h with
  | mark hmark hnext =>
    have hbreaks : ∀ entry ∈ marks, entry.1 ++ ['\n'] ∉ ['/', '/'] :: marks.map Prod.fst := by decide
    exact .mark hmark (hhead hnext (hbreaks _ hmark))
  | reserved hword hnext => exact .reserved hword (hhead hnext (by decide))
  | name hname hfree hnext => exact .name hname hfree (hhead hnext (by decide))
  | integer hdigits hnext hpoint =>
    refine .integer hdigits (hhead hnext (by decide)) fun hdot => ?_
    cases rest with
    | nil => exact absurd (hmore '.' hdot) (by decide)
    | cons d others => exact hhead (hpoint hdot) (by decide)
  | real hwhole hfraction hnumeral hnext =>
    exact .real hwhole hfraction hnumeral (hhead hnext (by decide))
  | text hcontent => exact .text hcontent
  | character hquote hbreak => exact .character hquote hbreak

namespace Scan

theorem run_piece {piece : Piece} (h : Piece.atHead c (more ++ rest) = (piece, more.length))
    (s : Scan) : s.run (c :: more ++ rest) = (s.take piece (c :: more)).run rest := by
  rw [List.cons_append, Scan.run, h]
  simp only [List.take_left, List.drop_left]

theorem word_reserved {word : String} (h : (word, kind) ∈ TokenKind.reserved) (s : Scan)
    (length : Nat) : s.word word length = s.emit kind word length := by
  have hkinds : ∀ entry ∈ TokenKind.reserved, TokenKind.ofWord? entry.1 = some entry.2 := by decide
  unfold Scan.word
  rw [hkinds _ h]

theorem word_free {name : String} (h : TokenKind.ofWordIgnoringCase? name = none) (s : Scan)
    (length : Nat) : s.word name length = s.emit .identifier name length := by
  have hnot : TokenKind.ofWord? name = none := by
    refine List.lookup_eq_none_iff.mpr fun entry hentry => ?_
    have hfolded := List.lookup_eq_none_iff.mp h _ (List.mem_map_of_mem hentry)
    simp only [bne_iff_ne, ne_eq] at hfolded ⊢
    exact fun heq => hfolded (congrArg Text.toLower heq)
  unfold Scan.word
  rw [hnot, h]
  simp

/-- With one more token behind. -/
def past (s : Scan) (kind : TokenKind) (lexeme : String) (length : Nat) : Scan :=
  { s.emit kind lexeme length with position := s.position + length }

end Scan

theorem Written.run (h : Written rest kind lexeme chars) (s : Scan) :
    s.run (chars ++ rest) = (s.past kind lexeme chars.length).run rest := by
  have hreserved : ∀ entry ∈ TokenKind.reserved, IsWord entry.1.toList := by decide +kernel
  cases h with
  | mark hmark hnext =>
    obtain ⟨c, more, rfl, hpiece⟩ := Piece.atHead_mark hmark hnext
    exact Scan.run_piece hpiece s
  | reserved hword hnext =>
    have hshape := hreserved _ hword
    cases hchars : lexeme.toList with
    | nil => simp [hchars, IsWord] at hshape
    | cons c more =>
      rw [Scan.run_piece (Piece.atHead_word (hchars ▸ hshape) hnext) s, ← hchars]
      simp [Scan.take, Scan.past, Scan.word_reserved hword]
  | name hname hfree hnext =>
    cases hchars : lexeme.toList with
    | nil => simp [hchars, IsWord] at hname
    | cons c more =>
      rw [Scan.run_piece (Piece.atHead_word (hchars ▸ hname) hnext) s, ← hchars]
      simp [Scan.take, Scan.past, Scan.word_free hfree]
  | integer hdigits hnext hpoint =>
    obtain ⟨hne, hdigits⟩ := hdigits
    cases hchars : lexeme.toList with
    | nil => exact absurd hchars hne
    | cons c more =>
      obtain ⟨hfirst, hmore⟩ := List.forall_mem_cons.mp (hchars ▸ hdigits)
      rw [Scan.run_piece ((Piece.atHead_digit hfirst).trans
        (Piece.numeral_integer hmore hnext hpoint)) s, ← hchars]
      simp [Scan.take, Scan.past]
  | @real _ whole fraction hwhole hfraction hnumeral hnext =>
    obtain ⟨hne, hdigits⟩ := hwhole
    obtain ⟨c, more, rfl⟩ := List.exists_cons_of_ne_nil hne
    obtain ⟨hfirst, hmore⟩ := List.forall_mem_cons.mp hdigits
    rw [hnumeral, List.cons_append, Scan.run_piece ((Piece.atHead_digit hfirst).trans
      (Piece.numeral_real hmore hfraction hnext)) s, ← List.cons_append, ← hnumeral]
    simp [Scan.take, Scan.past]
  | text hcontent =>
    have hpiece : Piece.atHead '"' (lexeme.toList ++ ['"'] ++ rest)
        = (.text lexeme.toList true, (lexeme.toList ++ ['"']).length) := by
      have hquoted := Piece.quoted_of_closed hcontent rest
      simp [Piece.atHead, hquoted, Piece.quotedLength]
    rw [Scan.run_piece hpiece s]
    simp [Scan.take, Scan.past]
  | @character c hquote hbreak =>
    have hpiece : Piece.atHead '\'' ([c, '\''] ++ rest)
        = (.character [c] true, [c, '\''].length) := by
      have hquoted : Piece.quoted '\'' (c :: '\'' :: rest) = ([c], true) :=
        Piece.quoted_of_closed (List.forall_mem_singleton.mpr ⟨hquote, hbreak⟩) rest
      simp [Piece.atHead, hquoted, Piece.quotedLength]
    rw [Scan.run_piece hpiece s]
    simp [Scan.take, Scan.past]

/-- With the tokens of a line behind. -/
theorem WrittenLine.run (h : WrittenLine line position chars row) {s : Scan} (hline : s.line = line)
    (hposition : s.position = position) (hrest : ∀ c ∈ rest.head?, c = '\n') :
    s.run (chars ++ rest) = Scan.run
      { s with position := position + chars.length, tokens := row.reverse ++ s.tokens } rest := by
  induction h generalizing s with
  | done => simp [← hposition]
  | @blank position c chars row hblank _ ih =>
    have hpiece : Piece.atHead c ([] ++ (chars ++ rest)) = (.gap, ([] : List Char).length) := by
      rcases hblank with rfl | rfl | rfl <;> rfl
    rw [List.cons_append, ← List.nil_append (chars ++ rest), ← List.cons_append,
      Scan.run_piece hpiece s, ih (by exact hline) (by simp [Scan.take, hposition])]
    simp [Scan.take, Nat.add_right_comm, ← Nat.add_assoc]
  | @comment position chars hbreak =>
    have hpiece : Piece.atHead '/' ('/' :: chars ++ rest) = (.gap, ('/' :: chars).length) := by
      have hchars : (chars ++ rest).takeWhile (· != '\n') = chars :=
        Piece.takeWhile_until (fun d hd => bne_iff_ne.mpr (ne_of_mem_of_not_mem hd hbreak))
          (fun d hd => by simp [hrest d hd])
      simp [Piece.atHead, hchars]
    rw [Scan.run_piece hpiece s]
    simp [Scan.take, hposition]
  | @token position kind lexeme chars more row htoken _ ih =>
    rw [List.append_assoc, (htoken.atLineEnd hrest).run s,
      ih (by exact hline) (by simp [Scan.past, hposition])]
    simp [Scan.past, Scan.emit, Scan.span, hline, hposition, Nat.add_assoc]

/-- With all tokens behind, and no problems. -/
theorem WrittenText.run (h : WrittenText line position chars rows) {s : Scan} (hline : s.line = line)
    (hposition : s.position = position) :
    (s.run chars).tokens = rows.flatten.reverse ++ s.tokens ∧
      (s.run chars).problems = s.problems := by
  induction h generalizing s with
  | @last line position chars row h =>
    have hend : ∀ c ∈ ([] : List Char).head?, c = '\n' := by simp
    rw [← List.append_nil chars, h.run hline hposition hend, Scan.run]
    simp
  | @more line position chars rest row rows h _ ih =>
    have hpiece : Piece.atHead '\n' ([] ++ rest) = (.newline, ([] : List Char).length) := rfl
    rw [h.run hline hposition (by simp), ← List.nil_append rest, ← List.cons_append,
      Scan.run_piece hpiece]
    obtain ⟨htokens, hproblems⟩ := ih (s := Scan.take
      { s with position := position + chars.length, tokens := row.reverse ++ s.tokens }
      .newline ['\n']) (by simp [Scan.take, hline]) (by simp [Scan.take])
    refine ⟨?_, hproblems⟩
    rw [htokens]
    simp [Scan.take]

end Scanning

/-- **A text is scanned into the tokens that are written in it, and nothing is wrong with it.** -/
theorem scan_written {source : String} {rows : List (List Token)}
    (h : WrittenText 1 0 source.toList rows) :
    ∃ span, scan source = (rows.flatten ++ [⟨.endOfInput, "", span⟩], []) := by
  obtain ⟨htokens, hproblems⟩ := h.run (s := {}) rfl rfl
  refine ⟨(Scan.run {} source.toList).span 0, ?_⟩
  unfold scan Scan.finish Scan.emit
  dsimp only
  rw [htokens, hproblems]
  simp

end Primer
