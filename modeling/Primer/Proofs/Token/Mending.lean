/-
Texts with their reserved words put right.

The scanner takes a reserved word in the wrong case for the reserved word, and says how to write it.
Whoever follows its advice everywhere gets a text with the same tokens at the same places, to which it
objects no more than to the first one, the advice apart.

There are two things to see.  The proper spelling is as long as what was written, so nothing moves.  And
the scanner tells letters of a word apart only by the whole word, so what stands around a word is cut as
before.  Both texts are then scanned side by side, and the two scanners differ only in what they have told.
-/
import Mathlib.Data.List.Forall2
import Primer.Proofs.Spelling.Text
import Primer.Proofs.Token.Tiling

namespace Primer

/-- Whether the scanner objects to the case of a reserved word.  All its other objections are lexical. -/
def Diagnostic.isWrongCase (d : Diagnostic) : Bool := d.kind = .syntactic

/-- The text with the help of a diagnostic in the place of what it objects to. -/
def Diagnostic.heed (d : Diagnostic) (text : List Char) : List Char :=
  text.take d.span.start ++ (d.help.getD "").toList ++ text.drop d.span.stop

/-- The text with every reserved word in its proper case, put right from the last one to the first. -/
def mend (source : String) : String :=
  String.ofList (((scan source).2.filter Diagnostic.isWrongCase).foldr Diagnostic.heed source.toList)

/-! ### The proper spelling is as long as what was written -/

namespace Text.Case

/-- A lower case of several characters is never plain ASCII. -/
theorem length_lower (c : Char) : (lower c).length = 1 ∨ ∃ d ∈ lower c, 128 ≤ d.toNat := by
  have hexpansions : (lowerExpansions.all fun entry =>
      (entry.2.map Char.ofNat).any fun d => Nat.ble 128 d.toNat) = true := by decide +kernel
  unfold lower
  split
  · exact Or.inl rfl
  · unfold image
    split
    · rename_i hfound
      have hentry := Array.all_eq_true_iff_forall_mem.mp hexpansions _
        (Array.mem_of_find?_eq_some hfound)
      obtain ⟨d, hd, hlarge⟩ := List.any_eq_true.mp hentry
      exact Or.inr ⟨d, hd, Nat.le_of_ble_eq_true hlarge⟩
    · split
      · exact Or.inl rfl
      · exact Or.inl rfl

/-- So what a character is turned into has one character, or is not plain ASCII. -/
theorem lowerFrom_cons (before : List Char) (c : Char) (rest : List Char) :
    ∃ here, lowerFrom before (c :: rest) = here ++ lowerFrom (c :: before) rest ∧
      (here.length = 1 ∨ ∃ d ∈ here, 128 ≤ d.toNat) := by
  rw [lowerFrom]
  refine ⟨_, rfl, ?_⟩
  split
  · exact Or.inl rfl
  · exact length_lower c

theorem length_lowerFrom {cs : List Char} : ∀ {before : List Char},
    (∀ d ∈ lowerFrom before cs, d.toNat < 128) → (lowerFrom before cs).length = cs.length := by
  induction cs with
  | nil => exact fun _ => rfl
  | cons c rest ih =>
    intro before hascii
    obtain ⟨here, hcons, hhere⟩ := lowerFrom_cons before c rest
    rw [hcons] at hascii ⊢
    have hone : here.length = 1 := hhere.resolve_right fun ⟨d, hd, hlarge⟩ =>
      Nat.not_lt.mpr hlarge (hascii d (List.mem_append_left _ hd))
    have hrest := ih fun d hd => hascii d (List.mem_append_right _ hd)
    rw [List.length_append, List.length_cons, hone, hrest, Nat.add_comm]

/-- Digits have no case. -/
theorem mem_lowerFrom {c : Char} (hdigit : isDigit c = true) {cs : List Char} (hc : c ∈ cs) :
    ∀ before, c ∈ lowerFrom before cs := by
  have hbounds : 48 ≤ c.toNat ∧ c.toNat ≤ 57 := by
    simp only [isDigit, Char.isDigit, Bool.and_eq_true, decide_eq_true_eq] at hdigit
    exact hdigit
  have hlower : lower c = [c] := by
    have hdigits : ∀ n < 58, 48 ≤ n → lower (Char.ofNat n) = [Char.ofNat n] := by decide
    have hc := hdigits c.toNat (Nat.lt_succ_of_le hbounds.2) hbounds.1
    rwa [Char.ofNat_toNat] at hc
  have hsigma : (c == 'Σ') = false := by
    refine beq_eq_false_iff_ne.mpr fun h => ?_
    rw [h] at hbounds
    exact absurd hbounds.2 (by decide)
  induction cs with
  | nil => exact absurd hc List.not_mem_nil
  | cons d rest ih =>
    intro before
    unfold lowerFrom
    rcases List.mem_cons.mp hc with rfl | hrest
    · simp [hsigma, hlower]
    · exact List.mem_append_right _ (ih hrest _)

end Text.Case

/-- A character that words are made of, other than a digit. -/
def InWord (c : Char) : Prop := Text.continuesName c = true ∧ Text.isDigit c = false

theorem IsWord.continues {chars : List Char} (h : IsWord chars) :
    ∀ c ∈ chars, Text.continuesName c = true := by
  cases chars with
  | nil => exact h.elim
  | cons c more =>
    refine List.forall_mem_cons.mpr ⟨?_, h.2⟩
    have hstarts := h.1
    simp only [Text.startsName, Bool.or_eq_true] at hstarts
    simp only [Text.continuesName, Bool.or_eq_true]
    exact hstarts.imp_left Or.inl

/-- A reserved word as it should be written instead of `written`. -/
structure Respells (written proper : List Char) : Prop where
  length : written.length = proper.length
  written : ∀ c ∈ written, Text.isDigit c = false
  word : IsWord proper
  proper : ∀ c ∈ proper, InWord c

theorem respells {word proper : String} {kind : TokenKind}
    (h : TokenKind.ofWordIgnoringCase? word = some (proper, kind)) :
    Respells word.toList proper.toList := by
  obtain ⟨hreserved, hcase⟩ := Scan.reserved_of_ofWordIgnoringCase h
  have hlower : Text.Case.lowerFrom [] word.toList = Text.Case.lowerFrom [] proper.toList :=
    String.ofList_injective hcase
  -- Both tables are checked as Booleans, which the kernel evaluates without deep recursion.
  have hlowers : (TokenKind.reserved.all fun entry => (Text.Case.lowerFrom [] entry.1.toList).all
      fun d => Nat.blt d.toNat 128 && !Text.isDigit d) = true := by decide +kernel
  have hascii : ∀ d ∈ Text.Case.lowerFrom [] proper.toList,
      d.toNat < 128 ∧ Text.isDigit d = false := fun d hd => by
    simpa using List.all_eq_true.mp (List.all_eq_true.mp hlowers _ hreserved) d hd
  have hwords : ∀ entry ∈ TokenKind.reserved, IsWord entry.1.toList := by decide +kernel
  have hinside : (TokenKind.reserved.all fun entry => entry.1.toList.all
      fun d => Text.continuesName d && !Text.isDigit d) = true := by decide +kernel
  refine ⟨?_, fun c hc => ?_, hwords _ hreserved, fun d hd => ?_⟩
  · have hproper := Text.Case.length_lowerFrom fun d hd => (hascii d hd).1
    rw [← hproper, ← hlower]
    exact (Text.Case.length_lowerFrom fun d hd => (hascii d (hlower ▸ hd)).1).symm
  · refine Bool.eq_false_iff.mpr fun hdigit => ?_
    have hmem := Text.Case.mem_lowerFrom hdigit hc []
    rw [hlower] at hmem
    exact absurd hdigit (Bool.eq_false_iff.mp (hascii c hmem).2)
  · simpa [InWord] using List.all_eq_true.mp (List.all_eq_true.mp hinside _ hreserved) d hd

/-! ### What stands around a word is cut as before -/

/-- The same character, or two that words are made of. -/
def Alike (c d : Char) : Prop := c = d ∨ InWord c ∧ InWord d

theorem InWord.not_special {c : Char} (h : InWord c) : c ∉ Piece.specials := by
  intro hmem
  have hspecials : (Piece.specials.all fun c => !Text.continuesName c) = true := by decide +kernel
  have hnot : (!Text.continuesName c) = true := List.all_eq_true.mp hspecials c hmem
  rw [h.1] at hnot
  cases hnot

namespace Piece

variable {c : Char} {rest rest' : List Char}

theorem head?_alike (h : List.Forall₂ Alike rest rest') {x : Char} (hx : x ∈ specials) :
    rest'.head? = some x ↔ rest.head? = some x := by
  cases h with
  | nil => exact Iff.rfl
  | cons hc _ =>
    rcases hc with rfl | ⟨hc, hd⟩
    · exact Iff.rfl
    · simp only [List.head?_cons, Option.some.injEq]
      exact ⟨fun heq => absurd hx (heq ▸ hd.not_special), fun heq => absurd hx (heq ▸ hc.not_special)⟩

/-- A class of characters that takes all those of words, or none, ends in both texts at the same place. -/
theorem length_takeWhile_alike {p : Char → Bool} {inside : Bool} (hp : ∀ c, InWord c → p c = inside)
    (h : List.Forall₂ Alike rest rest') : (rest'.takeWhile p).length = (rest.takeWhile p).length := by
  induction h with
  | nil => rfl
  | @cons c d _ _ hc _ ih =>
    have hsame : p d = p c := by
      rcases hc with rfl | ⟨hc, hd⟩
      · rfl
      · rw [hp c hc, hp d hd]
    simp only [List.takeWhile_cons, hsame]
    split
    · rw [List.length_cons, List.length_cons, ih]
    · rfl

theorem quoted_alike {quote : Char} (hquote : quote ∈ specials) (h : List.Forall₂ Alike rest rest')
    (htaken : rest'.take (quotedLength (quoted quote rest)) = rest.take (quotedLength (quoted quote rest))) :
    quoted quote rest' = quoted quote rest := by
  have hother : ∀ c, InWord c → (c != quote && c != '\n') = true := by
    intro c hc
    have hne : c ≠ quote := fun heq => hc.not_special (heq ▸ hquote)
    have hbreak : c ≠ '\n' := fun heq => hc.not_special (heq ▸ by decide)
    simp [hne, hbreak]
  have hlength := length_takeWhile_alike hother h
  unfold quoted at htaken ⊢
  extract_lets content at htaken
  extract_lets content'
  have hcontent : content' = content := by
    have hshort : content.length ≤ quotedLength (content, decide ((rest.drop content.length).head? = some quote)) :=
      Nat.le_add_right _ _
    have hprefix := congrArg (List.take content.length) htaken
    rw [List.take_take, List.take_take, Nat.min_eq_left hshort] at hprefix
    rwa [← hlength, take_takeWhile, hlength, take_takeWhile] at hprefix
  have hclosed := head?_alike (List.forall₂_drop content.length h) hquote
  rw [hcontent, decide_eq_decide.mpr hclosed]

/-- A point and what follows it are read alike. -/
theorem numeral_alike (h : List.Forall₂ Alike rest rest') : numeral rest' = numeral rest := by
  have hnone : ∀ c, InWord c → Text.isDigit c = false := fun _ hc => hc.2
  unfold numeral
  extract_lets whole' whole
  have hlength : whole'.length = whole.length := length_takeWhile_alike hnone h
  rw [hlength]
  have hdrop := List.forall₂_drop whole.length h
  generalize rest.drop whole.length = left, rest'.drop whole.length = right at hdrop
  cases hdrop with
  | nil => rfl
  | @cons c d others others' hc hothers =>
    by_cases hpoint : c = '.'
    · subst hpoint
      obtain rfl : '.' = d := hc.resolve_right fun hboth => hboth.1.not_special (by decide)
      cases hothers with
      | nil => rfl
      | @cons e f _ _ he hlast =>
        have hsame : Text.isDigit f = Text.isDigit e := by
          rcases he with rfl | ⟨he, hf⟩
          · rfl
          · rw [he.2, hf.2]
        have hfraction := length_takeWhile_alike hnone (.cons he hlast)
        simp only [hsame, hfraction]
    · have hpoint' : d ≠ '.' := by
        rcases hc with rfl | ⟨-, hd⟩
        · exact hpoint
        · exact fun heq => hd.not_special (heq ▸ by decide)
      split
      · rename_i heq
        exact absurd (List.cons.inj heq).1 hpoint'
      · split
        · rename_i heq
          exact absurd (List.cons.inj heq).1 hpoint
        · rfl

/-- The same piece is cut off, provided that its own characters are the same. -/
theorem atHead_alike (h : List.Forall₂ Alike rest rest')
    (htaken : rest'.take (atHead c rest).2 = rest.take (atHead c rest).2) :
    atHead c rest' = atHead c rest := by
  have hequal := head?_alike h (x := '=') (by decide)
  have hgreater := head?_alike h (x := '>') (by decide)
  have hslash := head?_alike h (x := '/') (by decide)
  unfold atHead markPair at htaken ⊢
  split at htaken
  all_goals try rfl
  · simp only [hequal]
  · simp only [hequal]
  · simp only [hequal, hgreater]
  · simp only [hequal]
  · have hcomment : ∀ c, InWord c → (c != '\n') = true := fun c hc =>
      bne_iff_ne.mpr fun heq => hc.not_special (heq ▸ by decide)
    simp only [hslash, length_takeWhile_alike hcomment h]
  · have hquoted := quoted_alike (by decide) h htaken
    simp only [hquoted]
  · have hquoted := quoted_alike (by decide) h htaken
    simp only [hquoted]
  · rw [numeral_alike h, length_takeWhile_alike (fun c (hc : InWord c) => hc.1) h]

end Piece

/-! ### One piece further -/

/-- The scanner objects to the case of a reserved word. -/
def LexicalProblem.isWrongCase : LexicalProblem → Bool
  | .wrongCase .. => true
  | _ => false

/-- The text with the advice that goes with a problem, if there is any on the case of a word, followed. -/
def LexicalProblem.heed (text : List Char) : LexicalProblem × Span → List Char
  | (.wrongCase _ proper, span) => text.take span.start ++ proper.toList ++ text.drop span.stop
  | _ => text

namespace Scan

variable {s : Scan}

/-- The scanner without what it has told about the case of words. -/
def hushed (s : Scan) : Scan :=
  { s with problems := s.problems.filter fun found => !found.1.isWrongCase }

theorem heed_other {found : LexicalProblem × Span} (h : found.1.isWrongCase = false) (text : List Char) :
    LexicalProblem.heed text found = text := by
  obtain ⟨problem, span⟩ := found
  cases problem with
  | wrongCase => cases h
  | _ => rfl

/-- What is told when a piece is taken in comes to writing `taken'` in its place, and a scanner that
takes that in has nothing to tell of its case. -/
structure Mends (s : Scan) (piece : Piece) (taken taken' : List Char)
    (told : List (LexicalProblem × Span)) : Prop where
  problems : (s.take piece taken).problems = told ++ s.problems
  alike : List.Forall₂ Alike taken taken'
  word : piece = .word → IsWord taken'
  other : piece ≠ .word → taken' = taken
  mended : ∀ before after, before.length = s.position →
    told.foldl LexicalProblem.heed (before ++ (taken ++ after)) = before ++ (taken' ++ after)
  take : s.hushed.take piece taken' = (s.take piece taken).hushed

theorem forall₂_alike_self (taken : List Char) : List.Forall₂ Alike taken taken :=
  List.forall₂_same.mpr fun _ _ => Or.inl rfl

section Pieces

variable {piece : Piece} {taken : List Char}

/-- Nothing is told of a piece. -/
theorem Mends.silent (hproblems : (s.take piece taken).problems = s.problems)
    (hword : piece = .word → IsWord taken)
    (htake : s.hushed.take piece taken = (s.take piece taken).hushed) :
    s.Mends piece taken taken [] :=
  ⟨hproblems, forall₂_alike_self taken, hword, fun _ => rfl, fun _ _ _ => rfl, htake⟩

/-- Something else is told of a piece that is no word. -/
theorem Mends.lexical {found : LexicalProblem × Span} (hfound : found.1.isWrongCase = false)
    (hproblems : (s.take piece taken).problems = found :: s.problems) (hword : piece ≠ .word)
    (htake : s.hushed.take piece taken = (s.take piece taken).hushed) :
    s.Mends piece taken taken [found] :=
  ⟨hproblems, forall₂_alike_self taken, fun h => absurd h hword, fun _ => rfl,
    fun _ _ _ => heed_other hfound _, htake⟩

/-- What a word is does not depend on what has been told. -/
theorem word_hushed_or_repaired (s : Scan) (lexeme : String) (length : Nat) :
    ((s.word lexeme length).problems = s.problems ∧
      s.hushed.word lexeme length = (s.word lexeme length).hushed) ∨
    ∃ proper kind, TokenKind.ofWordIgnoringCase? lexeme = some (proper, kind) ∧
      s.word lexeme length = (s.report (.wrongCase lexeme proper) length).emit kind proper length := by
  have hdeclared : s.hushed.declared = s.declared := rfl
  have hname : s.hushed.atDeclaredName = s.atDeclaredName := rfl
  unfold word
  rw [hdeclared, hname]
  split
  · exact Or.inl ⟨rfl, rfl⟩
  · split
    · exact Or.inl ⟨rfl, rfl⟩
    · split
      · exact Or.inl ⟨rfl, rfl⟩
      · split
        · exact Or.inl ⟨rfl, rfl⟩
        · rename_i proper kind hfound _
          exact Or.inr ⟨proper, kind, hfound, rfl⟩

/-- **A word is put right or left alone.** -/
theorem mends_word (s : Scan) (hword : IsWord taken) : ∃ taken' told, s.Mends .word taken taken' told := by
  rcases word_hushed_or_repaired s (String.ofList taken) taken.length with
    ⟨hproblems, hhushed⟩ | ⟨proper, kind, hfound, hrepaired⟩
  · refine ⟨taken, [], .silent hproblems (fun _ => hword) ?_⟩
    simp only [take, hhushed]
    rfl
  have hspell := respells hfound
  rw [String.toList_ofList] at hspell
  have hreserved := (reserved_of_ofWordIgnoringCase hfound).1
  refine ⟨proper.toList, [(.wrongCase (String.ofList taken) proper, s.span taken.length)], ?_, ?_,
    fun _ => hspell.word, fun h => absurd rfl h, ?_, ?_⟩
  · simp only [take, hrepaired]
    rfl
  · refine List.forall₂_iff_zip.mpr ⟨hspell.length, fun {c d} hzip => ?_⟩
    obtain ⟨hc, hd⟩ := List.of_mem_zip hzip
    exact Or.inr ⟨⟨hword.continues c hc, hspell.written c hc⟩, hspell.proper d hd⟩
  · intro before after hposition
    simp only [List.foldl_cons, List.foldl_nil, LexicalProblem.heed, span, ← hposition]
    rw [List.take_left, ← List.append_assoc, ← List.length_append, List.drop_left, List.append_assoc]
  · simp only [take, String.ofList_toList, word_reserved hreserved, hrepaired, ← hspell.length]
    simp [hushed, report, emit, span, LexicalProblem.isWrongCase]

/-- Any other piece is left alone. -/
theorem mends_other (s : Scan) (hpiece : piece ≠ .word) : ∃ told, s.Mends piece taken taken told := by
  have hsilent : (s.take piece taken).problems = s.problems →
      s.hushed.take piece taken = (s.take piece taken).hushed → s.Mends piece taken taken [] :=
    (Mends.silent · (absurd · hpiece))
  cases piece with
  | gap | newline | mark | number => exact ⟨[], hsilent rfl rfl⟩
  | word => exact absurd rfl hpiece
  | text content closed =>
    cases closed with
    | true => exact ⟨[], hsilent rfl rfl⟩
    | false => exact ⟨_, .lexical rfl rfl hpiece rfl⟩
  | character content closed =>
    cases closed with
    | false => exact ⟨_, .lexical rfl rfl hpiece rfl⟩
    | true =>
      by_cases hlength : content.length = 1
      · refine ⟨[], hsilent ?_ ?_⟩ <;> simp [take, hlength, emit, hushed, span]
      · refine ⟨[(.wrongCharacterCount (String.ofList content), s.span taken.length)],
          .lexical rfl ?_ hpiece ?_⟩ <;>
          simp [take, hlength, emit, report, hushed, span, LexicalProblem.isWrongCase]
  | stray c => exact ⟨_, .lexical rfl rfl hpiece rfl⟩

end Pieces

/-! ### To the end of the text -/

/-- A word is cut off as a whole. -/
theorem isWord_atHead {c : Char} {rest : List Char} {more : Nat} (h : Piece.atHead c rest = (.word, more)) :
    IsWord (c :: rest.take more) ∧ more ≤ rest.length ∧
      ∀ d ∈ (rest.drop more).head?, Text.continuesName d = false := by
  have hnumeral : ∀ length, Piece.numeral rest ≠ (.word, length) := by
    intro length hnumeral
    unfold Piece.numeral at hnumeral
    extract_lets whole at hnumeral
    split at hnumeral
    · split at hnumeral <;> cases hnumeral
    · cases hnumeral
  have hword : Text.startsName c = true ∧ (rest.takeWhile Text.continuesName).length = more := by
    unfold Piece.atHead Piece.markPair at h
    split at h
    all_goals try (split at h)
    all_goals try cases h
    · split at h <;> cases h
    · exact absurd h (hnumeral more)
    · rename_i hc
      split at h
      · rename_i hstarts
        exact ⟨hstarts, congrArg Prod.snd h⟩
      · cases h
  obtain ⟨hstarts, rfl⟩ := hword
  refine ⟨⟨hstarts, fun d hd => ?_⟩, (List.takeWhile_prefix _).length_le, fun d hd => ?_⟩
  · rw [Piece.take_takeWhile] at hd
    exact List.mem_takeWhile_imp hd
  · have hrest : rest.drop (rest.takeWhile Text.continuesName).length = rest.dropWhile Text.continuesName := by
      conv => lhs; arg 2; rw [← List.takeWhile_append_dropWhile (p := Text.continuesName) (l := rest)]
      exact List.drop_left
    have hends := List.head?_dropWhile_not Text.continuesName rest
    rw [hrest] at hd
    rw [hd] at hends
    exact hends

section Mended

variable {piece : Piece} {c d : Char} {rest rest' others : List Char} {more : Nat}
  {told : List (LexicalProblem × Span)}

/-- What follows a piece starts where it started. -/
theorem split_mended (halike : List.Forall₂ Alike (c :: rest.take more) (d :: others))
    (hrest : List.Forall₂ Alike (rest.drop more) rest') :
    (others ++ rest').take more = others ∧ (others ++ rest').drop more = rest' := by
  have hlength : min more rest.length = others.length := by
    simpa using halike.length_eq
  by_cases hmore : more ≤ rest.length
  · rw [Nat.min_eq_left hmore] at hlength
    exact ⟨List.take_left' hlength.symm, List.drop_left' hlength.symm⟩
  · rw [Nat.min_eq_right (Nat.le_of_not_le hmore)] at hlength
    rw [List.drop_of_length_le (Nat.le_of_not_le hmore)] at hrest
    cases hrest
    rw [List.append_nil]
    exact ⟨List.take_of_length_le (by omega), List.drop_of_length_le (by omega)⟩

/-- What is written in the place of a piece is cut off in its place. -/
theorem Mends.atHead (h : s.Mends piece (c :: rest.take more) (d :: others) told)
    (hpiece : Piece.atHead c rest = (piece, more)) (hrest : List.Forall₂ Alike (rest.drop more) rest') :
    Piece.atHead d (others ++ rest') = (piece, more) := by
  by_cases hword : piece = .word
  · subst hword
    obtain ⟨-, hmore, hnext⟩ := isWord_atHead hpiece
    have hlength : others.length = more := by
      have hlength := h.alike.length_eq
      simp only [List.length_cons, List.length_take, Nat.min_eq_left hmore] at hlength
      omega
    rw [← hlength]
    refine Piece.atHead_word (h.word rfl) fun e he => ?_
    generalize rest.drop more = after at hnext hrest
    cases hrest with
    | nil => cases he
    | cons hc _ =>
      cases he
      rcases hc with rfl | ⟨hc, -⟩
      · exact hnext _ rfl
      · have hends := hnext _ rfl
        rw [hc.1] at hends
        cases hends
  · obtain ⟨rfl, rfl⟩ := List.cons.inj (h.other hword)
    have htaken := (split_mended h.alike hrest).1
    rw [← hpiece]
    refine Piece.atHead_alike ?_ (by rw [hpiece]; exact htaken)
    conv => lhs; rw [← List.take_append_drop more rest]
    exact List.rel_append (forall₂_alike_self _) hrest

end Mended

/-- **A text that is put right is scanned like the text itself, but for what is told about the case of
words.** -/
theorem run_mended (s : Scan) (rest : List Char) :
    ∃ rest' told, (s.run rest).problems = told ++ s.problems ∧ List.Forall₂ Alike rest rest' ∧
      (∀ before, before.length = s.position →
        told.foldl LexicalProblem.heed (before ++ rest) = before ++ rest') ∧
      s.hushed.run rest' = (s.run rest).hushed := by
  fun_induction Scan.run s rest with
  | case1 s => exact ⟨[], [], rfl, .nil, fun _ _ => rfl, by rw [Scan.run]⟩
  | case2 s c rest piece more hpiece ih =>
    obtain ⟨rest', told, hproblems, halike, hmended, hrun⟩ := ih
    obtain ⟨taken', told', hmends⟩ : ∃ taken' told', s.Mends piece (c :: rest.take more) taken' told' := by
      by_cases hword : piece = .word
      · subst hword
        exact s.mends_word (isWord_atHead hpiece).1
      · exact ⟨_, mends_other s hword⟩
    have htext : c :: rest = (c :: rest.take more) ++ rest.drop more := by
      rw [List.cons_append, List.take_append_drop]
    refine ⟨taken' ++ rest', told ++ told', ?_, ?_, ?_, ?_⟩
    · rw [hproblems, hmends.problems, List.append_assoc]
    · rw [htext]
      exact List.rel_append hmends.alike halike
    · intro before hbefore
      have hposition : (before ++ (c :: rest.take more)).length
          = (s.take piece (c :: rest.take more)).position := by
        rw [List.length_append, hbefore]
        rfl
      rw [htext, List.foldl_append, ← List.append_assoc, hmended _ hposition, List.append_assoc,
        hmends.mended _ _ hbefore]
    · obtain ⟨d, others, -, -, rfl⟩ := List.forall₂_cons_left_iff.mp hmends.alike
      obtain ⟨htake, hdrop⟩ := split_mended hmends.alike halike
      rw [List.cons_append, Scan.run, hmends.atHead hpiece halike]
      simp only [htake, hdrop, hmends.take, hrun]

end Scan

/-! ### Whole texts -/

theorem isWrongCase_at (problem : LexicalProblem) (span : Span) :
    (problem.wording.at span).isWrongCase = problem.isWrongCase := by
  cases problem <;> rfl

theorem heed_at {problem : LexicalProblem} (h : problem.isWrongCase = true) (span : Span) (text : List Char) :
    (problem.wording.at span).heed text = LexicalProblem.heed text (problem, span) := by
  cases problem with
  | wrongCase => rfl
  | _ => cases h

/-- Following the diagnostics from the last one to the first is following what was told, latest first. -/
theorem foldr_heed (told : List (LexicalProblem × Span)) (text : List Char) :
    ((told.reverse.map fun (p, span) => p.wording.at span).filter Diagnostic.isWrongCase).foldr
      Diagnostic.heed text = told.foldl LexicalProblem.heed text := by
  induction told generalizing text with
  | nil => rfl
  | cons found told ih =>
    rw [List.reverse_cons, List.map_append, List.filter_append, List.foldr_append, List.foldl_cons, ← ih]
    congr 1
    obtain ⟨problem, span⟩ := found
    simp only [List.map_cons, List.map_nil, List.filter_cons, List.filter_nil, isWrongCase_at]
    split
    · rename_i hwrong
      exact heed_at hwrong span text
    · rename_i hother
      exact (Scan.heed_other (Bool.not_eq_true _ ▸ hother) text).symm

/-- **Following the advice on the case of words changes nothing else.**  The text with every reserved word
in its proper case has the same tokens, and what is told of it is what was told of the first one, apart
from the case of words. -/
theorem scan_mend (source : String) :
    (scan (mend source)).1 = (scan source).1 ∧
    (scan (mend source)).2 = (scan source).2.filter (fun d => !d.isWrongCase) ∧
    ∀ d ∈ (scan source).2, d.isWrongCase ↔
      ∃ found proper, d = (LexicalProblem.wrongCase found proper).wording.at d.span := by
  obtain ⟨rest, told, hproblems, -, hmended, hrun⟩ := Scan.run_mended {} source.toList
  rw [List.append_nil] at hproblems
  have hmend : (mend source).toList = rest := by
    have hscan : (scan source).2 = told.reverse.map fun (p, span) => p.wording.at span := by
      rw [← hproblems]
      rfl
    rw [mend, String.toList_ofList, hscan, foldr_heed]
    exact hmended [] rfl
  have hquiet : Scan.run {} (mend source).toList = (Scan.run {} source.toList).hushed := by
    rw [hmend]
    exact hrun
  refine ⟨?_, ?_, fun d hd => ?_⟩
  · simp only [scan, hquiet]
    rfl
  · simp only [scan, hquiet]
    simp only [Scan.finish, Scan.emit, Scan.hushed, List.filter_map, ← List.filter_reverse, Function.comp_def,
      isWrongCase_at]
  · obtain ⟨⟨problem, span⟩, -, rfl⟩ := List.mem_map.mp hd
    cases problem with
    | wrongCase found proper => exact ⟨fun _ => ⟨found, proper, rfl⟩, fun _ => rfl⟩
    | _ =>
      refine ⟨fun hwrong => absurd hwrong Bool.false_ne_true, ?_⟩
      rintro ⟨_, _, h⟩
      have hkind := congrArg Diagnostic.kind h
      cases hkind

end Primer
