/-
Reading goes on.

A reader never gives a token back, and every turn of a loop takes one or ends the loop.  The
number of turns that `iterate` grants and the number of levels that `level` allows are therefore
never what ends a loop or cuts a construct short: with any more of them reading does the same.

Both facts are found in one go.  `Goes x y r P` says of two steps begun by `r` that they do the
same and do not go back, and that `P` holds of the result.  The two steps differ in how many
levels they may go down; with one and the same step on both sides only the progress is left.
-/
import Primer.Proofs.Grammar.Reads

namespace Primer.Grammar

/-! ### Where a reader has got to -/

namespace Reader

/-- `r'` reads the tokens of `r` and stands no earlier. -/
structure Reaches (r r' : Reader) : Prop where
  tokens : r'.tokens = r.tokens
  cursor : r.cursor ≤ r'.cursor

/-- `r'` reads the tokens of `r` and has taken at least one more of them. -/
structure Passes (r r' : Reader) : Prop where
  tokens : r'.tokens = r.tokens
  cursor : r.cursor < r'.cursor

/-- The loop is over, or its turn has taken a token. -/
def TakesTurn (r : Reader) (next : Option α) (r' : Reader) : Prop := next.isSome → r.Passes r'

/-- A token has been taken, whatever else came of it. -/
abbrev Taken (r : Reader) (_ : α) (r' : Reader) : Prop := r.Passes r'

variable {r r' r'' : Reader}

theorem Reaches.refl (r : Reader) : r.Reaches r := ⟨rfl, Nat.le_refl _⟩

theorem Reaches.trans (h : r.Reaches r') (h' : r'.Reaches r'') : r.Reaches r'' :=
  ⟨h'.tokens.trans h.tokens, Nat.le_trans h.cursor h'.cursor⟩

theorem Passes.reaches (h : r.Passes r') : r.Reaches r' := ⟨h.tokens, Nat.le_of_lt h.cursor⟩

theorem Passes.trans (h : r.Passes r') (h' : r'.Reaches r'') : r.Passes r'' :=
  ⟨h'.tokens.trans h.tokens, Nat.lt_of_lt_of_le h.cursor h'.cursor⟩

theorem Reaches.passes (h : r.Reaches r') (h' : r'.Passes r'') : r.Passes r'' :=
  ⟨h'.tokens.trans h.tokens, Nat.lt_of_le_of_lt h.cursor h'.cursor⟩

theorem remaining_pos (r : Reader) : 0 < r.remaining := Nat.sub_pos_of_lt r.inside

theorem Passes.remaining_lt (h : r.Passes r') : r'.remaining < r.remaining := by
  have hinside := r'.inside
  have hcursor := h.cursor
  unfold remaining
  rw [h.tokens] at hinside ⊢
  omega

/-- A reader that has not moved on has the same token before it. -/
theorem Reaches.passes_or_peek (h : r.Reaches r') :
    r.Passes r' ∨ r'.peek = r.peek ∧ r'.atEnd = r.atEnd := by
  rcases Nat.lt_or_eq_of_le h.cursor with hlt | heq
  · exact Or.inl ⟨h.tokens, hlt⟩
  · have hpeek : r'.peek = r.peek := by simp only [peek, h.tokens, heq]
    exact Or.inr ⟨hpeek, by rw [atEnd, atEnd, hpeek]⟩

theorem reaches_step (r : Reader) : r.Reaches r.step := by
  unfold step
  split
  · exact .refl r
  · exact ⟨rfl, Nat.le_succ _⟩

theorem passes_step (h : r.atEnd = false) : r.Passes r.step := by
  simp only [step, h, Bool.false_eq_true, dite_false]
  exact ⟨rfl, Nat.lt_succ_self _⟩

theorem previous_step (hend : r.atEnd = false) : r.step.previous = r.peek := by
  simp [step, hend, previous, peek]

theorem not_atEnd_of_kind {kind : TokenKind} (h : r.peek.kind = kind) (hkind : kind ≠ .endOfInput) :
    r.atEnd = false := by
  simp [atEnd, h, hkind]

theorem not_atEnd_of_check {kind : TokenKind} (h : r.check kind = true) : r.atEnd = false := by
  unfold check at h
  cases hend : r.atEnd with
  | false => rfl
  | true => simp [hend] at h

theorem not_atEnd_of_onLine {line : Nat} (h : r.onLine line = true) : r.atEnd = false := by
  unfold onLine at h
  cases hend : r.atEnd with
  | false => rfl
  | true => simp [hend] at h

theorem not_atEnd_of_checkAny {kinds : List TokenKind} (h : r.checkAny kinds = true) :
    r.atEnd = false := by
  obtain ⟨kind, -, hcheck⟩ := List.any_eq_true.mp h
  exact not_atEnd_of_check hcheck

end Reader

/-! ### Two steps that do the same -/

/-- Nothing is asked of a result. -/
abbrev Anyhow {α : Type} : α → Reader → Prop := fun _ _ => True

/-- Begun by `r`, both steps do the same and do not go back, and `P` holds of their result. -/
def Goes (x y : Read α) (r : Reader) (P : α → Reader → Prop) : Prop :=
  x r = y r ∧ Yields x r (fun a r' => r.Reaches r' ∧ P a r') r.Reaches

/-- Begun by `r`, the step does not go back, and `P` holds of its result. -/
abbrev Forward (x : Read α) (r : Reader) (P : α → Reader → Prop) : Prop := Goes x x r P

namespace Goes

variable {α β : Type} {x y : Read α} {r r₀ : Reader} {P Q : α → Reader → Prop}

theorem symm (h : Goes x y r P) : Goes y x r P :=
  ⟨h.1.symm, h.2.of_eq h.1.symm⟩

/-- Steps that do at `r` what these do. -/
theorem of_eq {x' y' : Read α} (h : Goes x y r P) (hx : x' r = x r) (hy : y' r = y r) :
    Goes x' y' r P :=
  ⟨hx.trans (h.1.trans hy.symm), h.2.of_eq hx⟩

theorem mono (h : Goes x y r P) (hP : ∀ a r', r.Reaches r' → P a r' → Q a r') : Goes x y r Q :=
  ⟨h.1, h.2.mono (fun a r' ha => ⟨ha.1, hP a r' ha.1 ha.2⟩) (fun _ he => he)⟩

/-- A token that was taken before stays taken. -/
theorem beyond (h : Goes x y r P) (hr : r₀.Passes r) : Goes x y r fun _ r' => r₀.Passes r' :=
  h.mono fun _ _ hreach _ => hr.trans hreach

theorem anyhow (h : Goes x y r P) : Goes x y r Anyhow := h.mono fun _ _ _ _ => trivial

theorem pure {a : α} (h : P a r) : Forward (Pure.pure a) r P :=
  ⟨rfl, Reader.Reaches.refl r, h⟩

theorem throw {e : Abandoned} : Goes (MonadExcept.throw e : Read α) (MonadExcept.throw e) r P :=
  ⟨rfl, Reader.Reaches.refl r⟩

theorem bind {f g : α → Read β} {R : β → Reader → Prop} (hx : Goes x y r P)
    (hf : ∀ a r', r.Reaches r' → P a r' → Goes (f a) (g a) r' R) :
    Goes (x >>= f) (y >>= g) r R := by
  obtain ⟨hsame, hyields⟩ := hx
  refine ⟨?_, Yields.bind (hyields.mono (fun a r' ha => ?_) fun _ he => he)⟩
  · unfold Yields at hyields
    simp only [Bind.bind, EStateM.bind, ← hsame]
    cases hres : x r with
    | error e r' => rfl
    | ok a r' =>
      rw [hres] at hyields
      exact (hf a r' hyields.1 hyields.2).1
  · exact (hf a r' ha.1 ha.2).2.mono (fun b r'' hb => ⟨ha.1.trans hb.1, hb.2⟩)
      fun r'' he => ha.1.trans he

/-- A step whose result is all that is left to give. -/
theorem last {f : α → β} (h : Goes x y r P) :
    Goes (do let a ← x; Pure.pure (f a)) (do let a ← y; Pure.pure (f a)) r Anyhow :=
  h.bind fun _ _ _ _ => .pure trivial

theorem look_bind {β : Type} {p : Reader → α} {f g : α → Read β} {R : β → Reader → Prop}
    (h : Goes (f (p r)) (g (p r)) r R) : Goes (look p >>= f) (look p >>= g) r R := h

theorem get_bind {f g : Reader → Read β} {R : β → Reader → Prop} (h : Goes (f r) (g r) r R) :
    Goes (get >>= f) (get >>= g) r R := h

theorem map {f : α → β} {R : β → Reader → Prop} (h : Goes x y r P)
    (hf : ∀ a r', P a r' → R (f a) r') : Goes (f <$> x) (f <$> y) r R :=
  h.bind (f := fun a => Pure.pure (f a)) (g := fun a => Pure.pure (f a)) fun a r' _ ha =>
    pure (hf a r' ha)

theorem attempt (h : Goes x y r P) :
    Goes (Grammar.attempt x) (Grammar.attempt y) r fun found r' => ∀ a, found = some a → P a r' := by
  obtain ⟨hsame, hyields⟩ := h
  unfold Goes Yields Grammar.attempt at *
  rw [← hsame]
  refine ⟨rfl, ?_⟩
  cases hres : x r with
  | error e r' =>
    rw [hres] at hyields
    exact ⟨hyields, nofun⟩
  | ok a r' =>
    rw [hres] at hyields
    refine ⟨hyields.1, ?_⟩
    rintro b ⟨⟩
    exact hyields.2

/-- Two loops do the same if their turns do. -/
theorem iterate {turn turn' : α → Read (Option α)} {start : α}
    (h : ∀ a r', r.Reaches r' → Goes (turn a) (turn' a) r' Anyhow) :
    Goes (Grammar.iterate turn start) (Grammar.iterate turn' start) r Anyhow := by
  have hturns : ∀ turns a r', r.Reaches r' →
      Goes (iterateFor turn turns a) (iterateFor turn' turns a) r' Anyhow := by
    intro turns
    induction turns with
    | zero => exact fun _ _ _ => pure trivial
    | succ turns ih =>
      intro a r' hr'
      refine (h a r' hr').bind fun next r'' hr'' _ => ?_
      cases next with
      | none => exact pure trivial
      | some b => exact ih b r'' (hr'.trans hr'')
  exact hturns r.remaining start r (.refl r)

end Goes

/-! ### Loops -/

/-- Every turn of the loop takes a token or ends the loop. -/
def Advancing (turn : α → Read (Option α)) : Prop :=
  ∀ a r, Yields (turn a) r (fun next r' => r.Reaches r' ∧ r.TakesTurn next r') r.Reaches

theorem Advancing.of_goes {turn : α → Read (Option α)}
    (h : ∀ a r, Forward (turn a) r r.TakesTurn) : Advancing turn :=
  fun a r => (h a r).2

theorem Advancing.goes {turn : α → Read (Option α)} (h : Advancing turn) (a : α) (r : Reader) :
    Forward (turn a) r Anyhow :=
  Goes.anyhow ⟨rfl, h a r⟩

/-- A loop that has as many turns as there are tokens is not ended by their number. -/
theorem iterateFor_enough {turn : α → Read (Option α)} (h : Advancing turn) :
    ∀ k k' a r, r.remaining ≤ k → r.remaining ≤ k' →
      iterateFor turn k a r = iterateFor turn k' a r := by
  intro k
  induction k with
  | zero => exact fun _ _ r hk _ => absurd r.remaining_pos (by omega)
  | succ k ih =>
    intro k' a r hk hk'
    obtain ⟨k', rfl⟩ : ∃ j, k' = j + 1 := ⟨k' - 1, by have := r.remaining_pos; omega⟩
    have hturn := h a r
    unfold Yields at hturn
    simp only [iterateFor, Bind.bind, EStateM.bind]
    cases hres : turn a r with
    | error e r' => rfl
    | ok next r' =>
      rw [hres] at hturn
      cases next with
      | none => rfl
      | some b =>
        have hlt := (hturn.2 rfl).remaining_lt
        exact ih k' b r' (by omega) (by omega)

/-- **A loop goes on until a turn says that it is over.** -/
theorem iterate_unfold {turn : α → Read (Option α)} (h : Advancing turn) (a : α) :
    iterate turn a = (do
      match ← turn a with
      | some b => iterate turn b
      | none => pure a) := by
  funext r
  have hturn := h a r
  unfold Yields at hturn
  obtain ⟨k, hk⟩ : ∃ k, r.remaining = k + 1 := ⟨r.remaining - 1, by have := r.remaining_pos; omega⟩
  simp only [iterate, hk, iterateFor, Bind.bind, EStateM.bind]
  cases hres : turn a r with
  | error e r' => rfl
  | ok next r' =>
    rw [hres] at hturn
    cases next with
    | none => rfl
    | some b =>
      have hlt := (hturn.2 rfl).remaining_lt
      exact iterateFor_enough h k r'.remaining b r' (by omega) (Nat.le_refl _)

section Tokens

variable {α β : Type} {r : Reader} {x y : Read α} {problem : Problem} {more : Reader → Bool}

/-- A change of what the reader keeps beside its tokens. -/
theorem modify_goes {f : Reader → Reader}
    (h : (f r).tokens = r.tokens ∧ (f r).cursor = r.cursor) : Forward (modify f) r Anyhow :=
  ⟨rfl, ⟨h.1, Nat.le_of_eq h.2.symm⟩, trivial⟩

theorem report_goes {span : Span} : Forward (report problem span) r Anyhow :=
  modify_goes ⟨rfl, rfl⟩

theorem reportMissing_goes : Forward (reportMissing problem) r Anyhow :=
  .look_bind report_goes

theorem abandon_goes {span : Span} {P : α → Reader → Prop} :
    Forward (abandon problem span) r P :=
  report_goes.bind fun _ _ _ _ => .throw

theorem advance_goes : Forward advance r Anyhow :=
  ⟨rfl, r.reaches_step, trivial⟩

theorem advance_passes (h : r.atEnd = false) : Forward advance r r.Taken :=
  ⟨rfl, r.reaches_step, Reader.passes_step h⟩

/-- A construct takes the word that it starts with. -/
theorem Goes.beyondWord {f g : Token → Read α} (hend : r.atEnd = false)
    (h : ∀ token r', r.Passes r' → Goes (f token) (g token) r' Anyhow) :
    Goes (advance >>= f) (advance >>= g) r r.Taken :=
  (advance_passes hend).bind fun token r' _ htaken => (h token r' htaken).beyond htaken

theorem accept_goes {kind : TokenKind} :
    Forward (accept kind) r fun found r' => found = true → r.Passes r' := by
  refine ⟨rfl, ?_⟩
  unfold Yields accept
  by_cases hcheck : r.check kind = true
  · rw [if_pos hcheck]
    exact ⟨r.reaches_step, fun _ => Reader.passes_step (Reader.not_atEnd_of_check hcheck)⟩
  · rw [if_neg hcheck]
    exact ⟨.refl r, nofun⟩

theorem acceptAny?_stays {kinds : List TokenKind} : Forward (acceptAny? kinds) r fun found r' =>
      r.TakesTurn found r' ∧ (found = none → r' = r) := by
  refine ⟨rfl, ?_⟩
  unfold Yields acceptAny?
  by_cases hcheck : r.checkAny kinds = true
  · rw [if_pos hcheck]
    have htaken := Reader.passes_step (Reader.not_atEnd_of_checkAny hcheck)
    exact ⟨r.reaches_step, fun _ => htaken, nofun⟩
  · rw [if_neg hcheck]
    exact ⟨.refl r, nofun, fun _ => rfl⟩

theorem acceptAny?_goes {kinds : List TokenKind} : Forward (acceptAny? kinds) r r.TakesTurn :=
  acceptAny?_stays.mono fun _ _ _ h => h.1

theorem expect_goes {kind : TokenKind} :
    Forward (expect kind problem) r r.Taken := by
  refine .look_bind ?_
  split
  · rename_i hcheck
    exact advance_passes (Reader.not_atEnd_of_check hcheck)
  · exact .look_bind abandon_goes

theorem skipIf_advancing (h : ∀ r, more r = true → r.atEnd = false) :
    Advancing (skipIf more) := by
  refine .of_goes fun _ r => ?_
  refine .look_bind ?_
  split
  · rename_i hmore
    exact (advance_passes (h r hmore)).bind fun _ _ _ hpass => .pure fun _ => hpass
  · exact .pure nofun

theorem skipWhile_goes (h : ∀ r, more r = true → r.atEnd = false) :
    Forward (skipWhile more) r Anyhow :=
  .iterate fun a r' _ => (skipIf_advancing h).goes a r'

/-- Something is skipped if there is anything to skip. -/
theorem skipWhile_passes (h : ∀ r, more r = true → r.atEnd = false) (hmore : more r = true) :
    Forward (skipWhile more) r r.Taken := by
  have hturn : Forward (skipIf more ()) r
      fun next r' => next = some () ∧ r.Passes r' := by
    refine .look_bind ?_
    simp only [hmore, if_true]
    exact (advance_passes (h r hmore)).bind fun _ _ _ hpass => .pure ⟨rfl, hpass⟩
  unfold skipWhile
  rw [iterate_unfold (skipIf_advancing h)]
  refine hturn.bind fun next r' _ hnext => ?_
  obtain ⟨rfl, hpass⟩ := hnext
  exact (skipWhile_goes h).beyond hpass

theorem skipLine_goes {line : Nat} : Forward (skipLine line) r Anyhow :=
  skipWhile_goes fun r h => by simp_all

/-- Skipping the line that the reader stands on takes a token. -/
theorem skipLine_passes {line : Nat} (hend : r.atEnd = false) (hline : r.peek.line ≤ line) :
    Forward (skipLine line) r r.Taken :=
  skipWhile_passes (fun r h => by simp_all) (by simp [hend, hline])

theorem nextItem_goes (h : ∀ r', r.Passes r' → Goes x y r' Anyhow) (items : List α) :
    Goes (nextItem x items) (nextItem y items) r r.TakesTurn := by
  refine accept_goes.bind fun found r' _ hfound => ?_
  split
  · rename_i htaken
    have hpass := hfound htaken
    exact (h r' hpass).bind fun _ _ hreach _ => .pure fun _ => hpass.trans hreach
  · exact .pure nofun

theorem commaSeparated_goes (h : ∀ r', r.Reaches r' → Goes x y r' Anyhow) :
    Goes (commaSeparated x) (commaSeparated y) r Anyhow := by
  refine (h r (.refl r)).bind fun first r₁ hr₁ _ => ?_
  refine (Goes.iterate fun items r₂ hr₂ => (nextItem_goes (fun r₃ hr₃ => ?_) items).anyhow).bind
    fun _ _ _ _ => .pure trivial
  exact h r₃ (hr₁.trans (hr₂.trans hr₃.reaches))

theorem endOfStatement_goes : Forward endOfStatement r Anyhow := by
  refine .get_bind ?_
  split
  · exact .pure trivial
  · split
    · exact report_goes.bind fun _ _ _ _ => skipLine_goes
    · exact .pure trivial

theorem expectEnd_goes {kind : BlockKind} {opener : Token} :
    Forward (expectEnd kind opener) r Anyhow := by
  unfold expectEnd
  split
  · exact .pure trivial
  · refine .get_bind ?_
    have hclose : ∀ r : Reader, Forward (do let _ ← advance; let _ ← advance; endOfStatement) r Anyhow := fun _ =>
      advance_goes.bind fun _ _ _ _ => advance_goes.bind fun _ _ _ _ => endOfStatement_goes
    split
    · exact report_goes
    · split
      split
      · exact hclose r
      · split
        · exact report_goes
        · split
          · exact report_goes.bind fun _ _ _ _ => hclose _
          · exact report_goes.bind fun _ _ _ _ => advance_goes.bind fun _ _ _ _ =>
              endOfStatement_goes

end Tokens

end Primer.Grammar
