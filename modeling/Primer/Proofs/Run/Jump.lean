/-
Where a jump goes.

A `Break` or `Continue` hands its signal to the statement around it, and that one to the next.
`Raises` describes its way: it may lead out of the blocks of an `If` or a `Select`, past all that
comes after them, but there is no way out of a loop.  Statements end with the signal of a jump just
when there is such a way, and a loop takes the signal that its body ends with.  In a program without
errors every jump stands in a loop, so no signal of a jump is left where the statements of the
program or of a routine end.
-/
import Primer.Proofs.Program.Reading
import Primer.Proofs.Run.Cycle
import Primer.Proofs.Run.Session

namespace Primer

/-- A way to leave the body of a loop. -/
inductive Jump where
  | breakLoop
  | continueLoop

def Jump.signal : Jump → Signal
  | .breakLoop => .breakLoop
  | .continueLoop => .continueLoop

def Jump.statement (span : Span) : Jump → Stmt
  | .breakLoop => .breakLoop span
  | .continueLoop => .continueLoop span

theorem Jump.signal_ne_next (jump : Jump) : jump.signal ≠ .next := by
  cases jump <;> simp [Jump.signal]

theorem Jump.signal_ne_returned (jump : Jump) (v : Value) : jump.signal ≠ .returned v := by
  cases jump <;> simp [Jump.signal]

theorem Jump.signal_inj {jump jump' : Jump} (h : jump.signal = jump'.signal) : jump = jump' := by
  cases jump <;> cases jump' <;> first | rfl | cases h

/-- What a tree says if it can come to this signal. -/
def Signal.note? : Signal → Option Note
  | .next => none
  | .continueLoop | .breakLoop => some .jump
  | .returned _ => some .returns

namespace Engine

variable {s : Stmt} {b : Block Stmt} {ss : List Stmt} {turns : Nat} {n : Nat}

open Run

/-! ### Choices -/

section Choices

variable (inner : Inner σ)

/-- The block of the first branch whose test holds. -/
def chosen (otherwise : Option (Block Stmt)) : List (Branch Stmt) → Run σ (Option (Block Stmt))
  | [] => pure otherwise
  | branch :: rest => do
    if ← test inner branch.condition then pure (some branch.body) else chosen otherwise rest

/-- The block of the first case that has the subject among its labels. -/
def matched (subject : Value) (otherwise : Option (Block Stmt)) :
    List (Case Stmt) → Run σ (Option (Block Stmt))
  | [] => pure otherwise
  | c :: rest => do
    if ← anyLabel inner subject c.labels then pure (some c.body) else matched subject otherwise rest

/-- The block that an `If` or a `Select` comes to, if there is one. -/
def picked : Stmt → Run σ (Option (Block Stmt))
  | .choose branches otherwise _ => chosen inner otherwise branches
  | .select subject cases otherwise _ => do matched inner (← inner.eval subject) otherwise cases
  | _ => pure none

theorem choose_eq (otherwise : Option (Block Stmt)) (branches : List (Branch Stmt)) :
    choose inner otherwise branches = chosen inner otherwise branches >>= optionalBlock inner := by
  induction branches with
  | nil => rfl
  | cons branch rest ih =>
    rw [choose, chosen, bind_assoc]
    refine bind_congr fun holds => ?_
    cases holds with
    | true => rfl
    | false => exact ih

theorem select_eq (subject : Value) (otherwise : Option (Block Stmt)) (cases : List (Case Stmt)) :
    select inner subject otherwise cases
      = matched inner subject otherwise cases >>= optionalBlock inner := by
  induction cases with
  | nil => rfl
  | cons c rest ih =>
    rw [select, matched, bind_assoc]
    refine bind_congr fun holds => ?_
    cases holds with
    | true => rfl
    | false => exact ih

end Choices

/-! ### The way of a jump -/

variable {engine : Engine σ} {inner : Inner σ} {m m' : Machine σ} {signal : Signal} {jump : Jump}

/-- Running the statements comes to a jump, and only choices and blocks are between them and the
jump.  The machine is then `m'`. -/
inductive Raises (engine : Engine σ) (jump : Jump) :
    Nat → List Stmt → Machine σ → Machine σ → Prop
  /-- The jump is next. -/
  | here {n : Nat} {span : Span} {rest : List Stmt} {m : Machine σ} (hgoes : m.outside.stop = false) :
    Raises engine jump (n + 1) (jump.statement span :: rest) m m
  /-- It comes after a statement. -/
  | later {n : Nat} {s : Stmt} {rest : List Stmt} {m m₁ m' : Machine σ}
      (hs : (engine.level n).exec s m = .ok .next m₁) (hrest : Raises engine jump n rest m₁ m') :
    Raises engine jump n (s :: rest) m m'
  /-- It is in the block that an `If` or a `Select` comes to. -/
  | inside {n : Nat} {s : Stmt} {rest : List Stmt} {b : Block Stmt} {m m₁ m' : Machine σ}
      (hgoes : m.outside.stop = false) (hpicked : picked (engine.level n) s m = .ok (some b) m₁)
      (hblock : Raises engine jump n b.statements m₁ m') :
    Raises engine jump (n + 1) (s :: rest) m m'

theorem heedHost_eq_ok {span : Span} {u : Unit} :
    heedHost span m = .ok u m' ↔ m.outside.stop = false ∧ m = m' := by
  constructor
  · intro h
    cases hstop : m.outside.stop with
    | true =>
      cases hreported : m.stopReported <;>
        simp [heedHost, look, Bind.bind, EStateM.bind, hstop, hreported, stop, fatal] at h <;> cases h
    | false =>
      refine ⟨rfl, ?_⟩
      simp only [heedHost, look, Bind.bind, EStateM.bind, hstop, Bool.false_eq_true, if_false] at h
      cases h
      rfl
  · rintro ⟨hstop, rfl⟩
    simp only [heedHost, look, Bind.bind, EStateM.bind, hstop, Bool.false_eq_true, if_false]
    rfl

theorem exec_eq_ok :
    (engine.level (n + 1)).exec s m = .ok signal m' ↔
      m.outside.stop = false ∧ engine.perform (engine.level n) n s m = .ok signal m' := by
  show (heedHost s.span >>= fun _ => engine.perform (engine.level n) n s) m = _ ↔ _
  rw [bind_eq_ok]
  constructor
  · rintro ⟨_, _, hheed, hperform⟩
    obtain ⟨hstop, rfl⟩ := heedHost_eq_ok.mp hheed
    exact ⟨hstop, hperform⟩
  · rintro ⟨hstop, hperform⟩
    exact ⟨⟨⟩, m, heedHost_eq_ok.mpr ⟨hstop, rfl⟩, hperform⟩

/-- How a loop ends: with the end of its turns, or because its body returned. -/
theorem Cycle.run_ok {c : Cycle σ} {turns number : Nat} (h : c.run inner turns number m = .ok signal m') :
    signal = .next ∨ ∃ v m₁ m₂, signal = .returned v ∧ block inner c.body m₁ = .ok (.returned v) m₂ := by
  induction turns generalizing number m with
  | zero => cases h
  | succ turns ih =>
    rw [Cycle.run_succ] at h
    obtain ⟨ready, m₁, -, h⟩ := bind_eq_ok.mp h
    cases ready with
    | false =>
      cases h
      exact Or.inl rfl
    | true =>
      obtain ⟨ending, m₂, hbody, h⟩ := bind_eq_ok.mp h
      have hgoOn : c.goOn inner turns number m₂ = .ok signal m' →
          signal = .next ∨ ∃ v m₁ m₂, signal = .returned v ∧
            block inner c.body m₁ = .ok (.returned v) m₂ := by
        intro h
        obtain ⟨_, m₃, -, h⟩ := bind_eq_ok.mp h
        obtain ⟨goes, m₄, -, h⟩ := bind_eq_ok.mp h
        cases goes with
        | true => exact ih h
        | false =>
          cases h
          exact Or.inl rfl
      cases ending with
      | next | continueLoop => exact hgoOn h
      | breakLoop =>
        cases h
        exact Or.inl rfl
      | returned v =>
        cases h
        exact Or.inr ⟨v, m₁, _, rfl, hbody⟩

theorem perform_loop_ok (hs : s.loopBody?.isSome)
    (h : engine.perform inner turns s m = .ok signal m') :
    signal = .next ∨ ∃ v body m₁ m₂, signal = .returned v ∧ s.loopBody? = some body ∧
      block inner body m₁ = .ok (.returned v) m₂ := by
  rw [perform_loop engine inner hs] at h
  obtain ⟨found, m₁, hfound, h⟩ := bind_eq_ok.mp h
  cases found with
  | none =>
    cases h
    exact Or.inl rfl
  | some c =>
    rcases Cycle.run_ok h with hnext | ⟨v, m₂, m₃, hv, hbody⟩
    · exact Or.inl hnext
    · exact Or.inr ⟨v, c.body, m₂, m₃, hv, body_of_setOut engine inner hfound, hbody⟩

/-- What a statement can come to when it is not interrupted. -/
inductive Comes (inner : Inner σ) : Stmt → Machine σ → Signal → Machine σ → Prop
  | onward {s : Stmt} {m m' : Machine σ} : Comes inner s m .next m'
  | returned {value : Option Expr} {span : Span} {v : Value} {m m' : Machine σ} :
    Comes inner (.returnWith value span) m (.returned v) m'
  | jumped (jump : Jump) {span : Span} {m : Machine σ} :
    Comes inner (jump.statement span) m jump.signal m
  /-- A choice comes to what the block comes to that it picks. -/
  | picked {s : Stmt} {b : Block Stmt} {signal : Signal} {m m₁ m' : Machine σ}
      (hpicked : picked inner s m = .ok (some b) m₁) (hblock : block inner b m₁ = .ok signal m') :
    Comes inner s m signal m'
  /-- A loop hands on what its body returned. -/
  | looped {s : Stmt} {body : Block Stmt} {v : Value} {m m₁ m₂ m' : Machine σ}
      (hbody : s.loopBody? = some body) (hblock : block inner body m₁ = .ok (.returned v) m₂) :
    Comes inner s m (.returned v) m'

theorem comes_of_picked (h : (picked inner s >>= optionalBlock inner) m = .ok signal m') :
    Comes inner s m signal m' := by
  obtain ⟨found, m₁, hfound, h⟩ := bind_eq_ok.mp h
  cases found with
  | none =>
    cases h
    exact .onward
  | some b => exact .picked hfound h

theorem comes_of_loop (hs : s.loopBody?.isSome)
    (h : engine.perform inner turns s m = .ok signal m') : Comes inner s m signal m' := by
  obtain rfl | ⟨v, body, m₁, m₂, rfl, hbody, hblock⟩ := perform_loop_ok hs h
  · exact .onward
  · exact .looped hbody hblock

theorem comes_of_perform (h : engine.perform inner turns s m = .ok signal m') :
    Comes inner s m signal m' := by
  have honward : ∀ {α : Type} {x : Run σ α},
      (x >>= fun _ => pure Signal.next) m = .ok signal m' → Comes inner s m signal m' := by
    intro α x h
    obtain ⟨_, _, -, h⟩ := bind_eq_ok.mp h
    cases h
    exact .onward
  cases s with
  | declare declarations span | assign target value span | display items span | input target span
  | call call span => exact honward h
  | choose branches otherwise span =>
    refine comes_of_picked (?_ : (chosen inner otherwise branches >>= optionalBlock inner) m = _)
    rw [← choose_eq]
    exact h
  | select subject cases otherwise span =>
    refine comes_of_picked (?_ : ((inner.eval subject >>= fun v => matched inner v otherwise cases)
      >>= optionalBlock inner) m = _)
    rw [bind_assoc]
    simp only [← select_eq]
    exact h
  | whileLoop condition body span => exact comes_of_loop rfl h
  | doLoop body condition exit span => exact comes_of_loop rfl h
  | forLoop counter start stop step body span => exact comes_of_loop rfl h
  | forEach item array body span => exact comes_of_loop rfl h
  | returnWith value span =>
    cases value with
    | none =>
      cases h
      exact .returned
    | some e =>
      obtain ⟨v, m₁, -, h⟩ := bind_eq_ok.mp h
      cases h
      exact .returned
  | breakLoop span =>
    cases h
    exact .jumped .breakLoop
  | continueLoop span =>
    cases h
    exact .jumped .continueLoop
  | stop span => cases h

/-! ### Jumps go to the innermost loop -/

/-- A row of statements ends with the first that does not hand control on to the next. -/
theorem statements_cons_eq_ok {rest : List Stmt} :
    statements inner (s :: rest) m = .ok signal m' ↔
      (∃ m₁, inner.exec s m = .ok .next m₁ ∧ statements inner rest m₁ = .ok signal m') ∨
        inner.exec s m = .ok signal m' ∧ signal ≠ .next := by
  rw [statements, bind_eq_ok]
  constructor
  · rintro ⟨found, m₁, hexec, hrest⟩
    cases found with
    | next => exact Or.inl ⟨m₁, hexec, hrest⟩
    | continueLoop | breakLoop | returned v =>
      cases hrest
      exact Or.inr ⟨hexec, nofun⟩
  · rintro (⟨m₁, hexec, hrest⟩ | ⟨hexec, hne⟩)
    · exact ⟨.next, m₁, hexec, hrest⟩
    · refine ⟨signal, m', hexec, ?_⟩
      cases signal with
      | next => exact absurd rfl hne
      | continueLoop | breakLoop | returned v => rfl

theorem statements_of_raises (h : engine.Raises jump n ss m m') :
    statements (engine.level n) ss m = .ok jump.signal m' := by
  induction h with
  | here hgoes =>
    refine statements_cons_eq_ok.mpr (Or.inr ⟨exec_eq_ok.mpr ⟨hgoes, ?_⟩, jump.signal_ne_next⟩)
    cases jump <;> rfl
  | later hs hrest ih => exact statements_cons_eq_ok.mpr (Or.inl ⟨_, hs, ih⟩)
  | @inside n s rest b m m₁ m' hgoes hpicked hblock ih =>
    refine statements_cons_eq_ok.mpr (Or.inr ⟨exec_eq_ok.mpr ⟨hgoes, ?_⟩, jump.signal_ne_next⟩)
    have hpick : (picked (engine.level n) s >>= optionalBlock (engine.level n)) m
        = .ok jump.signal m' := (bind_of_ok hpicked).trans ih
    cases s with
    | choose branches otherwise span => exact (congrFun (choose_eq _ _ _) m).trans hpick
    | select subject cases otherwise span =>
      rw [picked, bind_assoc] at hpick
      simp only [← select_eq] at hpick
      exact hpick
    | _ => cases hpicked

theorem raises_of_exec {rest : List Stmt}
    (hinside : ∀ {ss : List Stmt} {m : Machine σ},
      statements (engine.level n) ss m = .ok jump.signal m' → engine.Raises jump n ss m m')
    (h : (engine.level (n + 1)).exec s m = .ok jump.signal m') :
    engine.Raises jump (n + 1) (s :: rest) m m' := by
  obtain ⟨hgoes, h⟩ := exec_eq_ok.mp h
  have hcomes := comes_of_perform h
  generalize hsignal : jump.signal = signal at hcomes
  cases hcomes with
  | onward => exact absurd hsignal jump.signal_ne_next
  | returned | looped => exact absurd hsignal (jump.signal_ne_returned _)
  | jumped other =>
    obtain rfl := Jump.signal_inj hsignal
    exact .here hgoes
  | picked hpicked hblock =>
    subst hsignal
    exact .inside hgoes hpicked (hinside hblock)

/-- **Statements end with the signal of a jump just when choices and blocks lead from them to it.**
No choice or block keeps the signal, and no loop lets it out. -/
theorem raises_iff :
    engine.Raises jump n ss m m' ↔ statements (engine.level n) ss m = .ok jump.signal m' := by
  refine ⟨statements_of_raises, ?_⟩
  induction n generalizing ss m with
  | zero =>
    intro h
    cases ss with
    | nil => cases jump <;> cases h
    | cons s rest => cases h
  | succ n ih =>
    intro h
    induction ss generalizing m with
    | nil => cases jump <;> cases h
    | cons s rest ihs =>
      rcases statements_cons_eq_ok.mp h with ⟨m₁, hexec, hrest⟩ | ⟨hexec, -⟩
      · exact .later hexec (ihs hrest)
      · exact raises_of_exec ih hexec

/-! ### Signals are noted -/

/-- Statements come only to signals that are noted of them. -/
def Noted (inner : Inner σ) : Prop :=
  ∀ s m signal m', inner.exec s m = .ok signal m' → ∀ n ∈ signal.note?, n ∈ s.notes

theorem statements_notes (hinner : Noted inner) (h : statements inner ss m = .ok signal m') :
    ∀ n ∈ signal.note?, n ∈ Stmt.notesAll ss := by
  induction ss generalizing m with
  | nil =>
    cases h
    nofun
  | cons s rest ih =>
    intro n hn
    rw [Stmt.notesAll]
    rcases statements_cons_eq_ok.mp h with ⟨m₁, -, hrest⟩ | ⟨hexec, -⟩
    · exact List.mem_append_right _ (ih hrest n hn)
    · exact List.mem_append_left _ (hinner s m signal m' hexec n hn)

theorem block_notes (hinner : Noted inner) (h : block inner b m = .ok signal m') :
    ∀ n ∈ signal.note?, n ∈ Stmt.blockNotes b := by
  obtain ⟨ss, span⟩ := b
  rw [Stmt.blockNotes]
  exact statements_notes hinner h

theorem chosen_notes {otherwise : Option (Block Stmt)} {branches : List (Branch Stmt)}
    (h : chosen inner otherwise branches m = .ok (some b) m') :
    ∀ n ∈ Stmt.blockNotes b, n ∈ Stmt.branchNotes branches ++ Stmt.optionNotes otherwise := by
  induction branches generalizing m with
  | nil =>
    cases h
    exact fun n hn => hn
  | cons branch rest ih =>
    obtain ⟨holds, m₁, -, h⟩ := bind_eq_ok.mp h
    intro n hn
    cases holds with
    | true =>
      cases h
      grind [Stmt.branchNotes]
    | false =>
      have := ih h n hn
      grind [Stmt.branchNotes]

theorem matched_notes {subject : Value} {otherwise : Option (Block Stmt)} {cases : List (Case Stmt)}
    (h : matched inner subject otherwise cases m = .ok (some b) m') :
    ∀ n ∈ Stmt.blockNotes b, n ∈ Stmt.caseNotes cases ++ Stmt.optionNotes otherwise := by
  induction cases generalizing m with
  | nil =>
    cases h
    exact fun n hn => hn
  | cons c rest ih =>
    obtain ⟨holds, m₁, -, h⟩ := bind_eq_ok.mp h
    intro n hn
    cases holds with
    | true =>
      cases h
      grind [Stmt.caseNotes]
    | false =>
      have := ih h n hn
      grind [Stmt.caseNotes]

theorem picked_notes (h : picked inner s m = .ok (some b) m') :
    ∀ n ∈ Stmt.blockNotes b, n ∈ s.notes := by
  cases s with
  | choose branches otherwise span => exact chosen_notes h
  | select subject cases otherwise span =>
    obtain ⟨v, m₁, -, h⟩ := bind_eq_ok.mp h
    intro n hn
    rw [Stmt.notes, List.append_assoc]
    exact List.mem_append_right _ (matched_notes h n hn)
  | _ => cases h

theorem comes_notes (hinner : Noted inner) (h : Comes inner s m signal m') :
    ∀ n ∈ signal.note?, n ∈ s.notes := by
  intro n hn
  cases h with
  | onward => cases hn
  | returned =>
    cases hn
    exact List.mem_cons_self
  | jumped jump => cases jump <;> cases hn <;> exact List.mem_singleton_self _
  | picked hpicked hblock => exact picked_notes hpicked n (block_notes hinner hblock n hn)
  | @looped _ body _ _ _ _ _ hbody hblock =>
    cases hn
    have hreturns : .returns ∈ Note.inLoop (Stmt.blockNotes body) :=
      Note.mem_inLoop.mpr ⟨block_notes hinner hblock _ rfl, rfl⟩
    cases s with
    | whileLoop | doLoop | forLoop | forEach =>
      cases hbody
      simp only [Stmt.notes, List.mem_append, hreturns, or_true, true_or]
    | _ => cases hbody

theorem noted_level (n : Nat) : Noted (engine.level n) := by
  induction n with
  | zero =>
    intro s m signal m' h
    cases h
  | succ n ih =>
    intro s m signal m' h
    exact comes_notes ih (comes_of_perform (exec_eq_ok.mp h).2)

/-! ### Programs without errors -/

/-- Jumps go to the innermost loop around them, and nowhere else. -/
structure JumpsStay (engine : Engine σ) : Prop where
  /-- The statements outside of routines come to their end, unless they are interrupted. -/
  outside : ∀ n m signal m',
    statements (engine.level n) engine.program.statements m = .ok signal m' → signal = .next
  /-- The body of a routine comes to its end or returns, unless it is interrupted. -/
  routines : ∀ id n m signal m',
    block (engine.level n) (engine.program.routine id).body m = .ok signal m' →
      signal = .next ∨ ∃ v, signal = .returned v
  /-- No choice or block keeps the signal of a jump, and no loop lets it out. -/
  raised : ∀ jump n ss m m',
    statements (engine.level n) ss m = .ok jump.signal m' ↔ engine.Raises jump n ss m m'
  /-- Every loop sets out and takes turns. -/
  loops : ∀ n s m, s.loopBody?.isSome →
    (engine.level (n + 1)).exec s m = (do
      heedHost s.span
      takeTurns (engine.level n) n (← engine.setOut (engine.level n) s)) m
  bodies : ∀ n s c m m',
    engine.setOut (engine.level n) s m = .ok (some c) m' → s.loopBody? = some c.body
  /-- A `Break` that comes out of the body ends the loop. -/
  broken : ∀ n (c : Cycle σ) turns number m m₁ m₂, c.ready number m = .ok true m₁ →
    engine.Raises .breakLoop n c.body.statements m₁ m₂ →
      c.run (engine.level n) (turns + 1) number m = .ok .next m₂
  /-- A `Continue` that comes out of the body goes on to the next step or test of the loop. -/
  continued : ∀ n (c : Cycle σ) turns number m m₁ m₂, c.ready number m = .ok true m₁ →
    engine.Raises .continueLoop n c.body.statements m₁ m₂ →
      c.run (engine.level n) (turns + 1) number m = c.goOn (engine.level n) turns number m₂

theorem not_jump_of_enclosed {p : Program} (hp : p.Enclosed) (id : RoutineId) :
    .jump ∉ Stmt.blockNotes (p.routine id).body := by
  rcases Nat.lt_or_ge id p.routines.size with hlt | hge
  · exact hp.bodies id hlt
  · have hdefault : p.routine id = default := by simp [Program.routine, hge]
    rw [hdefault]
    exact List.not_mem_nil

theorem jumpsStay_of_enclosed (hp : engine.program.Enclosed) : engine.JumpsStay where
  outside := by
    intro n m signal m' h
    have hnotes := statements_notes (noted_level n) h
    cases signal with
    | next => rfl
    | continueLoop | breakLoop => exact absurd (hnotes _ rfl) hp.statements.1
    | returned v => exact absurd (hnotes _ rfl) hp.statements.2
  routines := by
    intro id n m signal m' h
    have hnotes := block_notes (noted_level n) h
    cases signal with
    | next => exact Or.inl rfl
    | continueLoop | breakLoop => exact absurd (hnotes _ rfl) (not_jump_of_enclosed hp id)
    | returned v => exact Or.inr ⟨v, rfl⟩
  raised := fun jump n ss m m' => raises_iff.symm
  loops := by
    intro n s m hs
    show (heedHost s.span >>= fun _ => engine.perform (engine.level n) n s) m = _
    rw [perform_loop engine (engine.level n) hs]
  bodies := fun n s c m m' h => body_of_setOut engine (engine.level n) h
  broken := by
    intro n c turns number m m₁ m₂ hready hraises
    have hbody : block (engine.level n) c.body m₁ = .ok .breakLoop m₂ := raises_iff.mp hraises
    rw [Cycle.run_succ, bind_of_ok hready, if_pos rfl, bind_of_ok hbody]
    rfl
  continued := by
    intro n c turns number m m₁ m₂ hready hraises
    have hbody : block (engine.level n) c.body m₁ = .ok .continueLoop m₂ := raises_iff.mp hraises
    rw [Cycle.run_succ, bind_of_ok hready, if_pos rfl, bind_of_ok hbody]

/-- **In a program without errors, jumps stay in their loops.**  Nothing but the end of the
statements is left where the program ends, and nothing but the end or a `Return` where a routine
does. -/
theorem jumps_stay (source : String)
    (hsource : ∀ d ∈ (Program.ofSource source).2, d.isError = false) (settings : Settings)
    (host : Host σ) : JumpsStay ⟨(Program.ofSource source).1, settings, host⟩ :=
  jumpsStay_of_enclosed (Program.enclosed_ofSource hsource)

/-- A loop in a loop, and jumps in an `If` and in a `Select` inside of both. -/
def gridSource : String :=
  "Declare Integer i
Declare Integer j
For i = 1 To 3
    For j = 1 To 3
        If j == 2 Then
            Continue
        End If
        Select i
            Case 2:
                Break
        End Select
        Display i, j
    End For
End For
"

/-- Both jumps are for the loop inside, and the one outside goes on. -/
theorem jumps_stay_grid :
    (∀ d ∈ (Program.ofSource gridSource).2, d.isError = false) ∧
    JumpsStay ⟨(Program.ofSource gridSource).1, {}, Buffer.host []⟩ ∧
    (session ⟨(Program.ofSource gridSource).1, {}, Buffer.host []⟩ ⟨{}, false⟩
      [.program 12]).2.outside.state.output = #["11", "13", "31", "33"] := by
  have hrun : (∀ d ∈ (Program.ofSource gridSource).2, d.isError = false) ∧
      (session ⟨(Program.ofSource gridSource).1, {}, Buffer.host []⟩ ⟨{}, false⟩
        [.program 12]).2.outside.state.output = #["11", "13", "31", "33"] := by
    decide +kernel
  exact ⟨hrun.1, jumps_stay gridSource hrun.1 _ _, hrun.2⟩

end Engine

end Primer
