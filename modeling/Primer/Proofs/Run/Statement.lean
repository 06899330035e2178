/-
Expressions and statements obey a contract.

One lemma for each function that runs a part of a program, each following the definition.
Together they say that what runs one level of a program obeys a contract when what runs the level
below it does.
-/
import Primer.Machine.Statement
import Primer.Proofs.Run.Call

namespace Primer

/-- The statement has given the variables that it declares their first values. -/
def Contract.Declares {engine : Engine σ} (K : Contract engine) (g : Stage) (s : Stmt) :
    Signal → Machine σ → Prop :=
  fun _ m => ∀ x ∈ s.declared, K.Declared g m x

namespace Engine

variable {engine : Engine σ} {inner : Inner σ} {K : Contract engine} {g : Stage} {m : Machine σ}

/-! ### Expressions -/

section Expressions

variable (hp : engine.program.Sound) (hinner : inner.Answers K) (ready : g.Ready engine.program)
  (h : K.Here g m) {e : Expr}

include hinner ready h

theorem logical_obeys {op : LogicalOp} {left right : Expr}
    (hleft : g.Knows engine.program left.notes) (hright : g.Knows engine.program right.notes) :
    Obeys K g m (logical inner op left right) Anything := by
  refine (test_obeys hinner ready h hleft).bind fun first m' hstep _ => ?_
  split
  · exact .pure hstep.here trivial
  · exact .pure hstep.here trivial
  · exact test_obeys hinner ready hstep.here hright

include hp

theorem valueAt_obeys (he : g.Knows engine.program e.notes) :
    Obeys K g m (engine.valueAt inner e) Anything := by
  refine (place_obeys hp hinner ready h e he).bind fun found m' hstep hfound => ?_
  split
  · rename_i place kind
    obtain ⟨hsolid, hpresent, -⟩ := hfound place kind rfl
    exact .load hstep.here hsolid hpresent
  · exact .pure hstep.here trivial

theorem evaluate_obeys (he : g.Knows engine.program e.notes) :
    Obeys K g m (engine.evaluate inner e) Anything := by
  have horElse : ∀ {α} {fallback : α} {span : Span} {r : Except ValueError α} {m' : Machine σ},
      K.Here g m' → Obeys K g m' (Run.orElse fallback span r) Anything :=
    fun h' => .orElse h' (fun _ _ _ => trivial) fun _ => trivial
  cases e with
  | literal v span => exact .pure h trivial
  | variableRef id name span => exact valueAt_obeys hp hinner ready h he
  | index base indices span => exact valueAt_obeys hp hinner ready h he
  | field object name span => exact valueAt_obeys hp hinner ready h he
  | binary op left right span =>
    simp only [Expr.notes, Stage.knows_append] at he
    refine (hinner.eval ready h he.1).bind fun a m' hstep _ => ?_
    exact (hinner.eval ready hstep.here he.2).bind fun b m'' hstep' _ => horElse hstep'.here
  | logical op left right span =>
    simp only [Expr.notes, Stage.knows_append] at he
    exact (logical_obeys hinner ready h he.1 he.2).bind fun _ _ hstep _ => .pure hstep.here trivial
  | unary op operand span =>
    exact (hinner.eval (e := operand) ready h he).bind fun v m' hstep _ => horElse hstep.here
  | call name args span =>
    simp only [Expr.notes] at he
    exact callByName_obeys hp hinner ready h he.tail.all
  | methodCall object name args span =>
    simp only [Expr.notes, Stage.knows_append] at he
    exact callMethod_obeys hp hinner ready h he.1 he.2.all
  | new className args span =>
    simp only [Expr.notes] at he
    exact construct_obeys hp hinner ready h he.tail.all
  | grouping e span => exact hinner.eval (e := e) ready h he
  | invalid span => exact .pure h trivial

end Expressions

/-! ### Loops -/

section Loops

variable (hp : engine.program.Sound) (hinner : inner.Honours K) (ready : g.Ready engine.program)
  (h : K.Here g m) (hhome : g.home.HoldsStatements) {body : Block Stmt} {span : Span} {turns : Nat}
  {condition : Expr} {c : Count} {step : Value} {kind : Kind}

include hinner ready h hhome

theorem bodyOnce_obeys (hbody : g.Knows engine.program (Stmt.blockNotes body))
    (hfits : Stmt.EveryBlock (K.Fits g.home.routine?) body) :
    Obeys K g m (bodyOnce inner body span) Anything := by
  have hheed : ∀ m', K.Here g m' → Obeys K g m'
      (Run.heedHost span >>= fun _ => pure (none : Option Signal)) Anything :=
    fun m' h' => (Obeys.heedHost h').bind fun _ _ hstep _ => .pure hstep.here trivial
  refine (block_obeys hinner ready h hhome hbody hfits).bind fun signal m' hstep _ => ?_
  split
  · exact hheed m' hstep.here
  · exact hheed m' hstep.here
  · exact .pure hstep.here trivial
  · exact .pure hstep.here trivial

theorem whileLoop_obeys (hcondition : g.Knows engine.program condition.notes)
    (hbody : g.Knows engine.program (Stmt.blockNotes body))
    (hfits : Stmt.EveryBlock (K.Fits g.home.routine?) body) :
    Obeys K g m (whileLoop inner turns condition body) Anything := by
  refine .loop h (fun _ m' hstep => ?_) turns ()
  refine (test_obeys hinner.toAnswers ready hstep.here hcondition).bind fun holds _ hstep _ => ?_
  split
  · refine (bodyOnce_obeys hinner ready hstep.here hhome hbody hfits).bind fun ending _ hstep _ => ?_
    split <;> exact .pure hstep.here trivial
  · exact .pure hstep.here trivial

theorem doLoop_obeys {exit : Bool} (hbody : g.Knows engine.program (Stmt.blockNotes body))
    (hcondition : g.Knows engine.program condition.notes)
    (hfits : Stmt.EveryBlock (K.Fits g.home.routine?) body) :
    Obeys K g m (doLoop inner turns body condition exit) Anything := by
  refine .loop h (fun _ m' hstep => ?_) turns ()
  refine (bodyOnce_obeys hinner ready hstep.here hhome hbody hfits).bind fun ending _ hstep _ => ?_
  split
  · exact .pure hstep.here trivial
  · refine (test_obeys hinner.toAnswers ready hstep.here hcondition).bind
      fun outcome _ hstep _ => ?_
    split <;> exact .pure hstep.here trivial

omit hinner hhome in
theorem advance_obeys (htarget : K.Target g m c.place c.kind) :
    Obeys K g m (c.advance span) Anything := by
  refine (Obeys.load h htarget.solid htarget.present).bind fun current m₁ hstep₁ _ => ?_
  split
  · refine (Obeys.coerce hstep₁.here).bind fun next m₂ hstep₂ hnext => ?_
    split
    · exact .look_bind (.report_bind hstep₂.here rfl fun _ hstep₃ => .pure hstep₃.here trivial)
    · exact (Obeys.store ready hstep₂.here (htarget.later (hstep₁.trans hstep₂).leads) hnext).bind
        fun _ _ hstep₃ _ => .pure hstep₃.here trivial
  · rename_i e _
    exact .report_bind hstep₁.here (Obeys.isFatal_value e) fun _ hstep => .pure hstep.here trivial

theorem forTurn_obeys (htarget : K.Target g m c.place c.kind)
    (hbody : g.Knows engine.program (Stmt.blockNotes body))
    (hfits : Stmt.EveryBlock (K.Fits g.home.routine?) body) :
    Obeys K g m (forTurn inner c body span) Anything := by
  refine (Obeys.load h htarget.solid htarget.present).bind fun current m₁ hstep₁ _ => ?_
  refine Obeys.bind (Q := Anything) (.orElse hstep₁.here (fun _ _ _ => trivial) fun _ => trivial)
    fun finished m₂ hstep₂ _ => ?_
  split
  · exact .pure hstep₂.here trivial
  · refine (bodyOnce_obeys hinner ready hstep₂.here hhome hbody hfits).bind
      fun ending m₃ hstep₃ _ => ?_
    split
    · exact .pure hstep₃.here trivial
    · have hlater := ((hstep₁.trans hstep₂).trans hstep₃).leads
      refine (advance_obeys ready hstep₃.here (htarget.later hlater)).bind fun again _ hstep₄ _ => ?_
      split <;> exact .pure hstep₄.here trivial

omit hinner ready hhome in
theorem direction_obeys :
    Obeys K g m (direction? step span) Anything := by
  unfold direction?
  split
  · exact .pure h trivial
  · exact .pure h trivial
  · exact .report_bind h rfl fun _ hstep => .pure hstep.here trivial
  · rename_i e _
    exact .report_bind h (Obeys.isFatal_value e) fun _ hstep => .pure hstep.here trivial

omit hinner ready hhome in
theorem stepFits_obeys :
    Obeys K g m (stepFits kind step span) Anything := by
  unfold stepFits
  split
  · split
    · exact .report_bind h rfl fun _ hstep => .pure hstep.here trivial
    · exact .pure h trivial
  · exact .pure h trivial

theorem eachTurn_obeys {ref : ArrayRef} {place : Place} {position : Nat}
    (htarget : K.Target g m place kind) (hbody : g.Knows engine.program (Stmt.blockNotes body))
    (hfits : Stmt.EveryBlock (K.Fits g.home.routine?) body) :
    Obeys K g m (eachTurn inner ref place kind body span position) Anything := by
  refine .look_bind ?_
  split
  · exact .pure h trivial
  · refine (Obeys.coerce h).bind fun v m' hstep hv => ?_
    refine (Obeys.store ready hstep.here (htarget.later hstep.leads) hv).bind
      fun _ m'' hstep' _ => ?_
    refine (bodyOnce_obeys hinner ready hstep'.here hhome hbody hfits).bind
      fun ending _ hstep'' _ => ?_
    split <;> exact .pure hstep''.here trivial

include hp

theorem forLoop_obeys {counter start stop : Expr} {step : Option Expr}
    (hcounter : g.Knows engine.program counter.notes) (hstart : g.Knows engine.program start.notes)
    (hstop : g.Knows engine.program stop.notes) (hstep : g.Knows engine.program (Expr.notesOf step))
    (hbody : g.Knows engine.program (Stmt.blockNotes body))
    (hassigns : ∀ m' x, counter.named? = some x → K.Assigns g m' x)
    (hfits : Stmt.EveryBlock (K.Fits g.home.routine?) body) :
    Obeys K g m (engine.forLoop inner turns counter start stop step body span) Anything := by
  unfold forLoop
  refine (hinner.eval ready h hstart).bind fun first m₁ hstep₁ _ => ?_
  refine (hinner.eval ready hstep₁.here hstop).bind fun last m₂ hstep₂ _ => ?_
  extract_lets count
  have hcount : ∀ step m', K.Here g m' → Obeys K g m' (count step) Anything := by
    intro step m' h'
    refine (place_obeys hp hinner.toAnswers ready h' counter hcounter).bind
      fun found m₃ hstep₃ hfound => ?_
    split
    · exact .pure hstep₃.here trivial
    · rename_i place kind
      refine (direction_obeys hstep₃.here).bind fun direction m₄ hstep₄ _ => ?_
      split
      · exact .pure hstep₄.here trivial
      · refine (stepFits_obeys hstep₄.here).bind fun fits m₅ hstep₅ _ => ?_
        split
        · refine (Obeys.coerce hstep₅.here).bind fun v m₆ hstep₆ hv => ?_
          have hlater := ((hstep₄.trans hstep₅).trans hstep₆).leads
          have htarget := (hfound.target (hassigns _)).later hlater
          refine (Obeys.store ready hstep₆.here htarget hv).bind fun _ m₇ hstep₇ _ => ?_
          have htarget := htarget.later hstep₇.leads
          exact .loop hstep₇.here (fun _ m₈ hstep₈ => forTurn_obeys hinner ready hstep₈.here hhome
            (htarget.later hstep₈.leads) hbody hfits) turns ()
        · exact .pure hstep₅.here trivial
  split
  · rename_i e
    exact (hinner.eval (e := e) ready hstep₂.here hstep).bind fun step m₃ hstep₃ _ =>
      hcount step m₃ hstep₃.here
  · exact hcount _ m₂ hstep₂.here

theorem forEach_obeys {item array : Expr} (hitem : g.Knows engine.program item.notes)
    (harray : g.Knows engine.program array.notes)
    (hbody : g.Knows engine.program (Stmt.blockNotes body))
    (hassigns : ∀ m' x, item.named? = some x → K.Assigns g m' x)
    (hfits : Stmt.EveryBlock (K.Fits g.home.routine?) body) :
    Obeys K g m (engine.forEach inner turns item array body span) Anything := by
  unfold forEach
  split
  · exact .pure h trivial
  · refine (hinner.eval ready h harray).bind fun v m₁ hstep₁ _ => ?_
    split
    · refine (place_obeys hp hinner.toAnswers ready hstep₁.here item hitem).bind
        fun found m₂ hstep₂ hfound => ?_
      split
      · exact .pure hstep₂.here trivial
      · rename_i place kind
        have htarget := hfound.target (hassigns _)
        exact .loop hstep₂.here (fun _ m₃ hstep₃ => eachTurn_obeys hinner ready hstep₃.here hhome
          (htarget.later hstep₃.leads) hbody hfits) turns 0
    · exact .report_bind hstep₁.here rfl fun _ hstep => .pure hstep.here trivial

end Loops

/-! ### Statements -/

section Statements

variable (hp : engine.program.Sound) (hinner : inner.Answers K) (ready : g.Ready engine.program)
  (h : K.Here g m) {span : Span} {target : Expr} {turns : Nat} {declarations : List Declaration}

include hinner ready h

theorem display_obeys {items : List Expr} (hitems : ∀ e ∈ items, g.Knows engine.program e.notes) :
    Obeys K g m (engine.display inner items) Anything := by
  refine (Obeys.mapM h fun e he m' hstep => ?_).bind fun texts m' hstep _ => ?_
  · exact (hinner.eval ready hstep.here (hitems e he)).bind fun _ _ hstep' _ =>
      .look hstep'.here trivial
  · exact .act hstep.here (.writeLine m' _)

include hp

theorem assign_obeys {value : Expr} (htarget : g.Knows engine.program target.notes)
    (hvalue : g.Knows engine.program value.notes)
    (hassigns : ∀ m' x, target.named? = some x → K.Assigns g m' x) :
    Obeys K g m (engine.assign inner target value span) Anything := by
  refine (hinner.eval ready h hvalue).bind fun v m₁ hstep₁ _ => ?_
  refine (place_obeys hp hinner ready hstep₁.here target htarget).bind
    fun found m₂ hstep₂ hfound => ?_
  split
  · rename_i place kind
    have htarget := hfound.target (hassigns _)
    exact (Obeys.coerce hstep₂.here).bind fun _ _ hstep₃ hw =>
      .store ready hstep₃.here (htarget.later hstep₃.leads) hw
  · exact .pure hstep₂.here trivial

theorem input_obeys (htarget : g.Knows engine.program target.notes)
    (hassigns : ∀ m' x, target.named? = some x → K.Assigns g m' x) :
    Obeys K g m (engine.input inner target span) Anything := by
  refine (place_obeys hp hinner ready h target htarget).bind fun found m₁ hstep₁ hfound => ?_
  split
  · exact .pure hstep₁.here trivial
  · rename_i place kind
    refine Obeys.bind (Q := Anything) (.actGet hstep₁.here (.readLine m₁) trivial)
      fun line m₂ hstep₂ _ => ?_
    have htarget := (hfound.target (hassigns _)).later hstep₂.leads
    split
    · exact (Obeys.coerce hstep₂.here).bind fun _ _ hstep₃ hw =>
        .store ready hstep₃.here (htarget.later hstep₃.leads) hw
    · exact .report_bind hstep₂.here rfl fun _ hstep₃ =>
        .store ready hstep₃.here (htarget.later hstep₃.leads) (Value.suits_zeroOf kind)

/-- All variables of a declaration get their first values. -/
theorem declaration_obeys (hs : g.Knows engine.program (Stmt.declare declarations span).notes)
    (hdeclared : ∀ x ∈ (Stmt.declare declarations span).declared, K.Assigns g m x) :
    Obeys K g m (engine.perform inner turns (.declare declarations span))
      (K.Declares g (.declare declarations span)) := by
  have hall : Obeys K g m (declarations.forM (engine.declare inner))
      fun _ m' => ∀ d ∈ declarations, K.Declared g m' d.id := by
    refine .forM_all h (fun d hd m' hstep => declare_obeys hp hinner ready hstep.here ?_
      (K.assigns (hdeclared d.id (List.mem_map_of_mem hd)) hstep.leads)) fun _ _ _ => K.declared
    simp only [Stmt.notes] at hs
    exact hs.declaration d hd
  refine hall.bind fun _ m' hstep hdone => .pure hstep.here fun x hx => ?_
  obtain ⟨d, hd, rfl⟩ := List.mem_map.mp hx
  exact hdone d hd

theorem executeDeclaration_obeys
    (hs : g.Knows engine.program (Stmt.declare declarations span).notes)
    (hdeclared : ∀ x ∈ (Stmt.declare declarations span).declared, K.Assigns g m x) :
    Obeys K g m (engine.execute inner turns (.declare declarations span))
      (K.Declares g (.declare declarations span)) := by
  refine (Obeys.heedHost h).bind fun _ m' hstep hheeded => ?_
  obtain ⟨rfl, -⟩ := hheeded
  exact declaration_obeys hp hinner ready h hs hdeclared

omit hp

theorem anyLabel_obeys {subject : Value} {labels : List Expr}
    (hlabels : ∀ e ∈ labels, g.Knows engine.program e.notes) :
    Obeys K g m (anyLabel inner subject labels) Anything := by
  induction labels generalizing m with
  | nil => exact .pure h trivial
  | cons label rest ih =>
    refine (hinner.eval ready h (hlabels label (by simp))).bind fun v m' hstep _ => ?_
    refine Obeys.bind (Q := Anything) (.orElse hstep.here (fun _ _ _ => trivial) fun _ => trivial)
      fun equal m'' hstep' _ => ?_
    split
    · exact .pure hstep'.here trivial
    · exact ih hstep'.here fun e he => hlabels e (by simp [he])

end Statements

section Nested

variable (hp : engine.program.Sound) (hinner : inner.Honours K) (ready : g.Ready engine.program)
  (h : K.Here g m) (hhome : g.home.HoldsStatements) {otherwise : Option (Block Stmt)} {turns : Nat}
  {s : Stmt}

include hinner ready h hhome

theorem optionalBlock_obeys {b : Option (Block Stmt)}
    (hb : g.Knows engine.program (Stmt.optionNotes b))
    (hfits : Stmt.EveryOption (K.Fits g.home.routine?) b) :
    Obeys K g m (optionalBlock inner b) Anything := by
  cases b with
  | none => exact .pure h trivial
  | some b =>
    simp only [Stmt.optionNotes] at hb
    simp only [Stmt.EveryOption] at hfits
    exact block_obeys hinner ready h hhome hb hfits

theorem choose_obeys {branches : List (Branch Stmt)}
    (hbranches : g.Knows engine.program (Stmt.branchNotes branches))
    (hotherwise : g.Knows engine.program (Stmt.optionNotes otherwise))
    (hfits : Stmt.EveryBranch (K.Fits g.home.routine?) branches)
    (hfits' : Stmt.EveryOption (K.Fits g.home.routine?) otherwise) :
    Obeys K g m (choose inner otherwise branches) Anything := by
  induction branches generalizing m with
  | nil => exact optionalBlock_obeys hinner ready h hhome hotherwise hfits'
  | cons branch rest ih =>
    simp only [Stmt.branchNotes, Stage.knows_append] at hbranches
    simp only [Stmt.EveryBranch] at hfits
    refine (test_obeys hinner.toAnswers ready h hbranches.1.1).bind fun holds m' hstep _ => ?_
    split
    · exact block_obeys hinner ready hstep.here hhome hbranches.1.2 hfits.1
    · exact ih hstep.here hbranches.2 hfits.2

theorem select_obeys {subject : Value} {cases : List (Case Stmt)}
    (hcases : g.Knows engine.program (Stmt.caseNotes cases))
    (hotherwise : g.Knows engine.program (Stmt.optionNotes otherwise))
    (hfits : Stmt.EveryCase (K.Fits g.home.routine?) cases)
    (hfits' : Stmt.EveryOption (K.Fits g.home.routine?) otherwise) :
    Obeys K g m (select inner subject otherwise cases) Anything := by
  induction cases generalizing m with
  | nil => exact optionalBlock_obeys hinner ready h hhome hotherwise hfits'
  | cons c rest ih =>
    simp only [Stmt.caseNotes, Stage.knows_append] at hcases
    simp only [Stmt.EveryCase] at hfits
    refine (anyLabel_obeys hinner.toAnswers ready h hcases.1.1.all).bind fun found m' hstep _ => ?_
    split
    · exact block_obeys hinner ready hstep.here hhome hcases.1.2 hfits.1
    · exact ih hstep.here hcases.2 hfits.2

include hp

/-- What a statement does obeys a contract that lets it declare what it declares, and stop. -/
theorem perform_obeys (hs : g.Knows engine.program s.notes)
    (hfits : s.Every (K.Fits g.home.routine?)) (hdeclared : ∀ x ∈ s.declared, K.Assigns g m x)
    (hstop : ∀ span, s = .stop span → K.Fails g .stopped m m) :
    Obeys K g m (engine.perform inner turns s) (K.Declares g s) := by
  have hnext : ∀ {x : Run σ Unit}, Obeys K g m x Anything →
      Obeys K g m (x >>= fun _ => pure Signal.next) Anything :=
    fun hx => hx.bind fun _ _ hstep _ => .pure hstep.here trivial
  have hother : ∀ {x : Run σ Signal}, s.declared = [] → Obeys K g m x Anything →
      Obeys K g m x (K.Declares g s) := by
    intro x hnone hx
    refine hx.mono fun _ _ _ _ y hy => ?_
    rw [hnone] at hy
    cases hy
  have htargets : ∀ m' x, x ∈ s.targets → K.Assigns g m' x := fun _ x hx => K.target hfits.self hx
  have hanswers := hinner.toAnswers
  cases s with
  | declare declarations span => exact declaration_obeys hp hanswers ready h hs hdeclared
  | assign target value span =>
    simp only [Stmt.notes, Stage.knows_append] at hs
    exact hother rfl (hnext (assign_obeys hp hanswers ready h hs.1.1 hs.2
      fun m' x hx => htargets m' x (Option.mem_toList.mpr hx)))
  | display items span =>
    simp only [Stmt.notes] at hs
    exact hother rfl (hnext (display_obeys hanswers ready h hs.all))
  | input target span =>
    simp only [Stmt.notes, Stage.knows_append] at hs
    exact hother rfl (hnext (input_obeys hp hanswers ready h hs.1
      fun m' x hx => htargets m' x (Option.mem_toList.mpr hx)))
  | call e span =>
    simp only [Stmt.notes] at hs
    exact hother rfl (hnext (hinner.eval ready h hs).discard)
  | choose branches otherwise span =>
    simp only [Stmt.notes, Stage.knows_append] at hs
    simp only [Stmt.Every] at hfits
    exact hother rfl (choose_obeys hinner ready h hhome hs.1 hs.2 hfits.2.1 hfits.2.2)
  | select subject cases otherwise span =>
    simp only [Stmt.notes, Stage.knows_append] at hs
    simp only [Stmt.Every] at hfits
    exact hother rfl ((hinner.eval ready h hs.1.1).bind fun _ _ hstep _ =>
      select_obeys hinner ready hstep.here hhome hs.1.2 hs.2 hfits.2.1 hfits.2.2)
  | whileLoop condition body span =>
    simp only [Stmt.notes, Stage.knows_append, Stage.knows_inLoop] at hs
    simp only [Stmt.Every] at hfits
    exact hother rfl (whileLoop_obeys hinner ready h hhome hs.1 hs.2 hfits.2)
  | doLoop body condition exit span =>
    simp only [Stmt.notes, Stage.knows_append, Stage.knows_inLoop] at hs
    simp only [Stmt.Every] at hfits
    exact hother rfl (doLoop_obeys hinner ready h hhome hs.1 hs.2 hfits.2)
  | forLoop counter start stop step body span =>
    simp only [Stmt.notes, Stage.knows_append, Stage.knows_inLoop] at hs
    simp only [Stmt.Every] at hfits
    obtain ⟨⟨⟨⟨⟨hcounter, -⟩, hstart⟩, hlast⟩, hstep⟩, hbody⟩ := hs
    exact hother rfl (forLoop_obeys hp hinner ready h hhome hcounter hstart hlast hstep hbody
      (fun m' x hx => htargets m' x (Option.mem_toList.mpr hx)) hfits.2)
  | forEach item array body span =>
    simp only [Stmt.notes, Stage.knows_append, Stage.knows_inLoop] at hs
    simp only [Stmt.Every] at hfits
    exact hother rfl (forEach_obeys hp hinner ready h hhome hs.1.1.1 hs.1.2 hs.2
      (fun m' x hx => htargets m' x (Option.mem_toList.mpr hx)) hfits.2)
  | returnWith value span =>
    simp only [Stmt.notes] at hs
    cases value with
    | none => exact hother rfl (.pure h trivial)
    | some e =>
      exact hother rfl ((hinner.eval (e := e) ready h hs.tail).bind fun _ _ hstep _ =>
        .pure hstep.here trivial)
  | breakLoop span => exact hother rfl (.pure h trivial)
  | continueLoop span => exact hother rfl (.pure h trivial)
  | stop span => exact .of_error rfl ⟨.refl h.stays, hstop span rfl⟩

theorem execute_obeys (hs : g.Knows engine.program s.notes)
    (hfits : s.Every (K.Fits g.home.routine?)) (hdeclared : ∀ x ∈ s.declared, K.Assigns g m x)
    (hstop : ∀ span, s = .stop span → m.outside.stop = false → K.Fails g .stopped m m) :
    Obeys K g m (engine.execute inner turns s) (K.Declares g s) := by
  refine (Obeys.heedHost h).bind fun _ m' hstep hheeded => ?_
  obtain ⟨rfl, hflag⟩ := hheeded
  exact perform_obeys hp hinner ready h hhome hs hfits hdeclared fun span heq => hstop span heq hflag

end Nested

end Engine

end Primer
