/-
How often an argument is evaluated.

To bind the arguments of a call, expressions are evaluated and problems are told, and nothing else is
done.  A script says which expressions these are and which problems, in order.  The script of an
argument by value is one evaluation and at most one problem, that of its conversion.  The script of an
argument by reference is the one of its place: the array and the indices, or the object, each evaluated
once.

One case is different.  An argument by reference that is written like a place may turn out to name none,
because there is no such field or because the array has no elements.  It is then evaluated again, as a
value, after the problem has been told, and whatever its parts do is done twice.
-/
import Primer.Proofs.Run.Session

namespace Primer

/-! ### Deeds -/

/-- What is done to bind arguments: an expression is evaluated, or a problem is told. -/
inductive Deed where
  | evaluate (e : Expr)
  | tell (problem : Machine.Problem) (span : Span)

def Deed.evaluated? : Deed → Option Expr
  | evaluate e => some e
  | tell .. => none

/-- The expressions that are evaluated, in order. -/
def Deed.evaluated (deeds : List Deed) : List Expr := deeds.filterMap Deed.evaluated?

namespace Inner

variable {inner : Inner σ} {m m' m'' : Machine σ} {deeds more : List Deed}

/-- From `m` on these deeds are done, and they lead to `m'`. -/
inductive Does (inner : Inner σ) : List Deed → Machine σ → Machine σ → Prop
  | nothing (m : Machine σ) : Does inner [] m m
  | evaluate {e : Expr} {v : Value} {m m' m'' : Machine σ} {deeds : List Deed}
      (heval : inner.eval e m = .ok v m') (hrest : Does inner deeds m' m'') :
    Does inner (.evaluate e :: deeds) m m''
  | tell {problem : Machine.Problem} {span : Span} {m m' : Machine σ} {deeds : List Deed}
      (hrest : Does inner deeds (m.report problem span) m') :
    Does inner (.tell problem span :: deeds) m m'

/-- From `m` on these deeds are done, the last one is interrupted or the run is stopped after it. -/
inductive Quits (inner : Inner σ) (e : Interrupt) : List Deed → Machine σ → Machine σ → Prop
  | evaluating {x : Expr} {m m' : Machine σ} (heval : inner.eval x m = .error e m') :
    Quits inner e [.evaluate x] m m'
  | fatal {problem : Machine.Problem} (hfatal : problem.isFatal) (he : e = .stopped) (m : Machine σ)
      (span : Span) : Quits inner e [] m (m.report problem span)
  | after {done deeds : List Deed} {m m' m'' : Machine σ} (hdone : Does inner done m m')
      (hrest : Quits inner e deeds m' m'') : Quits inner e (done ++ deeds) m m''

theorem Does.append (h : inner.Does deeds m m') (hmore : inner.Does more m' m'') :
    inner.Does (deeds ++ more) m m'' := by
  induction h with
  | nothing m => exact hmore
  | evaluate heval _ ih => exact .evaluate heval (ih hmore)
  | tell _ ih => exact .tell (ih hmore)

/-- What `x` does from `m` on is what `P` says of its result, or the beginning of that. -/
def Acts (inner : Inner σ) (m : Machine σ) (x : Run σ α) (P : α → List Deed → Prop) : Prop :=
  match x m with
  | .ok a m' => ∃ deeds, inner.Does deeds m m' ∧ P a deeds
  | .error e m' => ∃ deeds rest a, inner.Quits e deeds m m' ∧ P a (deeds ++ rest)

namespace Acts

variable {α β : Type} {x : Run σ α} {f : α → Run σ β} {P : α → List Deed → Prop}
  {Q : β → List Deed → Prop}

theorem bind (hx : inner.Acts m x P)
    (hf : ∀ a deeds m', P a deeds → inner.Acts m' (f a) fun b more => Q b (deeds ++ more))
    (hgoes : ∀ a deeds, P a deeds → ∃ b more, Q b (deeds ++ more)) : inner.Acts m (x >>= f) Q := by
  unfold Acts at hx
  cases hres : x m with
  | ok a m' =>
    rw [hres] at hx
    obtain ⟨deeds, hdoes, hP⟩ := hx
    have hf := hf a deeds m' hP
    unfold Acts at hf ⊢
    rw [Run.bind_of_ok hres]
    cases hthen : f a m' with
    | ok b m'' =>
      rw [hthen] at hf
      obtain ⟨more, hmore, hQ⟩ := hf
      exact ⟨deeds ++ more, hdoes.append hmore, hQ⟩
    | error e m'' =>
      rw [hthen] at hf
      obtain ⟨more, rest, b, hquits, hQ⟩ := hf
      exact ⟨deeds ++ more, rest, b, .after hdoes hquits, by rwa [List.append_assoc]⟩
  | error e m' =>
    rw [hres] at hx
    obtain ⟨deeds, rest, a, hquits, hP⟩ := hx
    obtain ⟨b, more, hQ⟩ := hgoes a _ hP
    unfold Acts
    rw [Run.bind_of_error hres]
    exact ⟨deeds, rest ++ more, b, hquits, by rwa [← List.append_assoc]⟩

theorem pure {a : α} (h : P a []) : inner.Acts m (Pure.pure a) P := ⟨[], .nothing m, h⟩

/-- A result that is put into another form. -/
theorem map (hx : inner.Acts m x P) {g : α → β} (h : ∀ a deeds, P a deeds → Q (g a) deeds) :
    inner.Acts m (x >>= fun a => Pure.pure (g a)) Q := by
  refine hx.bind (fun a deeds _ hP => .pure ?_) fun a deeds hP => ⟨g a, [], ?_⟩
  all_goals
    rw [List.append_nil]
    exact h a deeds hP

theorem mono (hx : inner.Acts m x P) {P' : α → List Deed → Prop} (h : ∀ a deeds, P a deeds → P' a deeds) :
    inner.Acts m x P' := by
  unfold Acts at hx ⊢
  cases hres : x m with
  | ok a m' =>
    rw [hres] at hx
    obtain ⟨deeds, hdoes, hP⟩ := hx
    exact ⟨deeds, hdoes, h _ _ hP⟩
  | error e m' =>
    rw [hres] at hx
    obtain ⟨deeds, rest, a, hquits, hP⟩ := hx
    exact ⟨deeds, rest, a, hquits, h _ _ hP⟩

/-- What is only looked at is nothing done. -/
theorem look {g : Machine σ → α} (hf : ∀ a, inner.Acts m (f a) Q) : inner.Acts m (Run.look g >>= f) Q :=
  hf (g m)

theorem eval (e : Expr) : inner.Acts m (inner.eval e) fun _ deeds => deeds = [.evaluate e] := by
  unfold Acts
  cases hres : inner.eval e m with
  | ok v m' => exact ⟨_, .evaluate hres (.nothing m'), rfl⟩
  | error i m' => exact ⟨_, [], .null, .evaluating hres, rfl⟩

theorem report (problem : Machine.Problem) (span : Span) :
    inner.Acts m (Run.report problem span) fun _ deeds => deeds = [.tell problem span] :=
  ⟨_, .tell (.nothing _), rfl⟩

end Acts

end Inner

/-! ### Places -/

namespace Expr

/-- The expression inside of all the brackets around it. -/
def ungrouped : Expr → Expr
  | grouping e _ => e.ungrouped
  | e => e

/-- What is evaluated to find the place that an expression names. -/
def placeParts (e : Expr) : List Expr :=
  match e.ungrouped with
  | index base indices _ => base :: indices
  | field object _ _ => [object]
  | _ => []

end Expr

/-- It is told at most that a value has no such form. -/
def Deed.Convert (span : Span) (deeds : List Deed) : Prop :=
  deeds = [] ∨ ∃ error, deeds = [.tell (.value error) span]

/-- The expressions are evaluated in order, each of them once, and it is told which is no number. -/
inductive Deed.Measure : List Expr → List Deed → Prop
  | nil : Measure [] []
  | cons {e : Expr} {es : List Expr} {conversion deeds : List Deed} (hone : Convert e.span conversion)
      (hrest : Measure es deeds) : Measure (e :: es) (.evaluate e :: conversion ++ deeds)

/-- The parts of a place are evaluated in order, each of them once, and it is told which index is no
number and which is out of range. -/
inductive Deed.Locate (arg : Expr) : List Deed → Prop
  | intro {parts wrong : List Deed} (hparts : Measure arg.placeParts parts)
      (hwrong : ∀ deed ∈ wrong, ∃ problem, deed = .tell (.index problem) arg.ungrouped.span) :
    Locate arg (parts ++ wrong)

/-- Why what is written like a place names none. -/
inductive Machine.Problem.Nameless : Machine.Problem → Prop
  | notIndexable (found : Kind) : Nameless (.notIndexable found)
  | emptyArray : Nameless .emptyArray
  | noField (className name : String) : Nameless (.noField className name)
  | fieldOfNonObject (name : String) (found : Kind) : Nameless (.fieldOfNonObject name found)

/-- What is done to find the place that an expression names. -/
inductive Deed.Attempt (arg : Expr) : Option (Place × Kind) → List Deed → Prop
  | found {deeds : List Deed} (hplace : arg.ungrouped.isPlace) (hlocate : Locate arg deeds)
      (found : Place × Kind) : Attempt arg (some found) deeds
  | nameless {deeds : List Deed} {problem : Machine.Problem} (hplace : arg.ungrouped.isPlace)
      (hlocate : Locate arg deeds) (hproblem : problem.Nameless) :
    Attempt arg none (deeds ++ [.tell problem arg.ungrouped.span])
  | other (hother : arg.ungrouped.isPlace = false) : Attempt arg none []

namespace Deed

variable {arg : Expr} {deeds : List Deed}

theorem Measure.plain (es : List Expr) : Measure es (es.map Deed.evaluate) := by
  induction es with
  | nil => exact .nil
  | cons _ es ih => exact .cons (Or.inl rfl : Convert _ []) ih

/-- The parts are all there is to evaluate. -/
theorem Locate.parts (h : Measure arg.placeParts deeds) : Locate arg deeds := by
  have hlocate : Locate arg (deeds ++ []) := .intro h (List.forall_mem_nil _)
  rwa [List.append_nil] at hlocate

/-- A place that is found as soon as its parts have been evaluated. -/
theorem Attempt.parts (hplace : arg.ungrouped.isPlace) (h : Measure arg.placeParts deeds) (found : Place × Kind) :
    Attempt arg (some found) deeds :=
  .found hplace (.parts h) found

theorem Attempt.grouping {found : Option (Place × Kind)} (span : Span) (h : Attempt arg found deeds) :
    Attempt (.grouping arg span) found deeds := by
  have hlocate : ∀ {deeds}, Locate arg deeds → Locate (.grouping arg span) deeds :=
    fun ⟨hparts, hwrong⟩ => ⟨hparts, hwrong⟩
  cases h with
  | found hplace h found =>
    refine .found ?_ (hlocate h) found
    exact hplace
  | nameless hplace h hproblem =>
    refine .nameless ?_ (hlocate h) hproblem
    exact hplace
  | other hother =>
    refine .other ?_
    exact hother

theorem evaluated_append (deeds more : List Deed) :
    evaluated (deeds ++ more) = evaluated deeds ++ evaluated more :=
  List.filterMap_append

theorem Measure.evaluated {es : List Expr} (h : Measure es deeds) : Deed.evaluated deeds = es := by
  induction h with
  | nil => rfl
  | @cons e es conversion deeds hone _ ih =>
    have hcons : Deed.evaluated (.evaluate e :: conversion ++ deeds)
        = e :: Deed.evaluated (conversion ++ deeds) := rfl
    rw [hcons]
    rcases hone with rfl | ⟨error, rfl⟩
    · exact congrArg _ ih
    · exact congrArg _ ih

theorem Locate.evaluated (h : Locate arg deeds) : Deed.evaluated deeds = arg.placeParts := by
  obtain ⟨hparts, hwrong⟩ := h
  have hnone : ∀ {wrong : List Deed},
      (∀ deed ∈ wrong, ∃ problem, deed = .tell (.index problem) arg.ungrouped.span) →
        Deed.evaluated wrong = [] := by
    refine fun hwrong => List.filterMap_eq_nil_iff.mpr fun deed hdeed => ?_
    obtain ⟨problem, rfl⟩ := hwrong deed hdeed
    rfl
  rw [evaluated_append, hparts.evaluated, hnone hwrong, List.append_nil]

end Deed

namespace Engine

open Run

variable {engine : Engine σ} {inner : Inner σ} {m : Machine σ}

theorem orElse_acts {α : Type} (fallback : α) (span : Span) (result : Except ValueError α) :
    inner.Acts m (orElse fallback span result) fun _ => Deed.Convert span := by
  cases result with
  | ok a => exact .pure (Or.inl rfl)
  | error error => exact (Inner.Acts.report _ span).map fun _ _ hdeeds => Or.inr ⟨error, hdeeds⟩

/-- An index is evaluated once. -/
theorem index_acts (e : Expr) :
    inner.Acts m (index inner e) fun _ deeds =>
      ∃ conversion, Deed.Convert e.span conversion ∧ deeds = .evaluate e :: conversion := by
  refine (Inner.Acts.eval e).bind (fun v deeds _ hdeeds => ?_) fun v deeds hdeeds => ⟨0, [], [], Or.inl rfl, ?_⟩
  · subst hdeeds
    exact (orElse_acts 0 e.span v.toInteger).mono fun _ conversion h => ⟨conversion, h, rfl⟩
  · rw [hdeeds, List.append_nil]

/-- Every index is evaluated once. -/
theorem indices_acts (es : List Expr) (m : Machine σ) :
    inner.Acts m (es.mapM (index inner)) fun _ => Deed.Measure es := by
  induction es generalizing m with
  | nil => exact .pure .nil
  | cons e rest ih =>
    rw [List.mapM_cons]
    refine (index_acts e).bind ?_ ?_
    · rintro _ _ m' ⟨conversion, hconversion, rfl⟩
      exact (ih m').map fun _ more hmore => .cons hconversion hmore
    · rintro _ _ ⟨conversion, hconversion, rfl⟩
      exact ⟨[], _, .cons hconversion (.plain rest)⟩

theorem reports_acts {α : Type} (problem : α → Machine.Problem) (span : Span) (found : List α) (m : Machine σ) :
    inner.Acts m (found.forM fun a => report (problem a) span) fun _ deeds =>
      ∀ deed ∈ deeds, ∃ a, deed = .tell (problem a) span := by
  induction found generalizing m with
  | nil => exact .pure (List.forall_mem_nil _)
  | cons a rest ih =>
    refine (Inner.Acts.report _ span).bind ?_ ?_
    · rintro _ _ m' rfl
      exact (ih m').mono fun _ more hmore => List.forall_mem_cons.mpr ⟨⟨a, rfl⟩, hmore⟩
    · rintro _ _ rfl
      exact ⟨(), [], List.forall_mem_cons.mpr ⟨⟨a, rfl⟩, List.forall_mem_nil _⟩⟩

/-- It is told that there is no place. -/
theorem nameless_acts (problem : Machine.Problem) (span : Span) :
    inner.Acts m (do report problem span; pure (none : Option (Place × Kind))) fun found deeds =>
      found = none ∧ deeds = [.tell problem span] :=
  (Inner.Acts.report _ span).map fun _ _ hdeeds => ⟨rfl, hdeeds⟩

theorem element_acts (ref : ArrayRef) (indices : List Int64) (span : Span) :
    inner.Acts m (element ref indices span) fun found deeds =>
      (∃ place, found = some place ∧ ∀ deed ∈ deeds, ∃ wrong, deed = .tell (.index wrong) span) ∨
      found = none ∧ deeds = [.tell .emptyArray span] := by
  refine .look fun grid => ?_
  split
  · exact (nameless_acts _ span).mono fun _ _ h => Or.inr h
  · exact (reports_acts _ span _ m).map fun _ deeds hdeeds => Or.inl ⟨_, rfl, hdeeds⟩

theorem fieldOf_acts (ref : ObjectRef) (id : ClassId) (name : String) (span : Span) :
    inner.Acts m (engine.fieldOf ref id name span) fun found deeds =>
      (∃ place, found = some place ∧ deeds = []) ∨
      found = none ∧ ∃ className, deeds = [.tell (.noField className name) span] := by
  unfold fieldOf
  extract_lets classDef
  split
  · exact .pure (Or.inl ⟨_, rfl, rfl⟩)
  · exact (nameless_acts _ span).mono fun _ _ h => Or.inr ⟨h.1, _, h.2⟩

theorem placeOf_acts (v : Variable) (span : Span) :
    inner.Acts m (placeOf v span) fun _ deeds => deeds = [] := by
  unfold Inner.Acts
  cases hplace : m.placeOf v with
  | ok place =>
    rw [placeOf_ok hplace]
    exact ⟨[], .nothing m, rfl⟩
  | error problem =>
    have hfatal : problem.isFatal := by
      rcases Machine.placeOf_error_cases hplace with rfl | rfl <;> rfl
    rw [placeOf_error hplace]
    exact ⟨[], [], .slot 0, .fatal hfatal rfl m span, rfl⟩

/-- **Finding a place takes one evaluation of each of its parts.** -/
theorem place_acts (arg : Expr) (m : Machine σ) : inner.Acts m (engine.place inner arg) (Deed.Attempt arg) := by
  fun_induction engine.place inner arg with
  | case1 id name span v =>
    refine (placeOf_acts v span).map fun place deeds hdeeds => ?_
    have hparts : Deed.Measure (Expr.variableRef id name span).placeParts deeds := by
      rw [hdeeds]
      exact .nil
    exact .parts rfl hparts _
  | case2 base indices span =>
    have hbase : ∀ {parts}, Deed.Measure indices parts →
        Deed.Measure (Expr.index base indices span).placeParts (.evaluate base :: parts) :=
      fun hparts => .cons (Or.inl rfl : Deed.Convert _ []) hparts
    refine (Inner.Acts.eval base).bind ?_ ?_
    · rintro container _ m' rfl
      refine (indices_acts indices m').bind ?_ ?_
      · intro found parts m'' hparts
        cases container with
        | array ref =>
          refine (element_acts ref found span).mono ?_
          rintro _ more (⟨place, rfl, hmore⟩ | ⟨rfl, rfl⟩)
          · exact .found rfl (.intro (hbase hparts) hmore) place
          · exact .nameless rfl (.parts (hbase hparts)) .emptyArray
        | _ =>
          refine (nameless_acts _ span).mono ?_
          rintro _ more ⟨rfl, rfl⟩
          exact .nameless rfl (.parts (hbase hparts)) (.notIndexable _)
      · intro found parts hparts
        exact ⟨_, [], .parts rfl (by rw [List.append_nil]; exact hbase hparts) (.slot 0, .null)⟩
    · rintro container _ rfl
      exact ⟨_, _, .parts rfl (hbase (.plain indices)) (.slot 0, .null)⟩
  | case3 object name span =>
    have hobject : Deed.Measure (Expr.field object name span).placeParts [.evaluate object] :=
      .cons (Or.inl rfl : Deed.Convert _ []) .nil
    refine (Inner.Acts.eval object).bind ?_ ?_
    · rintro container _ m' rfl
      refine .look fun found => ?_
      split
      · refine (fieldOf_acts _ _ name span).mono ?_
        rintro _ more (⟨place, rfl, rfl⟩ | ⟨rfl, className, rfl⟩)
        · exact .parts rfl hobject place
        · exact .nameless rfl (.parts hobject) (.noField className name)
      · refine (nameless_acts _ span).mono ?_
        rintro _ more ⟨rfl, rfl⟩
        exact .nameless rfl (.parts hobject) (.fieldOfNonObject name _)
    · rintro container _ rfl
      exact ⟨_, [], .parts rfl hobject (.slot 0, .null)⟩
  | case4 e span ih => exact ih.mono fun _ _ h => h.grouping span
  | case5 e hvariable hindex hfield hgrouping =>
    refine .pure (.other ?_)
    cases e with
    | variableRef id name span => exact absurd rfl (hvariable id name span)
    | index base indices span => exact absurd rfl (hindex base indices span)
    | field object name span => exact absurd rfl (hfield object name span)
    | grouping e span => exact absurd rfl (hgrouping e span)
    | _ => rfl

/-! ### Arguments -/

/-- The notice that goes with an argument by reference that is not written like a place. -/
def notice (routine : Routine) (position : Nat) (v : Variable) (arg : Expr) : List Deed :=
  if v.storage = .refArgument ∧ arg.isPlace = false then
    [.tell (.passedByValue position routine.name) arg.span]
  else []

/-- What is done to bind an argument, and what the parameter is bound to. -/
inductive Script (routine : Routine) (position : Nat) (v : Variable) (arg : Expr) : Cell → List Deed → Prop
  /-- One evaluation. -/
  | value {conversion : List Deed} (hvalue : v.storage ≠ .refArgument ∨ arg.ungrouped.isPlace = false)
      (hconversion : Deed.Convert arg.span conversion) (a : Value) :
    Script routine position v arg (.direct a)
      (notice routine position v arg ++ .evaluate arg :: conversion)
  /-- One evaluation of each part of the place. -/
  | place {deeds : List Deed} (href : v.storage = .refArgument) (hplace : arg.ungrouped.isPlace)
      (hlocate : Deed.Locate arg deeds) (p : Place) : Script routine position v arg (.alias p) deeds
  /-- One evaluation of each part of what is written like a place and names none, and then an
  evaluation of the whole. -/
  | again {deeds conversion : List Deed} {problem : Machine.Problem} (href : v.storage = .refArgument)
      (hplace : arg.ungrouped.isPlace) (hlocate : Deed.Locate arg deeds) (hproblem : problem.Nameless)
      (hconversion : Deed.Convert arg.span conversion) (a : Value) :
    Script routine position v arg (.direct a)
      (deeds ++ [.tell problem arg.ungrouped.span] ++
        (notice routine position v arg ++ .evaluate arg :: conversion))

/-- What is done to bind the arguments from `position` on.  Nothing is done for a parameter without an
argument, and arguments without a parameter are evaluated once. -/
inductive Binding (engine : Engine σ) (routine : Routine) :
    Nat → List VarId → List Expr → List Cell → List Deed → Prop
  | surplus (position : Nat) (args : List Expr) :
    Binding engine routine position [] args [] (args.map Deed.evaluate)
  | missing {position : Nat} {param : VarId} {params : List VarId} {cells : List Cell} {deeds : List Deed}
      (a : Value) (hrest : Binding engine routine (position + 1) params [] cells deeds) :
    Binding engine routine position (param :: params) [] (.direct a :: cells) deeds
  | given {position : Nat} {param : VarId} {params : List VarId} {arg : Expr} {args : List Expr}
      {cell : Cell} {cells : List Cell} {script deeds : List Deed}
      (hscript : Script routine position (engine.program.symbols.variableAt param) arg cell script)
      (hrest : Binding engine routine (position + 1) params args cells deeds) :
    Binding engine routine position (param :: params) (arg :: args) (cell :: cells) (script ++ deeds)

theorem byValue_acts (kind : Kind) (arg : Expr) :
    inner.Acts m (byValue inner kind arg) fun cell deeds => ∃ a, cell = .direct a ∧
      ∃ conversion, Deed.Convert arg.span conversion ∧ deeds = .evaluate arg :: conversion := by
  refine (Inner.Acts.eval arg).bind ?_ ?_
  · rintro a _ m' rfl
    refine (orElse_acts _ arg.span (a.convert kind)).map fun b conversion hconversion => ?_
    exact ⟨b, rfl, conversion, hconversion, rfl⟩
  · rintro a _ rfl
    exact ⟨.direct a, [], a, rfl, [], Or.inl rfl, rfl⟩

/-- An argument by reference that names no place is evaluated as a value, if need be after a notice. -/
theorem noticed_acts {routine : Routine} {position : Nat} {v : Variable} {arg : Expr}
    (href : v.storage = .refArgument) :
    inner.Acts m (do
        if !arg.isPlace then report (.passedByValue position routine.name) arg.span
        byValue inner v.kind arg)
      fun cell deeds => ∃ a, cell = .direct a ∧ ∃ conversion, Deed.Convert arg.span conversion ∧
        deeds = notice routine position v arg ++ .evaluate arg :: conversion := by
  cases hplace : arg.isPlace with
  | true =>
    have hnotice : notice routine position v arg = [] := if_neg fun h => by rw [hplace] at h; exact nomatch h.2
    rw [hnotice]
    exact byValue_acts v.kind arg
  | false =>
    have hnotice : notice routine position v arg = [.tell (.passedByValue position routine.name) arg.span] :=
      if_pos ⟨href, hplace⟩
    rw [hnotice]
    refine (Inner.Acts.report _ arg.span).bind ?_ ?_
    · rintro _ _ m' rfl
      refine (byValue_acts v.kind arg).mono ?_
      rintro _ _ ⟨a, rfl, conversion, hconversion, rfl⟩
      exact ⟨a, rfl, conversion, hconversion, rfl⟩
    · rintro _ _ rfl
      exact ⟨.direct .null, [.evaluate arg], .null, rfl, [], Or.inl rfl, rfl⟩

/-- **An argument is evaluated once**, unless it is given by reference and is written like a place that
is not there. -/
theorem bindArgument_acts (routine : Routine) (position : Nat) (v : Variable) (arg : Expr) :
    inner.Acts m (engine.bindArgument inner routine position v (some arg))
      (Script routine position v arg) := by
  simp only [bindArgument]
  split
  · rename_i href
    refine (place_acts arg m).bind ?_ ?_
    · intro found deeds m' hattempt
      cases hattempt with
      | found hplace hlocate found =>
        refine .pure ?_
        rw [List.append_nil]
        exact .place href hplace hlocate found.1
      | nameless hplace hlocate hproblem =>
        refine (noticed_acts href).mono ?_
        rintro _ _ ⟨a, rfl, conversion, hconversion, rfl⟩
        exact .again href hplace hlocate hproblem hconversion a
      | other hother =>
        refine (noticed_acts href).mono ?_
        rintro _ _ ⟨a, rfl, conversion, hconversion, rfl⟩
        exact .value (Or.inr hother) hconversion a
    · intro found deeds hattempt
      cases hattempt with
      | found hplace hlocate found =>
        refine ⟨.alias found.1, [], ?_⟩
        rw [List.append_nil]
        exact .place href hplace hlocate found.1
      | nameless hplace hlocate hproblem =>
        exact ⟨_, _, .again href hplace hlocate hproblem (Or.inl rfl) .null⟩
      | other hother => exact ⟨_, _, .value (Or.inr hother) (Or.inl rfl) .null⟩
  · rename_i hvalue
    have hnotice : notice routine position v arg = [] := if_neg fun h => hvalue h.1
    refine (byValue_acts v.kind arg).mono ?_
    rintro _ _ ⟨a, rfl, conversion, hconversion, rfl⟩
    rw [← List.nil_append (_ :: _), ← hnotice]
    exact .value (Or.inl hvalue) hconversion a

theorem surplus_acts (args : List Expr) (m : Machine σ) :
    inner.Acts m (args.forM fun arg => discard (inner.eval arg)) fun _ deeds => deeds = args.map .evaluate := by
  induction args generalizing m with
  | nil => exact .pure rfl
  | cons arg rest ih =>
    have hone : inner.Acts m (discard (inner.eval arg)) fun _ deeds => deeds = [.evaluate arg] :=
      (Inner.Acts.eval arg).map fun _ _ hdeeds => hdeeds
    refine hone.bind ?_ ?_
    · rintro _ _ m' rfl
      refine (ih m').mono ?_
      rintro _ _ rfl
      rfl
    · rintro _ _ rfl
      exact ⟨(), _, rfl⟩

/-- Whatever the arguments are, they can be bound. -/
theorem exists_binding (engine : Engine σ) (routine : Routine) (position : Nat) (params : List VarId) (args : List Expr) :
    ∃ cells deeds, Binding engine routine position params args cells deeds := by
  induction params generalizing position args with
  | nil => exact ⟨_, _, .surplus position args⟩
  | cons param params ih =>
    cases args with
    | nil =>
      obtain ⟨cells, deeds, hrest⟩ := ih (position + 1) []
      exact ⟨_, _, .missing .null hrest⟩
    | cons arg args =>
      obtain ⟨cells, deeds, hrest⟩ := ih (position + 1) args
      obtain ⟨cell, script, hscript⟩ : ∃ cell script,
          Script routine position (engine.program.symbols.variableAt param) arg cell script := by
        by_cases href : (engine.program.symbols.variableAt param).storage = .refArgument
        · cases hplace : arg.ungrouped.isPlace with
          | true => exact ⟨_, _, .place href hplace (.parts (.plain _)) (.slot 0)⟩
          | false => exact ⟨_, _, .value (Or.inr hplace) (Or.inl rfl) .null⟩
        · exact ⟨_, _, .value (Or.inl href) (Or.inl rfl) .null⟩
      exact ⟨_, _, .given hscript hrest⟩

theorem bindFrom_acts (routine : Routine) (position : Nat) (params : List VarId) (args : List Expr)
    (m : Machine σ) :
    inner.Acts m (engine.bindFrom inner routine position params args)
      (Binding engine routine position params args) := by
  induction params generalizing position args m with
  | nil =>
    refine (surplus_acts args m).map ?_
    rintro _ _ rfl
    exact .surplus position args
  | cons param params ih =>
    cases args with
    | nil =>
      exact (ih (position + 1) [] m).map fun cells deeds hrest => .missing _ hrest
    | cons arg args =>
      refine (bindArgument_acts routine position _ arg).bind ?_ ?_
      · intro cell script m' hscript
        exact (ih (position + 1) args m').map fun cells deeds hrest => .given hscript hrest
      · intro cell script hscript
        obtain ⟨cells, deeds, hrest⟩ := exists_binding engine routine (position + 1) params args
        exact ⟨_, _, .given hscript hrest⟩

/-- What is told of a call before its arguments are bound. -/
def countNotice (routine : Routine) (given : Nat) (span : Span) : List Deed :=
  if given ≠ routine.params.length then
    [.tell (.argumentCount routine.name routine.params.length given) span]
  else []

/-- What is done before the routine is run. -/
def bindAll (engine : Engine σ) (inner : Inner σ) (routine : Routine) (args : List Expr) (span : Span) :
    Run σ (List Cell) := do
  if args.length ≠ routine.params.length then
    report (.argumentCount routine.name routine.params.length args.length) span
  engine.bindFrom inner routine 1 routine.params args

theorem invoke_eq (id : RoutineId) (this : Option ObjectRef) (args : List Expr) (span : Span) :
    engine.invoke inner id this args span =
      engine.bindAll inner (engine.program.routine id) args span >>= fun cells =>
        inner.run { routine := id, this, args := cells, span } := by
  unfold invoke bindAll
  extract_lets routine
  split
  · rw [bind_assoc]
  · rfl

theorem bindAll_acts (routine : Routine) (args : List Expr) (span : Span) :
    inner.Acts m (engine.bindAll inner routine args span) fun cells deeds =>
      ∃ script, Binding engine routine 1 routine.params args cells script ∧
        deeds = countNotice routine args.length span ++ script := by
  unfold bindAll countNotice
  split
  · refine (Inner.Acts.report _ span).bind ?_ ?_
    · rintro _ _ m' rfl
      exact (bindFrom_acts routine 1 routine.params args m').mono fun cells script h => ⟨script, h, rfl⟩
    · rintro _ _ rfl
      obtain ⟨cells, script, h⟩ := exists_binding engine routine 1 routine.params args
      exact ⟨cells, script, script, h, rfl⟩
  · exact (bindFrom_acts routine 1 routine.params args m).mono fun cells script h => ⟨script, h, rfl⟩

/-! ### How often -/

namespace Script

variable {routine : Routine} {position : Nat} {v : Variable} {arg : Expr} {cell : Cell} {script : List Deed}

/-- An argument is evaluated as a value, or as a place, or as both. -/
inductive Evaluates (v : Variable) (arg : Expr) : Cell → List Expr → Prop
  | value (a : Value) : Evaluates v arg (.direct a) [arg]
  | place (p : Place) : Evaluates v arg (.alias p) arg.placeParts
  | twice (href : v.storage = .refArgument) (hplace : arg.ungrouped.isPlace) (a : Value) :
    Evaluates v arg (.direct a) (arg.placeParts ++ [arg])

theorem evaluated_value {conversion : List Deed} (h : Deed.Convert arg.span conversion) :
    Deed.evaluated (notice routine position v arg ++ .evaluate arg :: conversion) = [arg] := by
  have hnotice : Deed.evaluated (notice routine position v arg) = [] := by
    unfold notice
    split <;> rfl
  rw [Deed.evaluated_append, hnotice]
  rcases h with rfl | ⟨error, rfl⟩ <;> rfl

/-- How often the expressions of an argument are evaluated. -/
theorem evaluates (h : Script routine position v arg cell script) :
    Evaluates v arg cell (Deed.evaluated script) := by
  cases h with
  | value _ hconversion a =>
    rw [evaluated_value hconversion]
    exact .value a
  | place _ _ hlocate p =>
    rw [hlocate.evaluated]
    exact .place p
  | again href hplace hlocate _ hconversion a =>
    have htold : ∀ problem, Deed.evaluated [.tell problem arg.ungrouped.span] = [] := fun _ => rfl
    rw [Deed.evaluated_append, Deed.evaluated_append, htold, hlocate.evaluated, List.append_nil,
      evaluated_value hconversion]
    exact .twice href hplace a

end Script

/-- **Arguments are evaluated once.**  The arguments of a call are bound one after the other, and to bind
one it is evaluated once, as a value or by the parts of the place it names.  The only exception is what is
written like a place and given by reference but names no place: its parts are evaluated, and then it is
evaluated as a value, by its parts again. -/
theorem arguments_evaluated (engine : Engine σ) (inner : Inner σ) (id : RoutineId)
    (this : Option ObjectRef) (args : List Expr) (span : Span) :
    let routine := engine.program.routine id
    (∃ binding : Run σ (List Cell),
      engine.invoke inner id this args span = (binding >>= fun cells => inner.run ⟨id, this, cells, span⟩) ∧
      ∀ m, inner.Acts m binding fun cells deeds =>
        ∃ script, Binding engine routine 1 routine.params args cells script ∧
          deeds = countNotice routine args.length span ++ script) ∧
    (∀ position v arg cell script, Script routine position v arg cell script →
      Script.Evaluates v arg cell (Deed.evaluated script)) ∧
    ∀ arg : Expr, arg.isPlace →
      (∀ m, inner.Acts m (engine.place inner arg) (Deed.Attempt arg)) ∧
      engine.evaluate inner arg = (do
        match ← engine.place inner arg with
        | some (p, _) => load p
        | none => pure .null) := by
  intro routine
  refine ⟨⟨engine.bindAll inner routine args span, invoke_eq id this args span, fun m => bindAll_acts routine args span⟩,
    fun position v arg cell script => Script.evaluates, fun arg hplace => ⟨place_acts arg, ?_⟩⟩
  cases arg with
  | variableRef | index | field => rfl
  | _ => cases hplace

/-- A routine that displays something and gives the index of an element that is not there. -/
def emptySource (mode : String) : String :=
  "Module m(Integer " ++ mode ++ "r)
End Module
Function Integer g()
    Display \"g\"
    Return 0
End Function
Declare Integer a[0]
Call m(a[g()])
"

def emptyElement (mode : String) : Engine Buffer :=
  ⟨(Program.ofSource (emptySource mode)).1, {}, Buffer.host []⟩

/-- What comes of it. -/
def emptyVisit (mode : String) : Option Outcome × Machine Buffer :=
  (emptyElement mode).visitBy (emptyElement mode).level (.program 12) ((emptyElement mode).start ⟨{}, false⟩)

/-- An argument by reference may be evaluated twice: the index is asked for twice and the array is told
to be empty twice, although the argument is written once and is evaluated once if it is given by value. -/
theorem argument_evaluated_twice :
    (∀ d ∈ (Program.ofSource (emptySource "Ref ")).2, d.isError = false) ∧
    (emptyVisit "Ref ").1.map (fun o => (o.ending, o.problems.map fun q => q.1.message)) =
      some (.completed,
        ["array has no elements", "array has no elements", "cannot convert Null to Integer"]) ∧
    (emptyVisit "Ref ").2.outside.state.output = #["g", "g"] ∧
    (emptyVisit "").1.map (fun o => (o.ending, o.problems.map fun q => q.1.message)) =
      some (.completed, ["array has no elements", "cannot convert Null to Integer"]) ∧
    (emptyVisit "").2.outside.state.output = #["g"] := by
  decide +kernel

end Engine

end Primer
