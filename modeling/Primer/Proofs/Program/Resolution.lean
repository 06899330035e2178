/-
What calls are resolved to.

A call is put off while the program is read and looked up when everything is known.  `resolve` says
what it is looked up as: a method of the class it is written in, a routine of the program, a built-in,
or else a matter of the host.  The checks of its arguments go by what it is resolved to, so in a
program without errors the arguments of every call fit.
-/
import Mathlib.Data.List.Forall2
import Primer.Proofs.Program.Reading

namespace Primer

open Grammar

/-- What a call comes to. -/
inductive Callee where
  | routine (id : RoutineId)
  | builtin (b : Builtin)
  | host
  deriving DecidableEq, Repr

/-- What a name stands for that is not one of the program's. -/
def Callee.outside (name : String) : Callee :=
  match Builtin.ofName? name with
  | some b => .builtin b
  | none => .host

/-- The parameter can be bound to the argument: one by reference needs a place. -/
def Variable.Takes (v : Variable) (arg : Expr) : Prop := v.storage = .refArgument → arg.isPlace

/-- The arguments fit what is called. -/
def Program.Takes (p : Program) (args : List Expr) : Callee → Prop
  | .routine id => (p.routine id).params.Forall₂ (fun x => (p.symbols.variableAt x).Takes) args
  | .builtin b => args.length = b.arity
  | .host => True

/-- What a call by name stands for in code that is written in this class, or in none. -/
def Program.calleeIn (p : Program) (inside : Option ClassId) (name : String) : Callee :=
  (((inside.bind fun c => (p.classDef c).methods[name]?) <|> p.routineIndex[name]?).map
    .routine).getD (.outside name)

/-- The constructor of the class of this name. -/
def Program.constructor? (p : Program) (className : String) : Option RoutineId :=
  p.classIndex[className]?.bind fun c => (p.classDef c).constructor

namespace Grammar.Reader

variable {r : Reader}

/-- What a call is looked up as.  There may be no such class or method, or no constructor. -/
def resolve (r : Reader) (call : PendingCall) : Option Callee :=
  match call.target with
  | .constructor => ((r.classDef? call.name).bind (·.constructor)).map .routine
  | .method className => ((r.classDef? className).bind (·.methods[call.name]?)).map .routine
  | .routine inside =>
    some (((r.calledRoutine? inside call.name).map .routine).getD (.outside call.name))

/-- What is wrong with a call of this. -/
def checkCallee (r : Reader) (call : PendingCall) : Callee → List (Problem × Span)
  | .routine id => r.checkArguments id call
  | .builtin b =>
    if b.arity = call.args.length then []
    else [(.argumentCount call.name b.arity call.args.length none, call.span)]
  | .host => [(.undefinedRoutine call.name, call.span)]

/-- **The arguments of a call are checked against what it is resolved to.** -/
theorem checkCall_eq {call : PendingCall} {callee : Callee} (h : r.resolve call = some callee) :
    r.checkCall call = r.checkCallee call callee := by
  unfold resolve at h
  unfold checkCall
  cases htarget : call.target with
  | constructor =>
    simp only [htarget] at h ⊢
    obtain ⟨id, hid, rfl⟩ := Option.map_eq_some_iff.mp h
    obtain ⟨c, hc, hid⟩ := Option.bind_eq_some_iff.mp hid
    simp only [hc, hid, checkCallee]
  | method className =>
    simp only [htarget] at h ⊢
    obtain ⟨id, hid, rfl⟩ := Option.map_eq_some_iff.mp h
    obtain ⟨c, hc, hid⟩ := Option.bind_eq_some_iff.mp hid
    simp only [hc, hid, checkCallee]
  | routine inside =>
    simp only [htarget, Option.some.injEq] at h ⊢
    cases hid : r.calledRoutine? inside call.name with
    | some id =>
      rw [hid] at h
      cases h
      rfl
    | none =>
      rw [hid] at h
      obtain rfl : Callee.outside call.name = callee := h
      unfold Callee.outside checkOutside
      cases Builtin.ofName? call.name <;> rfl

/-! ### Arguments that pass the checks -/

theorem takes_of_checkPlaces {name : String} {position : Nat} {params : List VarId}
    {args : List Expr} (hlength : params.length = args.length)
    (h : ∀ q ∈ r.checkPlaces name position params (argumentPlaces args), q.1.isError = false) :
    params.Forall₂ (fun x => (r.variableAt x).Takes) args := by
  induction params generalizing position args with
  | nil =>
    obtain rfl := List.length_eq_zero_iff.mp hlength.symm
    exact .nil
  | cons x params ih =>
    obtain ⟨arg, args, rfl⟩ := List.exists_cons_of_length_eq_add_one hlength.symm
    simp only [argumentPlaces, List.map_cons, checkPlaces] at h
    have hlater : ∀ q ∈ r.checkPlaces name (position + 1) params (argumentPlaces args),
        q.1.isError = false := by
      intro q hq
      refine h q ?_
      split
      · exact List.mem_cons_of_mem _ hq
      · exact hq
    refine .cons (fun href => ?_) (ih (Nat.succ.inj hlength) hlater)
    by_contra hplace
    rw [if_pos (by simp [href, hplace])] at h
    have herror := h _ List.mem_cons_self
    cases herror

/-- **The arguments of a call with which nothing is wrong fit what it is resolved to.** -/
theorem takes_of_checkCall {statements : List Stmt} {call : PendingCall} {callee : Callee}
    {args : List Expr} (hresolve : r.resolve call = some callee)
    (hargs : call.args = argumentPlaces args)
    (h : ∀ q ∈ r.checkCall call, q.1.isError = false) :
    (Program.ofReader statements r).Takes args callee := by
  have hlength : call.args.length = args.length := by simp [hargs, argumentPlaces]
  rw [checkCall_eq hresolve] at h
  cases callee with
  | host => exact trivial
  | builtin b =>
    simp only [checkCallee] at h
    split at h
    · rename_i hcount
      exact (hcount.trans hlength).symm
    · cases h _ List.mem_cons_self
  | routine id =>
    simp only [checkCallee, checkArguments] at h
    split at h
    · rename_i hcount
      rw [hargs] at h
      exact takes_of_checkPlaces (hcount.trans hlength) h
    · cases h _ List.mem_cons_self

end Grammar.Reader

namespace Program

/-- The call was checked when everything had been read.  It was resolved to this, and its arguments
fit. -/
structure Checked (p : Program) (r : Reader) (call : PendingCall) (args : List Expr)
    (callee : Option Callee) : Prop where
  pending : call ∈ r.pendingCalls
  resolved : r.resolve call = callee
  takes : ∀ c, callee = some c → p.Takes args c

/-- Every call of the program was checked, and every routine belongs to the class around it. -/
structure Resolved (p : Program) (r : Reader) : Prop where
  classId : ∀ id < p.routines.size, ∀ inside, p.Around id inside → (p.routine id).classId = inside
  called : ∀ home, p.Houses home → ∀ name args span, .called name args span ∈ p.notesAt home →
    p.Checked r ⟨name, .routine home.fields?, argumentPlaces args, span⟩ args
      (some (p.calleeIn home.fields? name))
  made : ∀ home, p.Houses home → ∀ className args span,
    .made className args span ∈ p.notesAt home →
      p.Checked r ⟨className, .constructor, argumentPlaces args, span⟩ args
        ((p.constructor? className).map .routine)

end Program

/-- Every call that may be checked has been put off to be checked. -/
theorem Grammar.Reader.Finished.resolved {r : Reader} {statements : List Stmt}
    (h : r.Finished statements) (hmet : ¬ r.MetNested)
    (hclean : ∀ call ∈ r.pendingCalls, ∀ q ∈ r.checkCall call, q.1.isError = false) :
    (Program.ofReader statements r).Resolved r := by
  have hchecked : ∀ {call : PendingCall} {args : List Expr} {callee : Option Callee},
      call ∈ r.pendingCalls → call.args = argumentPlaces args → r.resolve call = callee →
        (Program.ofReader statements r).Checked r call args callee :=
    fun hpending hargs hresolve => ⟨hpending, hresolve, fun _ hc =>
      takes_of_checkCall (hresolve.trans hc) hargs (hclean _ hpending)⟩
  refine ⟨fun id hid inside hinside => h.classId_eq hmet hid hinside,
    fun home hhome name args span hn => ?_, fun home hhome className args span hn => ?_⟩
  · exact hchecked (h.allows hhome _ hn) rfl rfl
  · refine hchecked (h.allows hhome _ hn) rfl ?_
    simp only [resolve, classDef?, Program.constructor?, Option.bind_map]
    rfl

namespace Program

end Program

end Primer
