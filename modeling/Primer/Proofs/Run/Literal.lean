/-
Starting values whose type can be seen in the source.

A literal shows its type, also with brackets and minus signs around it.  When a declaration is
read, such a starting value is held against the declared type, and it is left out if it cannot be
stored as that.  When the declaration is executed, the value is converted to the kind of the
variable.  The check goes by types and the conversion by values, but they agree: what is left in is
stored without a word.
-/
import Primer.Proofs.Run.Ending
import Primer.Proofs.Run.Places

namespace Primer

/-! ### The values of literals -/

/-- How many brackets and minus signs stand around a literal. -/
def Expr.layers : Expr → Nat
  | .unary _ operand _ => operand.layers + 1
  | .grouping inner _ => inner.layers + 1
  | _ => 0

/-- Only numbers have a sign. -/
theorem Expr.literalType?_negate {operand : Expr} {span : Span} {type : TypeName}
    (h : (Expr.unary .negate operand span).literalType? = some type) :
    operand.literalType? = some type ∧ (type = .integer ∨ type = .real) := by
  rw [Expr.literalType?] at h
  split at h <;> cases h <;> simp [*]

/-- A number stays one of its kind when its sign is changed. -/
theorem Value.negate_number {v : Value} {type : TypeName} (hv : Expr.scalarType? v = some type)
    (htype : type = .integer ∨ type = .real) :
    ∃ w, v.negate = .ok w ∧ Expr.scalarType? w = some type := by
  cases v with
  | integer | real => exact ⟨_, rfl, hv⟩
  | _ => rcases htype with rfl | rfl <;> cases hv

/-- **A literal has a value of the type that it shows**, and nothing else comes of evaluating it. -/
theorem Engine.eval_literal (engine : Engine σ) (m : Machine σ) :
    ∀ {e : Expr} {type : TypeName} {n : Nat},
      e.literalType? = some type → type.isPrimitive → e.layers < n →
        ∃ v, (engine.level n).eval e m = .ok v m ∧ Expr.scalarType? v = some type ∧
          ∀ w span, e = .literal w span → v = w
  | .literal v _, _, n + 1, htype, _, _ => ⟨v, rfl, htype, fun _ _ h => by cases h; rfl⟩
  | .unary .negate operand span, _, n + 1, htype, hprimitive, hn => by
    obtain ⟨htype, hnumber⟩ := Expr.literalType?_negate htype
    obtain ⟨v, hv, hshown, -⟩ := eval_literal engine m htype hprimitive (Nat.lt_of_succ_lt_succ hn)
    obtain ⟨w, hw, hkept⟩ := Value.negate_number hshown hnumber
    refine ⟨w, (Run.bind_of_ok hv).trans ?_, hkept, nofun⟩
    show Run.orElse _ span v.negate m = _
    rw [hw]
    rfl
  | .grouping inner _, _, n + 1, htype, hprimitive, hn => by
    obtain ⟨v, hv, hshown, -⟩ :=
      eval_literal engine m (e := inner) htype hprimitive (Nat.lt_of_succ_lt_succ hn)
    exact ⟨v, hv, hshown, nofun⟩
  | .new .., _, _, htype, hprimitive, _ => by cases htype; cases hprimitive

/-- **What passes the check is converted.** -/
theorem Value.convert_storable {declared found : TypeName} {e : Expr} {v : Value}
    (h : Grammar.storable declared found e) (hv : Expr.scalarType? v = some found)
    (hliteral : ∀ w span, e = .literal w span → v = w) :
    ∃ w, v.convert declared.kind = .ok w ∧ w.kind = declared.kind := by
  unfold Grammar.storable at h
  rw [Bool.or_eq_true, decide_eq_true_eq] at h
  rcases h with rfl | h
  · cases v with
    | null | array | object => cases hv
    | _ => cases hv; exact ⟨_, rfl, rfl⟩
  · split at h
    · cases v <;> cases hv
      exact ⟨_, rfl, rfl⟩
    · cases v <;> cases hv
      exact ⟨_, rfl, rfl⟩
    · split at h
      · -- Only here does the check look at the value, and so at what is written without brackets.
        rename_i s span
        obtain rfl := hliteral _ _ rfl
        have hs : s.toList.length = 1 := by simpa [String.length_toList] using h
        obtain ⟨c, hc⟩ := List.length_eq_one_iff.mp hs
        refine ⟨.character c, ?_, rfl⟩
        simp [Value.convert, TypeName.kind, Value.convert?, Value.toCharacter?, hc]
      · cases h
    · cases h

/-! ### Reading declarations -/

namespace Grammar

/-- A literal is left in if it can be stored, and otherwise reported and left out. -/
theorem checkedInitializer_literal (declared : TypeName) {found : TypeName} {e : Expr}
    (he : e.literalType? = some found) (r : Reader) :
    ∃ r', literalMismatch declared e r = .ok (!storable declared found e) r' ∧
      checkedInitializer declared 0 (some (.one e)) r =
        .ok (if storable declared found e then some (.one e) else none) r' := by
  have hmismatch : literalMismatch declared e =
      if storable declared found e then pure false else (do
        report (.literalMismatch found declared) e.span
        pure true) := by
    unfold literalMismatch
    rw [he]
  have hcheck : checkedInitializer declared 0 (some (.one e)) = literalMismatch declared e >>=
      fun rejected => if rejected then pure none else pure (some (.one e)) := rfl
  rw [hcheck, hmismatch]
  cases storable declared found e <;> exact ⟨_, rfl, rfl⟩

theorem layout_checkedInitializer {declared : TypeName} {rank : Nat}
    {init kept : Option Initializer} {r r' : Reader}
    (h : checkedInitializer declared rank init r = .ok kept r') :
    r'.layout = r.layout := by
  unfold checkedInitializer at h
  split at h
  · unfold literalMismatch at h
    split at h
    · cases h; rfl
    · split at h <;> cases h <;> rfl
  · cases h; rfl

/-- A starting value was read for the variable, and `init` is what the check leaves of it. -/
def ChecksFor (v : Variable) (init : Option Initializer) : Prop :=
  ∃ name given r₀ r₁ r₂ r₃, startingValue name (0 < v.rank) r₀ = .ok given r₁ ∧
    checkedInitializer v.type v.rank given r₂ = .ok init r₃

theorem Yields.anyhow {α : Type} (x : Read α) (r : Reader) :
    Yields x r (fun a r' => x r = .ok a r') fun _ => True := by
  unfold Yields
  cases x r <;> trivial

/-- **Every declaration goes through the check**, with the type that its variable is given. -/
theorem declarator_checks (kind : DeclarationKind) (declared : Option TypeName) (reported : Bool)
    (r : Reader) :
    Yields (declarator kind declared reported) r
      (fun found r' => ChecksFor (r'.variableAt found.1.id) found.1.init) fun _ => True := by
  refine Yields.bind ((Yields.anyhow _ r).mono (fun name r₁ _ => ?_) fun _ h => h)
  refine Yields.bind ((Yields.anyhow _ r₁).mono (fun given r₂ _ => ?_) fun _ h => h)
  refine Yields.bind ((Yields.anyhow _ r₂).mono (fun init r₃ hinit => ?_) fun _ h => h)
  refine Yields.bind ((Yields.anyhow _ r₃).mono (fun settled r₄ _ => ?_) fun _ h => h)
  refine Yields.bind ((Yields.anyhow _ r₄).mono (fun dims r₅ _ => ?_) fun _ h => h)
  refine Yields.bind ((declareName_yields r₅).mono ?_ fun _ h => h.elim)
  rintro id r₆ ⟨rfl, hquiet⟩
  extract_lets finish
  have hfinish : ∀ u r₇, r₇.layout = r₆.layout → Yields (finish u) r₇
      (fun found r' => ChecksFor (r'.variableAt found.1.id) found.1.init) fun _ => True := by
    intro u r₇ hlayout
    refine Yields.bind ((Yields.anyhow _ r₇).mono (fun kept r₈ hkept => ?_) fun _ h => h)
    refine Yields.look_bind (Yields.pure ?_)
    have hvariable : r₈.variableAt r₅.layout.table.entries.size
        = r₅.layout.declared name.lexeme settled.1 given.length kind name.span := by
      have hlayout : r₈.layout = (r₅.declaring name settled.1 given.length kind).layout :=
        (layout_checkedInitializer hkept).trans (hlayout.trans hquiet.layout)
      unfold Reader.variableAt
      rw [hlayout]
      exact (Reader.variableAt_declaring _ _ _ _ r₅ _).trans (if_pos rfl)
    show ChecksFor (r₈.variableAt r₅.layout.table.entries.size) kept
    rw [hvariable]
    exact ⟨name, init, r₂, r₃, r₇, r₈, hinit, hkept⟩
  split
  · exact Yields.modify_bind (hfinish () _ rfl)
  · exact hfinish () _ rfl

end Grammar

/-! ### Executing declarations -/

namespace Engine

/-- A session gets to the declaration in this state: where a statement declares variables, after
those before it, and where an object is made, after the fields before it. -/
inductive Arrives (engine : Engine σ) (outside : Outside σ) (visits : List (Visit σ))
    (d : Declaration) : Machine σ → Prop
  | statement {before after : List Declaration} {span : Span} {n : Nat} {m m' : Machine σ}
      (h : .begun (.exec (.declare (before ++ d :: after) span)) m ∈ engine.journal outside visits)
      (hbefore : before.forM (engine.declare (engine.level n)) m = .ok () m') :
    Arrives engine outside visits d m'
  | field {className : String} {args : List Expr} {span : Span} {c : ClassId} {object : ObjectRef}
      {before after : List Declaration} {n : Nat} {m made m' : Machine σ}
      (h : .begun (.eval (.new className args span)) m ∈ engine.journal outside visits)
      (hclass : engine.program.classIndex[className]? = some c)
      (hmade : newInstance c (engine.program.classDef c) m = .ok object made)
      (hfields : (engine.program.classDef c).fieldDeclarations = before ++ d :: after)
      (hbefore : before.forM (engine.declare (engine.level n)) (made.making object) = .ok () m') :
    Arrives engine outside visits d m'

/-- Executing the declaration stores the value in its variable, without a word.  It is read there
again, unless the variable is a field that a host has taken out of the store. -/
structure Gives (engine : Engine σ) (n : Nat) (d : Declaration) (m : Machine σ) (place : Place)
    (v : Value) : Prop where
  placed : m.placeOf (engine.program.symbols.variableAt d.id) = .ok place
  run : engine.declare (engine.level n) d m = .ok () ((m.turnTo place).write place v)
  quiet : ((m.turnTo place).write place v).problems = m.problems
  read : m.heap.Has place → ((m.turnTo place).write place v).read? place = some v

variable {engine : Engine σ} {outside : Outside σ} {visits : List (Visit σ)} {d : Declaration}
  {m m' : Machine σ} {g : Stage} {n : Nat}

/-- Declarations keep to their stage. -/
theorem at_declared (hp : engine.program.Sound) (ready : g.Ready engine.program) (hm : m.At g)
    {before : List Declaration} (hknown : ∀ d ∈ before, g.Knows engine.program d.notes)
    (h : before.forM (engine.declare (engine.level n)) m = .ok () m') : m'.At g := by
  have hplain : (Contract.plain engine).Here g m := ⟨hm, trivial⟩
  have hobeys := Obeys.forM hplain fun d hd m' hstep =>
    (declare_obeys hp (honours_plain hp n).toAnswers ready hstep.here (hknown d hd)
      trivial).anything
  exact (hobeys.ok h).1.keeps.stays

/-- A session gets to a declaration on a stage that is set for it. -/
theorem Arrives.stage (hp : engine.program.Sound) (h : engine.Arrives outside visits d m) :
    ∃ g : Stage, g.Ready engine.program ∧ g.Knows engine.program d.notes ∧ m.At g ∧
      ∀ c, g.home = some (.classBody c) → g.this?.isSome := by
  cases h with
  | @statement before after span n m _ h hbefore =>
    obtain ⟨g, ready, ⟨hknown, hholds⟩, hm⟩ := sound_journal hp outside visits _ h
    simp only [Stmt.notes] at hknown
    have hknown := Stage.Knows.declaration hknown
    exact ⟨g, ready, hknown d (by simp),
      at_declared hp ready hm (fun d hd => hknown d (by simp [hd])) hbefore,
      fun c hc => absurd hc (hholds (by simp [Stmt.declared]) c)⟩
  | @field _ _ _ c object before after n m made _ h hclass hmade hfields hbefore =>
    obtain ⟨g, ready, -, hm⟩ := sound_journal hp outside visits _ h
    have ready := ready.making (hp.inBounds.classIndex _ c hclass) object
    have hknown : ∀ x ∈ before ++ d :: after, (g.making c object).Knows engine.program x.notes := by
      rw [← hfields]
      exact Stage.knows_self.declaration
    have hmaking : (made.making object).At (g.making c object) := by
      cases hmade
      exact ⟨hm.shape, congrArg (Array.push · _) hm.calls⟩
    exact ⟨_, ready, hknown d (by simp),
      at_declared hp ready hmaking (fun d hd => hknown d (by simp [hd])) hbefore,
      fun _ _ => by simp [Stage.this?, Stage.making]⟩

/-- A variable is found where it is declared. -/
theorem placeOf_declared (hp : engine.program.Sound) (ready : g.Ready engine.program) (hm : m.At g)
    (hd : g.Knows engine.program d.notes)
    (hstorage : (engine.program.symbols.variableAt d.id).storage = g.home.storage)
    (hobject : ∀ c, g.home = some (.classBody c) → g.this?.isSome) :
    ∃ place, m.placeOf (engine.program.symbols.variableAt d.id) = .ok place ∧
      g.shape.Solid place := by
  have hfinds := ready.finds hp hm (hd.sees (x := d.id) hp ready (by simp [Declaration.notes]))
  cases hfound : m.placeOf (engine.program.symbols.variableAt d.id) with
  | ok place =>
    rw [hfound] at hfinds
    exact ⟨place, rfl, hfinds⟩
  | error problem =>
    exfalso
    rw [hfound] at hfinds
    cases hhome : g.home with
    | none => simp [Machine.placeOf, hstorage, hhome, Home.storage] at hfound
    | some home =>
      cases home with
      | routine r inside =>
        simp only [Machine.placeOf, hstorage, hhome, Home.storage, Machine.frameSlot] at hfound
        split at hfound <;> cases hfound
        simpa using hfinds rfl
      | classBody c =>
        obtain ⟨object, hthis⟩ := Option.isSome_iff_exists.mp (hobject c hhome)
        simp [Machine.placeOf, hstorage, hhome, Home.storage, hm.this?, hthis] at hfound

/-- A declaration whose first value is had without a word. -/
theorem Arrives.gives (hp : engine.program.Sound) (h : engine.Arrives outside visits d m)
    (hkept : ∀ home, engine.program.Houses home → ∀ x, .declared x ∈ engine.program.notesAt home →
      (engine.program.symbols.variableAt x).storage = home.storage)
    (hscalar : (engine.program.symbols.variableAt d.id).rank = 0) {v : Value}
    (hvalue : scalarValue (engine.level n) (engine.program.symbols.variableAt d.id) d m = .ok v m) :
    ∃ place, engine.Gives n d m place v := by
  obtain ⟨g, ready, hknown, hm, hobject⟩ := h.stage hp
  have hstorage := hkept g.home ready.housed d.id (hknown _ (by simp [Declaration.notes]) rfl)
  obtain ⟨place, hplace, hsolid⟩ := placeOf_declared hp ready hm hknown hstorage hobject
  refine ⟨place, hplace, ?_, ?_, fun hhas => ?_⟩
  · have harray : ¬ (engine.program.symbols.variableAt d.id).isArray := by
      simp [Variable.isArray, hscalar]
    refine (Run.bind_of_ok (Run.placeOf_ok hplace d.span)).trans ?_
    rw [if_neg harray]
    exact Run.bind_of_ok hvalue
  · obtain ⟨misses, hturned⟩ := m.turnTo_eq place
    rw [Machine.problems_write, hturned]
  · have hsome := Machine.isSome_read? hm hsolid hhas
    rw [Machine.turnTo, if_pos hsome]
    exact Machine.read?_write hsome v

theorem storage_declared (tokens : List Token) (settings : Settings) (host : Host σ) :
    ∀ home, (ofTokens tokens settings host).program.Houses home →
      ∀ x, .declared x ∈ (ofTokens tokens settings host).program.notesAt home →
        ((ofTokens tokens settings host).program.symbols.variableAt x).storage = home.storage := by
  have hfinished := finished_readFrom tokens
  exact fun _ hhome x hx => (hfinished.allows hhome (.declared x) hx).2

open Grammar in
/-- **A literal that passes the check is stored as what was declared, without a word, and in place
of one that does not the variable gets the default of its type.**  `r` and `r'` are the readers
before and after the check, which every declaration goes through.  There have to be levels enough
for the brackets and signs. -/
theorem literals_are_stored (tokens : List Token) (settings : Settings) (host : Host σ)
    (outside : Outside σ) (visits : List (Visit σ)) {d : Declaration} {m : Machine σ}
    (harrives : (ofTokens tokens settings host).Arrives outside visits d m)
    (hscalar : ((ofTokens tokens settings host).program.symbols.variableAt d.id).rank = 0)
    {e : Expr} {found : TypeName} (he : e.literalType? = some found) (hfound : found.isPrimitive)
    {r r' : Reader} (hcheck : checkedInitializer
      ((ofTokens tokens settings host).program.symbols.variableAt d.id).type 0 (some (.one e)) r
        = .ok d.init r')
    {n : Nat} (hn : e.layers < n) :
    let engine := ofTokens tokens settings host
    let type := (engine.program.symbols.variableAt d.id).type
    (∀ kind declared reported r, Yields (declarator kind declared reported) r
      (fun made r' => ChecksFor (r'.variableAt made.1.id) made.1.init) fun _ => True) ∧
    literalMismatch type e r = .ok (!storable type found e) r' ∧
    ∃ place v, engine.Gives n d m place v ∧
      if storable type found e then
        v.kind = type.kind ∧ ∃ shown, (engine.level n).eval e m = .ok shown m ∧
          shown.convert type.kind = .ok v
      else v = Value.default type := by
  have hp := sound_ofTokens tokens settings host
  have hkept := storage_declared tokens settings host
  generalize ofTokens tokens settings host = engine at *
  intro _ type
  obtain ⟨_, hmismatch, hchecked⟩ := checkedInitializer_literal type he r
  injection hcheck.symm.trans hchecked with hinit hr
  subst hr
  refine ⟨declarator_checks, hmismatch, ?_⟩
  cases hstorable : storable type found e with
  | false =>
    rw [hstorable] at hinit
    have hvalue : scalarValue (engine.level n) (engine.program.symbols.variableAt d.id) d m
        = .ok (Value.default type) m := by
      rw [scalarValue, hinit]
      rfl
    obtain ⟨place, hgives⟩ := harrives.gives hp hkept hscalar hvalue
    exact ⟨place, _, hgives, rfl⟩
  | true =>
    rw [hstorable] at hinit
    obtain ⟨shown, heval, hshown, hliteral⟩ := eval_literal engine m he hfound hn
    obtain ⟨v, hv, hkind⟩ := Value.convert_storable hstorable hshown hliteral
    have hvalue : scalarValue (engine.level n) (engine.program.symbols.variableAt d.id) d m
        = .ok v m := by
      rw [scalarValue, hinit]
      refine (Run.bind_of_ok heval).trans ?_
      show Run.orElse _ _ (shown.convert type.kind) m = _
      rw [hv]
      rfl
    obtain ⟨place, hgives⟩ := harrives.gives hp hkept hscalar hvalue
    exact ⟨place, v, hgives, hkind, shown, heval, hv⟩

/-- The statement declares the variable with an integer in brackets and minus signs. -/
def declaresNegated (x : VarId) : Event σ → Bool
  | .begun (.exec (.declare [⟨id, _, some (.one e), _⟩] _)) _ =>
    id = x && e.literalType? = some .integer && e.layers = 4
  | _ => false

def negated : Engine Buffer := ofTokens (scan "Declare Real x = -(-(2))\n").1 {} (Buffer.host [])

/-- An integer in brackets becomes a real. -/
theorem literals_are_stored_negated :
    ∃ d m place v, negated.Arrives ⟨{}, false⟩ [.program 9] d m ∧ negated.Gives 9 d m place v ∧
      v.kind = .real := by
  have hall : (∃ event ∈ negated.journal ⟨{}, false⟩ [.program 9], declaresNegated 0 event) ∧
      (negated.program.symbols.variableAt 0).rank = 0 ∧
      (negated.program.symbols.variableAt 0).type = .real := by
    decide +kernel
  obtain ⟨⟨event, hevent, hdeclares⟩, hrank, htype⟩ := hall
  unfold declaresNegated at hdeclares
  split at hdeclares
  · rename_i id dims e span span' m
    simp only [Bool.and_eq_true, decide_eq_true_eq] at hdeclares
    obtain ⟨⟨rfl, he⟩, hlayers⟩ := hdeclares
    have harrives : negated.Arrives ⟨{}, false⟩ [.program 9] ⟨0, dims, some (.one e), span⟩ m :=
      @Arrives.statement _ _ _ _ _ [] [] _ 0 _ _ hevent rfl
    have hstorable : Grammar.storable .real .integer e := rfl
    obtain ⟨_, -, hcheck⟩ := Grammar.checkedInitializer_literal .real he default
    rw [if_pos hstorable, ← htype] at hcheck
    obtain ⟨-, -, place, v, hgives, hstored⟩ :=
      literals_are_stored _ _ _ _ _ harrives hrank he rfl hcheck (n := 9) (by omega)
    change if Grammar.storable (negated.program.symbols.variableAt 0).type .integer e then
      v.kind = (negated.program.symbols.variableAt 0).type.kind ∧ _ else _ at hstored
    rw [htype, if_pos hstorable] at hstored
    exact ⟨_, m, place, v, harrives, hgives, hstored.1⟩
  · cases hdeclares

end Engine

end Primer
