/-
Two ways from a name to what it stands for.

While a program is read, a name leads to the first variable that has it in the nearest scope
around.  Two other ways start after that.  A host that asks for a static by its name is given the
first one of all, also one that a block at the top declared for itself.  An expression that asks an
object for a field is given the last field of the name.  So each of the two ways leads where the
name does, as long as the name has not been used before in a block, or twice in a class.
-/
import Primer.Proofs.Run.Counting
import Primer.Proofs.Run.Places
import Primer.Proofs.Run.Typing
import Primer.Proofs.Symbol.Operations

namespace Primer

/-! ### The first and the last of a name -/

/-- What a search finds comes before all else that it could have found. -/
theorem rel_of_find? {α : Type} {R : α → α → Prop} {xs : List α} {p : α → Bool} {a x : α}
    (hxs : xs.Pairwise R) (h : xs.find? p = some a) (hx : x ∈ xs) (hp : p x) : a = x ∨ R a x := by
  obtain ⟨-, before, after, rfl, hbefore⟩ := List.find?_eq_some_iff_append.mp h
  obtain ⟨-, hafter, -⟩ := List.pairwise_append.mp hxs
  rcases List.mem_append.mp hx with hx | hx
  · simpa [hp] using hbefore x hx
  · rcases List.mem_cons.mp hx with rfl | hx
    · exact Or.inl rfl
    · exact Or.inr (List.rel_of_pairwise_cons hafter hx)

namespace SymbolTable

/-- The scope lies in `outer`, or is it, and no scope from the one to the other has the name. -/
inductive Clear (t : SymbolTable) (name : String) (outer : ScopeId) : ScopeId → Prop
  | self (h : t.findIn? outer name = none) : Clear t name outer outer
  | inward {s parent : ScopeId} (h : t.findIn? s name = none)
      (hparent : (t.scopeAt s).parent = some parent) (hclear : Clear t name outer parent) :
    Clear t name outer s

variable {t : SymbolTable} {homes : List Home} {classScopes : Array ScopeId} {s : ScopeId}
  {name : String} {x : VarId}

theorem lookup?_of_findIn? (h : t.findIn? s name = some x) : t.lookup? s name = some x := by
  rw [lookup?, h]

theorem findIn?_globalScope (h : t.lookup? globalScope name = some x) :
    t.findIn? globalScope name = some x := by
  rw [lookup?] at h
  split at h
  · rename_i hfind
    rw [hfind, h]
  · split at h
    · split at h
      · rename_i hlt
        exact absurd hlt (Nat.not_lt_zero _)
      · cases h
    · cases h

section Scopes

variable (ok : t.Homed homes classScopes)

include ok

theorem Homed.declares_iff :
    t.Declares s name x ↔ x ∈ (t.scopeAt s).members ∧ (t.variableAt x).name = name := by
  rw [ok.listed, and_assoc]
  rfl

theorem Homed.exists_findIn? (h : t.Declares s name x) : ∃ first, t.findIn? s name = some first := by
  obtain ⟨hmem, hname⟩ := ok.declares_iff.mp h
  refine Option.isSome_iff_exists.mp ?_
  rw [findIn?, Array.find?_isSome]
  exact ⟨x, hmem, by simpa using hname⟩

theorem Homed.declares_of_findIn? (h : t.findIn? s name = some x) : t.Declares s name x :=
  ok.declares_iff.mpr ⟨mem_of_findIn? h, by simpa using Array.find?_some h⟩

theorem Homed.le_of_findIn? (h : t.findIn? s name = some x) {y : VarId}
    (hy : t.Declares s name y) : x ≤ y := by
  obtain ⟨hmem, hname⟩ := ok.declares_iff.mp hy
  rw [findIn?, ← Array.find?_toList] at h
  rcases rel_of_find? (ok.ordered s) h (Array.mem_toList_iff.mpr hmem) (by simpa using hname)
    with rfl | hlt
  · exact Nat.le_refl _
  · exact Nat.le_of_lt hlt

/-- A name that nothing inside of a scope has leads to where it leads around the scope. -/
theorem Homed.lookup?_of_clear {outer around : ScopeId}
    (hclear : t.Clear name outer s) (haround : (t.scopeAt outer).parent = some around) :
    t.lookup? s name = t.lookup? around name := by
  have hstep : ∀ {s parent}, t.findIn? s name = none → (t.scopeAt s).parent = some parent →
      t.lookup? s name = t.lookup? parent name := by
    intro s parent hnone hparent
    rw [lookup?, hnone]
    simp only [hparent, (ok.parents s parent hparent).1, if_true]
  induction hclear with
  | self hnone => exact hstep hnone haround
  | inward hnone hparent _ ih => exact (hstep hnone hparent).trans ih

end Scopes

end SymbolTable

theorem Program.homed_ofTokens (tokens : List Token) : ∃ homes,
    (ofTokens tokens).1.symbols.Homed homes
      ((ofTokens tokens).1.classes.map (·.scope)) := by
  obtain ⟨homes, hsound⟩ := (finished_readFrom tokens).sound
  exact ⟨homes, hsound.layout.table⟩

namespace Engine

open SymbolTable (globalScope)

variable {engine : Engine σ} {x : VarId} {name : String} {m : Machine σ} {c : ClassId}

/-! ### Statics -/

/-- The variable has the value now: an expression that mentions it has the value and changes
nothing. -/
def Reads (engine : Engine σ) (m : Machine σ) (x : VarId) (v : Value) : Prop :=
  ∀ inner name span, engine.evaluate inner (.variableRef x name span) m = .ok v m

theorem reads_static {v : Value} (hx : engine.program.Static x)
    (hv : m.read? (.slot (engine.program.slotOf x)) = some v) : engine.Reads m x v := by
  intro inner name span
  have hplace : m.placeOf (engine.program.symbols.variableAt x) =
      .ok (.slot (engine.program.slotOf x)) := by
    unfold Machine.placeOf
    rw [hx.storage]
    rfl
  have hnamed : engine.place inner (.variableRef x name span) m =
      .ok (some (.slot (engine.program.slotOf x), (engine.program.symbols.variableAt x).kind)) m :=
    Run.bind_eq_ok.mpr ⟨_, m, Run.placeOf_ok hplace span, rfl⟩
  exact Run.bind_eq_ok.mpr ⟨_, m, hnamed, load_ok hv⟩

/-- What the top itself declares is a static. -/
theorem static_of_declares {p : Program} {homes : List Home} {classScopes : Array ScopeId}
    (ok : p.symbols.Homed homes classScopes) (hx : p.symbols.Declares globalScope name x) :
    p.Static x := by
  obtain ⟨hlt, hscope, -⟩ := hx
  have hseen := ok.seen x hlt none (by rw [hscope]; exact ok.root)
  refine ⟨hlt, ?_⟩
  unfold Variable.SeenFrom at hseen
  split at hseen
  · assumption
  all_goals simp [Home.fields?, Home.routine?] at hseen

/-- A search among the statics finds the one that was declared first. -/
theorem exists_first_static {p : Program} (hx : p.Static x)
    (hname : (p.symbols.variableAt x).name = name) :
    ∃ first, p.Static first ∧ (p.symbols.variableAt first).name = name ∧
      (∀ y, p.Static y → (p.symbols.variableAt y).name = name → first ≤ y) ∧
      p.symbols.statics.find? (fun v => v.name == name) = some (p.symbols.variableAt first) := by
  have hget : ∀ y (hy : y < p.symbols.entries.toList.length),
      p.symbols.entries.toList[y] = p.symbols.variableAt y := by
    intro y hy
    simp [SymbolTable.variableAt, show y < p.symbols.entries.size by simpa using hy]
  have hsome : (p.symbols.statics.find? fun v => v.name == name).isSome := by
    rw [List.find?_isSome]
    refine ⟨p.symbols.variableAt x, List.mem_filter.mpr ⟨?_, by simpa using hx.storage⟩,
      by simpa using hname⟩
    rw [← hget x (by simpa using hx.bound)]
    exact List.getElem_mem _
  obtain ⟨v, hv⟩ := Option.isSome_iff_exists.mp hsome
  have hfound := hv
  rw [SymbolTable.statics, List.find?_filter, List.find?_eq_some_iff_getElem] at hfound
  obtain ⟨hwanted, first, hlt, rfl, hbefore⟩ := hfound
  rw [hget first hlt] at hwanted hv
  simp only [decide_eq_true_eq, beq_iff_eq] at hwanted
  refine ⟨first, ⟨by simpa using hlt, hwanted.1⟩, hwanted.2, fun y hy hyname => ?_, hv⟩
  by_contra hless
  have hnot := hbefore y (Nat.lt_of_not_le hless)
  rw [hget y] at hnot
  simp [hy.storage, hyname] at hnot

/-- **A host that asks for a name is given the value of the first static that was declared under
it.**  This is the one that a statement at the end of the program reads under the name, unless a
block at the top has used the name before. -/
theorem told_first_static (tokens : List Token) (settings : Settings) (host : Host σ)
    (outside : Outside σ) (visits : List (Visit σ)) {name : String} {x : VarId}
    (hx : (Program.ofTokens tokens).1.symbols.lookup? globalScope name = some x) :
    let engine := ofTokens tokens settings host
    let p := engine.program
    let m := (engine.session outside visits).2
    ∃ first told read, p.Static first ∧ (p.symbols.variableAt first).name = name ∧
      (∀ y, p.Static y → (p.symbols.variableAt y).name = name → first ≤ y) ∧
      engine.global? name m = some told ∧ engine.Reads m first told ∧ engine.Reads m x read ∧
      (first = x ∧ told = read ∨
        first < x ∧ (p.symbols.variableAt first).scope ≠ globalScope ∧
          p.slotOf first ≠ p.slotOf x) := by
  intro engine p m
  have hp : p.Sound := sound_ofTokens tokens settings host
  have hm : m.At (Stage.rest p) := (atRest_session hp outside visits).1.stays
  obtain ⟨homes, ok⟩ := Program.homed_ofTokens tokens
  have hfind := SymbolTable.findIn?_globalScope hx
  have hdeclares := ok.declares_of_findIn? hfind
  have hstatic : p.Static x := static_of_declares ok hdeclares
  have hthere : ∀ {y}, p.Static y → ∃ v, m.read? (.slot (p.slotOf y)) = some v := fun hy =>
    Option.isSome_iff_exists.mp (Machine.isSome_read? hm
      ((Stage.ready_rest p).good.solid_static (hp.slotOf_lt hy)) trivial)
  obtain ⟨first, hfirst, hname, hleast, hfound⟩ := exists_first_static hstatic hdeclares.2.2
  obtain ⟨told, htold⟩ := hthere hfirst
  obtain ⟨read, hread⟩ := hthere hstatic
  refine ⟨first, told, read, hfirst, hname, hleast, ?_, reads_static hfirst htold,
    reads_static hstatic hread, ?_⟩
  · show (p.symbols.statics.find? _).bind _ = _
    rw [hfound]
    exact htold
  · rcases Nat.eq_or_lt_of_le (hleast x hstatic hdeclares.2.2) with rfl | hlt
    · exact Or.inl ⟨rfl, Option.some.inj (htold.symm.trans hread)⟩
    · refine Or.inr ⟨hlt, fun hscope => ?_, fun hslot => ?_⟩
      · -- At the top itself, the name would lead to the earlier variable.
        have hearlier := ok.le_of_findIn? hfind ⟨hfirst.bound, hscope, hname⟩
        exact absurd hearlier (Nat.not_le.mpr hlt)
      · exact absurd (hp.slotOf_inj hfirst hstatic hslot) (Nat.ne_of_lt hlt)

/-- The number at a place, if there is one. -/
def integerAt (m : Machine σ) (place : Place) : Option Int64 :=
  match m.read? place with
  | some (.integer n) => some n
  | _ => none

theorem read?_of_integerAt {place : Place} {n : Int64} (h : integerAt m place = some n) :
    m.read? place = some (.integer n) := by
  unfold integerAt at h
  split at h
  · rename_i k hread
    rw [hread, Option.some.inj h]
  · cases h

/-- A block uses a name before the top does. -/
def reuseSource : String :=
  "If True Then
    Declare Integer n = 1
End If
Declare Integer n = 2
"

def reuse : Engine Buffer := ofTokens (scan reuseSource).1 {} (Buffer.host [])

/-- What has been run is what the host is told about. -/
theorem told_first_static_reuse :
    (Program.ofTokens (scan reuseSource).1).1.symbols.lookup? globalScope "n" = some 1 ∧
    ∃ told read, reuse.global? "n" (reuse.session ⟨{}, false⟩ [.program 9]).2 = some told ∧
      reuse.Reads (reuse.session ⟨{}, false⟩ [.program 9]).2 0 told ∧
      reuse.Reads (reuse.session ⟨{}, false⟩ [.program 9]).2 1 read := by
  have hname : (Program.ofTokens (scan reuseSource).1).1.symbols.lookup? globalScope "n" = some 1 := by
    decide +kernel
  have hzero : 0 < reuse.program.symbols.entries.size ∧
      (reuse.program.symbols.variableAt 0).storage = .static ∧
      (reuse.program.symbols.variableAt 0).name = "n" := by
    decide +kernel
  obtain ⟨first, told, read, -, -, hleast, htold, hfirst, hread, -⟩ :=
    told_first_static (scan reuseSource).1 {} (Buffer.host []) ⟨{}, false⟩ [.program 9] hname
  obtain rfl : first = 0 := Nat.le_zero.mp (hleast 0 ⟨hzero.1, hzero.2.1⟩ hzero.2.2)
  exact ⟨hname, told, read, htold, hfirst, hread⟩

/-- A program without a problem, in which the host is told 1 and a statement at the end reads 2. -/
theorem told_of_block :
    (∀ d ∈ (Program.ofSource reuseSource).2, d.isError = false) ∧
    reuse.program.symbols.lookup? globalScope "n" = some 1 ∧
    reuse.global? "n" (reuse.session ⟨{}, false⟩ [.program 9]).2 = some (.integer 1) ∧
    reuse.Reads (reuse.session ⟨{}, false⟩ [.program 9]).2 1 (.integer 2) := by
  have hall : (∀ d ∈ (Program.ofSource reuseSource).2, d.isError = false) ∧
      reuse.program.symbols.lookup? globalScope "n" = some 1 ∧
      (reuse.program.symbols.statics.find? fun v => v.name == "n").map (·.offset) = some 0 ∧
      (1 < reuse.program.symbols.entries.size ∧
        (reuse.program.symbols.variableAt 1).storage = .static) ∧
      integerAt (reuse.session ⟨{}, false⟩ [.program 9]).2 (.slot 0) = some 1 ∧
      integerAt (reuse.session ⟨{}, false⟩ [.program 9]).2
        (.slot (reuse.program.slotOf 1)) = some 2 := by
    decide +kernel
  obtain ⟨hsource, hname, hfirst, ⟨hbound, hstatic⟩, hone, htwo⟩ := hall
  refine ⟨hsource, hname, ?_, reads_static ⟨hbound, hstatic⟩ (read?_of_integerAt htwo)⟩
  obtain ⟨v, hv, hoffset⟩ := Option.map_eq_some_iff.mp hfirst
  rw [global?, hv, Option.bind_some, hoffset]
  exact read?_of_integerAt hone

/-! ### Fields -/

/-- Where a name leads that a class has for a field: `first` is the first field of the name and
`last` the last one. -/
structure FieldNamed (engine : Engine σ) (c : ClassId) (name : String) (first last : VarId) :
    Prop where
  declares : engine.program.symbols.Declares (engine.program.classDef c).scope name first ∧
    engine.program.symbols.Declares (engine.program.classDef c).scope name last
  between : ∀ x, engine.program.symbols.Declares (engine.program.classDef c).scope name x →
    first ≤ x ∧ x ≤ last
  /-- Inside a method that does not use the name for something else, it leads to the first field. -/
  bare : ∀ r < engine.program.routines.size, (engine.program.routine r).classId = some c →
    ∀ s, engine.program.symbols.Clear name (engine.program.routine r).scope s →
      engine.program.symbols.lookup? s name = some first
  placeBare : ∀ inner (m : Machine σ) ref span, m.this? = some ref →
    engine.place inner (.variableRef first name span) m =
      .ok (some (.field ref (engine.program.slotOf first),
        (engine.program.symbols.variableAt first).kind)) m
  /-- After an object, it leads to the last one. -/
  placeField : ∀ inner object span (m : Machine σ) v m' ref, inner.eval object m = .ok v m' →
    m'.heap.objectOf? v = some (ref, c) →
    engine.place inner (.field object name span) m =
      .ok (some (.field ref (engine.program.slotOf last),
        (engine.program.symbols.variableAt last).kind)) m'
  /-- The slot is the same if the class has the name only once. -/
  same : engine.program.slotOf first = engine.program.slotOf last ↔
    ∀ x, engine.program.symbols.Declares (engine.program.classDef c).scope name x → x = first

/-- A class lists what its scope declares, and knows the slots by name. -/
structure Lists (p : Program) (c : ClassId) : Prop where
  bound : c < p.classes.size
  fields : (p.classDef c).fields = (p.symbols.scopeAt (p.classDef c).scope).members.toList
  index : (p.classDef c).fieldIndex = Grammar.fieldSlots p.symbols (p.classDef c).fields

theorem lists_ofTokens (tokens : List Token) (hc : c < (Program.ofTokens tokens).1.classes.size) :
    Lists (Program.ofTokens tokens).1 c := by
  have hfinished := finished_readFrom tokens
  obtain ⟨homes, hsound⟩ := hfinished.sound
  obtain ⟨d, hd⟩ := Grammar.Reader.Finished.exists_get hc
  have hdef : (Program.ofTokens tokens).1.classDef c = d :=
    Grammar.Reader.Finished.classDef_eq hd
  refine ⟨hc, ?_, ?_⟩ <;> rw [hdef]
  · exact hfinished.fields hd
  · exact (hsound.classes.members c d hd).slots

section Fields

variable {p : Program} {c : ClassId} {name : String} {x : VarId} (hlists : Lists p c)
  {homes : List Home} {classScopes : Array ScopeId} (ok : p.symbols.Homed homes classScopes)

include hlists ok

theorem Lists.declares_iff : p.symbols.Declares (p.classDef c).scope name x ↔
    x ∈ (p.classDef c).fields ∧ (p.symbols.variableAt x).name = name := by
  rw [hlists.fields, Array.mem_toList_iff]
  exact ok.declares_iff

/-- A field stands in the list where its slot says. -/
theorem Lists.slot (hp : p.Sound) (hx : p.symbols.Declares (p.classDef c).scope name x) :
    (p.symbols.variableAt x).storage = .field ∧ (p.classDef c).fields[p.slotOf x]? = some x := by
  obtain ⟨k, hk⟩ := List.getElem?_of_mem ((hlists.declares_iff ok).mp hx).1
  obtain ⟨hstorage, hoffset⟩ := hp.fields c hlists.bound k x hk
  refine ⟨hstorage, ?_⟩
  rw [Program.slotOf, hoffset]
  exact hk

theorem Lists.slotOf_inj (hp : p.Sound) {y : VarId}
    (hx : p.symbols.Declares (p.classDef c).scope name x)
    (hy : p.symbols.Declares (p.classDef c).scope name y) (h : p.slotOf x = p.slotOf y) : x = y := by
  have hget := (hlists.slot ok hp hx).2
  rw [h, (hlists.slot ok hp hy).2] at hget
  exact (Option.some.inj hget).symm

/-- The index of a class leads to the last field of a name. -/
theorem Lists.exists_last (hx : p.symbols.Declares (p.classDef c).scope name x) :
    ∃ last, p.symbols.Declares (p.classDef c).scope name last ∧
      (∀ y, p.symbols.Declares (p.classDef c).scope name y → y ≤ last) ∧
      (p.classDef c).fieldIndex[name]? = some (p.slotOf last) := by
  obtain ⟨last, hlast⟩ : ∃ last, (p.classDef c).fields.reverse.find?
      (fun y => (p.symbols.variableAt y).name == name) = some last := by
    refine Option.isSome_iff_exists.mp (List.find?_isSome.mpr ⟨x, ?_, by simpa using hx.2.2⟩)
    exact List.mem_reverse.mpr ((hlists.declares_iff ok).mp hx).1
  have hordered : (p.classDef c).fields.reverse.Pairwise (· > ·) := by
    rw [hlists.fields]
    exact List.pairwise_reverse.mpr (ok.ordered _)
  refine ⟨last, ?_, fun y hy => ?_, ?_⟩
  · have hmem := List.mem_reverse.mp (List.mem_of_find?_eq_some hlast)
    exact (hlists.declares_iff ok).mpr ⟨hmem, by simpa using List.find?_some hlast⟩
  · rcases rel_of_find? hordered hlast (List.mem_reverse.mpr ((hlists.declares_iff ok).mp hy).1)
      (by simpa using hy.2.2) with rfl | hlt
    · exact Nat.le_refl _
    · exact Nat.le_of_lt hlt
  · rw [hlists.index, Grammar.Reader.getElem?_fieldSlots, hlast]
    rfl

end Fields

/-- A field that is mentioned is one of the object at hand. -/
theorem place_mention {ref : ObjectRef}
    (hx : (engine.program.symbols.variableAt x).storage = .field) (hthis : m.this? = some ref)
    (inner : Inner σ) (name : String) (span : Span) :
    engine.place inner (.variableRef x name span) m =
      .ok (some (.field ref (engine.program.slotOf x),
        (engine.program.symbols.variableAt x).kind)) m := by
  have hplace : m.placeOf (engine.program.symbols.variableAt x) =
      .ok (.field ref (engine.program.slotOf x)) := by
    unfold Machine.placeOf
    simp only [hx, hthis]
    rfl
  exact Run.bind_eq_ok.mpr ⟨_, m, Run.placeOf_ok hplace span, rfl⟩

/-- A field that an object is asked for is where the index of its class says. -/
theorem place_field {inner : Inner σ} {object : Expr} {m m' : Machine σ} {v : Value}
    {ref : ObjectRef} {slot : Nat} (hv : inner.eval object m = .ok v m')
    (hobject : m'.heap.objectOf? v = some (ref, c))
    (hslot : (engine.program.classDef c).fieldIndex[name]? = some slot)
    (hx : (engine.program.classDef c).fields[slot]? = some x) (span : Span) :
    engine.place inner (.field object name span) m =
      .ok (some (.field ref slot, (engine.program.symbols.variableAt x).kind)) m' := by
  have hfield : engine.fieldOf ref c name span m' =
      .ok (some (.field ref slot, (engine.program.symbols.variableAt x).kind)) m' := by
    have hget : (engine.program.classDef c).fields.getD slot 0 = x := by simp [List.getD, hx]
    simp only [fieldOf, hslot, hget]
    rfl
  refine Run.bind_eq_ok.mpr ⟨v, m', hv, Run.bind_eq_ok.mpr ⟨some (ref, c), m', ?_, hfield⟩⟩
  rw [← hobject]
  rfl

theorem Lists.exists_fieldNamed (hlists : Lists engine.program c) (hp : engine.program.Sound)
    {homes : List Home} {classScopes : Array ScopeId}
    (ok : engine.program.symbols.Homed homes classScopes)
    (hx : engine.program.symbols.Declares (engine.program.classDef c).scope name x) :
    ∃ first last, engine.FieldNamed c name first last := by
  obtain ⟨first, hfind⟩ := ok.exists_findIn? hx
  obtain ⟨last, hlast, hhigh, hindex⟩ := hlists.exists_last ok hx
  have hfirst := ok.declares_of_findIn? hfind
  have hlow := fun y hy => ok.le_of_findIn? (y := y) hfind hy
  refine ⟨first, last, ⟨hfirst, hlast⟩, fun y hy => ⟨hlow y hy, hhigh y hy⟩, ?_, ?_, ?_, ?_, ?_⟩
  · intro r hr hmethod s hclear
    obtain ⟨inside, haround, -⟩ := hp.bodies r hr
    obtain rfl := hp.around r hr inside haround c hmethod
    exact (ok.lookup?_of_clear hclear haround.2).trans (SymbolTable.lookup?_of_findIn? hfind)
  · exact fun inner m ref span hthis =>
      place_mention (hlists.slot ok hp hfirst).1 hthis inner name span
  · exact fun inner object span m v m' ref hv hobject =>
      place_field hv hobject hindex (hlists.slot ok hp hlast).2 span
  · intro hsame y hy
    have heq := hlists.slotOf_inj ok hp hfirst hlast hsame
    exact Nat.le_antisymm (heq ▸ hhigh y hy) (hlow y hy)
  · intro honce
    rw [honce last hlast]

/-- **A name that a class has for a field leads a method to the first field of it, and from an
object to the last one.** -/
theorem fields_by_name (tokens : List Token) (settings : Settings) (host : Host σ)
    {c : ClassId} (hc : c < (Program.ofTokens tokens).1.classes.size) {name : String} {x : VarId}
    (hx : (Program.ofTokens tokens).1.symbols.Declares
      ((Program.ofTokens tokens).1.classDef c).scope name x) :
    ∃ first last, (ofTokens tokens settings host).FieldNamed c name first last := by
  obtain ⟨homes, ok⟩ := Program.homed_ofTokens tokens
  have hlists : Lists (ofTokens tokens settings host).program c := lists_ofTokens tokens hc
  exact hlists.exists_fieldNamed (sound_ofTokens tokens settings host) ok hx

/-- A class has two fields of one name. -/
def twiceSource : String :=
  "Class C
    Integer f = 1
    Integer f = 2
    Function Integer get()
        Return f
    End Function
End Class
"

def twice : Engine Buffer := ofTokens (scan twiceSource).1 {} (Buffer.host [])

theorem fields_by_name_twice :
    twice.program.symbols.Declares (twice.program.classDef 0).scope "f" 0 ∧
      ∃ first last, twice.FieldNamed 0 "f" first last := by
  have hc : 0 < twice.program.classes.size := by decide +kernel
  have hx : twice.program.symbols.Declares (twice.program.classDef 0).scope "f" 0 := by
    unfold SymbolTable.Declares
    decide +kernel
  exact ⟨hx, fields_by_name (scan twiceSource).1 {} (Buffer.host []) hc hx⟩

/-- The method of the class reads the slot 0 under the name, and an object gives the slot 1. -/
theorem field_twice :
    (twice.program.routine 0).classId = some 0 ∧
    twice.program.symbols.Clear "f" (twice.program.routine 0).scope (twice.program.routine 0).scope ∧
    (twice.program.symbols.lookup? (twice.program.routine 0).scope "f").map twice.program.slotOf =
      some 0 ∧
    (twice.program.classDef 0).fieldIndex["f"]? = some 1 := by
  have hall : (twice.program.routine 0).classId = some 0 ∧
      twice.program.symbols.findIn? (twice.program.routine 0).scope "f" = none ∧
      (twice.program.symbols.lookup? (twice.program.routine 0).scope "f").map twice.program.slotOf =
        some 0 ∧
      (twice.program.classDef 0).fieldIndex["f"]? = some 1 := by
    decide +kernel
  exact ⟨hall.1, .self hall.2.1, hall.2.2⟩

end Engine

end Primer
