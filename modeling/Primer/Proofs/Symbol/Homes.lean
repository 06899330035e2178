/-
Scopes and the definitions they belong to.

While a program is read, every scope belongs to one definition, its home: the blocks of a
routine to the routine, the field scope of a class to the class, and all other blocks to
the program itself.  The table does not record homes, so they are given beside it, as a
list with one home for each scope.  `Homed` says how scopes, variables and homes fit
together.  Its main consequence is `seen_of_lookup?`: whatever a lookup finds from a scope
may be mentioned at the home of that scope.
-/
import Mathlib.Tactic.Common
import Primer.Symbol.Layout
import Primer.Proofs.Program.Addressing

namespace Primer

/-- The home around a home: a routine stands in its class, a class in the program. -/
def Home.around? : Home → Option Home
  | none => none
  | some (.classBody _) => some none
  | some (.routine _ none) => some none
  | some (.routine _ (some c)) => some (some (.classBody c))

namespace Variable.Beside

variable {v w : Variable}

theorem symm (h : v.Beside w) : w.Beside v := by
  rcases h with ⟨hv, hw⟩ | ⟨⟨hv, hw⟩ | ⟨hv, hw⟩, hr⟩
  · exact Or.inl ⟨hw, hv⟩
  · exact Or.inr ⟨Or.inl ⟨hw, hv⟩, hr.symm⟩
  · exact Or.inr ⟨Or.inr ⟨hw, hv⟩, hr.symm⟩

theorem static (h : v.Beside w) (hw : w.storage = .static) : v.storage = .static := by
  simpa [Beside, IsArgument, hw] using h

theorem frame (h : v.Beside w) (hw : w.storage = .frame) :
    v.storage = .frame ∧ v.routine = w.routine := by
  simpa [Beside, IsArgument, hw] using h

theorem argument (h : v.Beside w) (hw : w.IsArgument) : v.IsArgument ∧ v.routine = w.routine := by
  rcases hw with hw | hw <;> simpa [Beside, IsArgument, hw] using h

end Variable.Beside

/-- The variable may be mentioned at `home`.  Classes are known by their field scopes. -/
def Variable.SeenFrom (classScopes : Array ScopeId) (home : Home) (v : Variable) : Prop :=
  match v.storage with
  | .static => True
  | .field => ∃ c, home.fields? = some c ∧ classScopes[c]? = some v.scope
  | .frame | .argument | .refArgument => ∃ r, home.routine? = some r ∧ v.routine = some r

/-- Going inward, nothing is lost from sight. -/
theorem Variable.SeenFrom.inward {classScopes : Array ScopeId} {home outer : Home} {v : Variable}
    (h : v.SeenFrom classScopes outer) (ha : home.around? = some outer) :
    v.SeenFrom classScopes home := by
  unfold Variable.SeenFrom at h ⊢
  cases hs : v.storage <;> simp only [hs] at h ⊢
  case field =>
    obtain ⟨c, hc, hscope⟩ := h
    refine ⟨c, ?_, hscope⟩
    cases home with
    | none => simp [Home.around?] at ha
    | some d =>
      cases d with
      | classBody _ => simp [Home.around?] at ha; subst ha; simp [Home.fields?] at hc
      | routine _ inside =>
        cases inside with
        | none => simp [Home.around?] at ha; subst ha; simp [Home.fields?] at hc
        | some _ => simp [Home.around?] at ha; subst ha; simpa [Home.fields?] using hc
  -- What lives in a frame is never seen from the homes around a routine.
  all_goals
    obtain ⟨r, hr, -⟩ := h
    cases home with
    | none => simp [Home.around?] at ha
    | some d =>
      cases d with
      | classBody _ => simp [Home.around?] at ha; subst ha; simp [Home.routine?] at hr
      | routine _ inside =>
        cases inside <;> (simp [Home.around?] at ha; subst ha; simp [Home.routine?] at hr)

theorem Variable.SeenFrom.moreClasses {known known' : Array ScopeId} {home : Home} {v : Variable}
    (h : v.SeenFrom known home) (hk : ∀ (c : Nat) s, known[c]? = some s → known'[c]? = some s) :
    v.SeenFrom known' home := by
  unfold Variable.SeenFrom at h ⊢
  split at h
  · trivial
  · obtain ⟨c, hc, hs⟩ := h
    exact ⟨c, hc, hk c _ hs⟩
  all_goals exact h

/-! ### Tables -/

namespace SymbolTable

/-- The table fits the homes of its scopes. -/
structure Homed (homes : List Home) (classScopes : Array ScopeId) (t : SymbolTable) : Prop where
  size : homes.length = t.scopes.size
  root : homes[globalScope]? = some none
  /-- Parents come first, and their home is the same or the one around. -/
  parents : ∀ s q, (t.scopeAt s).parent = some q → q < s ∧
    (homes[q]? = homes[s]? ∨ ∃ h, homes[s]? = some h ∧ h.around? = homes[q]?)
  /-- A scope lists exactly the variables that name it as theirs. -/
  listed : ∀ s id, id ∈ (t.scopeAt s).members ↔
    id < t.entries.size ∧ (t.variableAt id).scope = s
  ordered : ∀ s, (t.scopeAt s).members.toList.Pairwise (· < ·)
  placed : ∀ id < t.entries.size, (t.variableAt id).scope < t.scopes.size
  seen : ∀ id < t.entries.size, ∀ h, homes[(t.variableAt id).scope]? = some h →
    (t.variableAt id).SeenFrom classScopes h
  statics : ∀ id < t.entries.size, (t.variableAt id).storage = .static →
    0 ≤ (t.variableAt id).offset ∧ (t.variableAt id).offset < t.staticCount
  locals : ∀ id < t.entries.size, (t.variableAt id).storage = .frame →
    0 ≤ (t.variableAt id).offset
  /-- No two variables of one part of the stack share an offset. -/
  apart : ∀ id < t.entries.size, ∀ id' < t.entries.size,
    (t.variableAt id).Beside (t.variableAt id') →
    (t.variableAt id).offset = (t.variableAt id').offset → id = id'
  classHomes : ∀ (c : Nat) (s : Nat), classScopes[c]? = some s ↔ homes[s]? = some (some (.classBody c))
  /-- The field scope of a class lists its fields by their slots. -/
  fields : ∀ (c : Nat) s, classScopes[c]? = some s → ∀ (k : Nat) id,
    (t.scopeAt s).members[k]? = some id →
      (t.variableAt id).storage = .field ∧ (t.variableAt id).offset = k

variable {homes : List Home} {classScopes : Array ScopeId} {t : SymbolTable}

theorem mem_of_findIn? {scope : ScopeId} {name : String} {id : VarId}
    (h : t.findIn? scope name = some id) : id ∈ (t.scopeAt scope).members :=
  Array.mem_of_find?_eq_some h

/-- **Whatever a lookup finds may be mentioned at the home it starts from.** -/
theorem Homed.seen_of_lookup? (ok : t.Homed homes classScopes) {scope : ScopeId} {name : String}
    {id : VarId} {home : Home} (hhome : homes[scope]? = some home)
    (h : t.lookup? scope name = some id) :
    id < t.entries.size ∧ (t.variableAt id).SeenFrom classScopes home := by
  -- The lookup goes outward through the parents, so the induction follows it.
  induction scope using Nat.strongRecOn generalizing home with
  | ind scope ih =>
    unfold lookup? at h
    split at h
    · rename_i found hfind
      obtain rfl : found = id := by simpa using h
      obtain ⟨hlt, hscope⟩ := (ok.listed scope found).mp (mem_of_findIn? hfind)
      exact ⟨hlt, ok.seen found hlt home (by rw [hscope]; exact hhome)⟩
    · split at h
      · rename_i parent hparent
        obtain ⟨hlt, hhomes⟩ := ok.parents scope parent hparent
        rw [if_pos hlt] at h
        rcases hhomes with hsame | ⟨inner, hinner, haround⟩
        · exact ih parent hlt (by rw [hsame]; exact hhome) h
        · obtain rfl : inner = home := by simpa [hinner] using hhome
          cases hq : homes[parent]? with
          | none =>
            have hs : scope < homes.length := (List.getElem?_eq_some_iff.mp hhome).1
            exact absurd (List.getElem?_eq_none_iff.mp hq) (Nat.not_le.mpr (Nat.lt_trans hlt hs))
          | some outer =>
            obtain ⟨hid, hseen⟩ := ih parent hlt hq h
            exact ⟨hid, hseen.inward (by rw [haround, hq])⟩
      · simp at h

end SymbolTable

end Primer
