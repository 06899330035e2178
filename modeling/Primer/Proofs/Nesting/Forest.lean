/-
Regions of a program that have a scope of their own.

Blocks, routines and classes each open a scope.  A `Region` is one of them with the regions inside of it,
and `Region.openings` says which scopes a row of regions has and under which scopes they hang: that of a
block under the scope around it, that of a routine under the fields of the class around it, or else under
the global scope, that of a class always under the global scope.

The blocks of a statement form regions as well.  `Mirrors` says that they are the ones that were opened
while the statement was read.
-/
import Primer.Program
import Primer.Proofs.Tree.Parts

namespace Primer

/-- What opens a scope. -/
inductive RegionKind where
  | block
  | routine
  | classBody
  deriving DecidableEq

/-- The scope that the scope of a region hangs under, if `scope` is around the region and routines are
written in `around`. -/
def RegionKind.parent (scope around : ScopeId) : RegionKind → ScopeId
  | .block => scope
  | .routine => around
  | .classBody => SymbolTable.globalScope

/-- Where the routines inside of a region are written, if its scope is `own`. -/
def RegionKind.around (own around : ScopeId) : RegionKind → ScopeId
  | .block | .routine => around
  | .classBody => own

/-- A region with those inside of it. -/
inductive Region where
  | mk (kind : RegionKind) (inside : List Region)

namespace Region

def kind : Region → RegionKind
  | mk kind _ => kind

def inside : Region → List Region
  | mk _ inside => inside

/-- The scope of a region, and the one that it hangs under. -/
structure Opening where
  region : Region
  scope : ScopeId
  parent : ScopeId

mutual

/-- The scopes of a region and of all those inside of it in the order of their numbers, which go on
from `next`. -/
def openings (scope around next : ScopeId) : Region → List Opening
  | mk kind inside =>
    ⟨mk kind inside, next, kind.parent scope around⟩ ::
      openingsIn next (kind.around next around) (next + 1) inside

/-- The same for regions side by side. -/
def openingsIn (scope around next : ScopeId) : List Region → List Opening
  | [] => []
  | region :: rest =>
    let first := region.openings scope around next
    first ++ openingsIn scope around (next + first.length) rest

end

theorem openingsIn_append (scope around next : ScopeId) (regions more : List Region) :
    openingsIn scope around next (regions ++ more)
      = openingsIn scope around next regions
        ++ openingsIn scope around (next + (openingsIn scope around next regions).length) more := by
  induction regions generalizing next with
  | nil => rfl
  | cons region rest ih =>
    simp only [List.cons_append, openingsIn, ih, List.append_assoc, List.length_append, Nat.add_assoc]

theorem openingsIn_singleton (scope around next : ScopeId) (kind : RegionKind) (inside : List Region) :
    openingsIn scope around next [mk kind inside]
      = ⟨mk kind inside, next, kind.parent scope around⟩ ::
        openingsIn next (kind.around next around) (next + 1) inside := by
  simp [openingsIn, openings]

end Region

/-! ### The blocks of a statement -/

mutual

/-- The blocks of a statement, those inside of them with them. -/
def Stmt.regions : Stmt → List Region
  | .choose branches otherwise _ => Stmt.branchRegions branches ++ Stmt.optionRegions otherwise
  | .select _ cases otherwise _ => Stmt.caseRegions cases ++ Stmt.optionRegions otherwise
  | .whileLoop _ body _ => [Stmt.blockRegion body]
  | .doLoop body _ _ _ => [Stmt.blockRegion body]
  | .forLoop _ _ _ _ body _ => [Stmt.blockRegion body]
  | .forEach _ _ body _ => [Stmt.blockRegion body]
  | _ => []

def Stmt.blockRegion : Block Stmt → Region
  | ⟨statements, _⟩ => .mk .block (Stmt.regionsIn statements)

def Stmt.optionRegions : Option (Block Stmt) → List Region
  | none => []
  | some body => [Stmt.blockRegion body]

def Stmt.branchRegions : List (Branch Stmt) → List Region
  | [] => []
  | ⟨_, body⟩ :: rest => Stmt.blockRegion body :: Stmt.branchRegions rest

def Stmt.caseRegions : List (Case Stmt) → List Region
  | [] => []
  | ⟨_, body, _⟩ :: rest => Stmt.blockRegion body :: Stmt.caseRegions rest

def Stmt.regionsIn : List Stmt → List Region
  | [] => []
  | s :: rest => s.regions ++ Stmt.regionsIn rest

end

namespace Stmt

theorem regions_of_isSimple {s : Stmt} (h : s.isSimple) : s.regions = [] := by
  cases s <;> simp_all [isSimple, regions]

theorem branchRegions_append (branches more : List (Branch Stmt)) :
    branchRegions (branches ++ more) = branchRegions branches ++ branchRegions more := by
  induction branches with
  | nil => rfl
  | cons b rest ih => simp [branchRegions, ih]

theorem caseRegions_append (cases more : List (Case Stmt)) :
    caseRegions (cases ++ more) = caseRegions cases ++ caseRegions more := by
  induction cases with
  | nil => rfl
  | cons c rest ih => simp [caseRegions, ih]

theorem regionsIn_append (statements more : List Stmt) :
    regionsIn (statements ++ more) = regionsIn statements ++ regionsIn more := by
  induction statements with
  | nil => rfl
  | cons s rest ih => simp [regionsIn, ih]

end Stmt

/-! ### What was opened and what was kept -/

/-- The blocks `kept` are those among the regions `opened`: in any order, without the definitions
between them, and without those that were left out because of a flaw. -/
inductive Mirrors (flawed : Prop) : List Region → List Region → Prop
  | nil : Mirrors flawed [] []
  | block {inside inside' opened kept : List Region} (hinside : Mirrors flawed inside inside')
      (h : Mirrors flawed opened kept) :
      Mirrors flawed (.mk .block inside :: opened) (.mk .block inside' :: kept)
  | definition {region : Region} {opened kept : List Region} (hkind : region.kind ≠ .block)
      (h : Mirrors flawed opened kept) : Mirrors flawed (region :: opened) kept
  | order {opened kept kept' : List Region} (hperm : kept.Perm kept')
      (h : Mirrors flawed opened kept) : Mirrors flawed opened kept'
  | leftOut {region : Region} {opened kept : List Region} (hflawed : flawed)
      (h : Mirrors flawed opened (region :: kept)) : Mirrors flawed opened kept

namespace Mirrors

variable {flawed : Prop} {opened opened' kept kept' : List Region}

theorem append (h : Mirrors flawed opened kept) (h' : Mirrors flawed opened' kept') :
    Mirrors flawed (opened ++ opened') (kept ++ kept') := by
  induction h with
  | nil => exact h'
  | block hinside _ _ ih => exact .block hinside ih
  | definition hkind _ ih => exact .definition hkind ih
  | order hperm _ ih => exact .order (hperm.append_right _) ih
  | leftOut hflawed _ ih => exact .leftOut hflawed ih

/-- With a flaw, all may be left out but how a row of statements starts. -/
theorem leaveOut (hflawed : flawed) {more : List Region} (h : Mirrors flawed opened (kept ++ more)) :
    Mirrors flawed opened kept := by
  induction more with
  | nil => simpa using h
  | cons region rest ih =>
    exact ih (.leftOut hflawed (.order List.perm_middle h))

/-- With a flaw, everything may be left out. -/
theorem nothing (hflawed : flawed) : ∀ opened : List Region, Mirrors flawed opened []
  | [] => .nil
  | .mk .block inside :: rest =>
    .leftOut hflawed (.block (nothing hflawed inside) (nothing hflawed rest))
  | .mk .routine _ :: rest => .definition (by simp [Region.kind]) (nothing hflawed rest)
  | .mk .classBody _ :: rest => .definition (by simp [Region.kind]) (nothing hflawed rest)

end Mirrors

end Primer
