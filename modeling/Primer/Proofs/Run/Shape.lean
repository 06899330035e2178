/-
The shape of a stack: its frames, and which of its cells stand for other places.

While code runs it fills cells with values, and it opens frames and closes them again.  It
never makes a cell that holds a value stand for another place, nor the other way round, so
between the opening and the closing of a frame the shape stays the same.  Everything that
decides which cells some code can write to, and that aliases lead downward to a value in one
step, is a fact about the shape alone.
-/
import Mathlib.Tactic.Common
import Primer.Machine

namespace Primer

/-- The place that a cell stands for; none when it holds a value. -/
def Cell.alias? : Cell → Option Place
  | .direct _ => none
  | .alias place => some place

/-- What a stack has besides the values in its cells. -/
structure Shape where
  /-- What each cell stands for, from the bottom up. -/
  aliases : Array (Option Place)
  base : Nat
  frames : List SavedFrame
  statics : Nat
  deriving DecidableEq

def Stack.shape (s : Stack) : Shape := ⟨s.cells.map Cell.alias?, s.base, s.frames, s.statics⟩

namespace Shape

def size (h : Shape) : Nat := h.aliases.size

/-- Where the frame at hand starts; above the statics when there is none. -/
def top (h : Shape) : Nat := (h.frames.head?.map (·.start)).getD h.statics

/-- The cell holds a value. -/
def Direct (h : Shape) (i : Nat) : Prop := h.aliases[i]? = some none

/-- The start of the innermost frame that the cell belongs to. -/
def frameStart? (h : Shape) (i : Nat) : Option Nat :=
  (h.frames.find? fun f => f.start ≤ i).map (·.start)

/-- The cells that the code at hand can get at: the statics, its own frame, and what its
parameters stand for. -/
def Reach (h : Shape) (i : Nat) : Prop :=
  i < h.statics ∨ h.top ≤ i ∨ ∃ u, h.top ≤ u ∧ h.aliases[u]? = some (some (.slot i))

/-- The code at hand can get at the place, and a value is stored there. -/
def Solid (h : Shape) : Place → Prop
  | .slot i => h.Reach i ∧ h.Direct i
  | .element .. | .field .. => True

/-- **Aliases lead downward, out of their frame, to a value.** -/
structure Good (h : Shape) : Prop where
  statics : h.statics ≤ h.size
  starts : ∀ f ∈ h.frames, h.statics ≤ f.start ∧ f.start ≤ h.size
  nested : h.frames.Pairwise fun inside outside => outside.start ≤ inside.start
  aliases : ∀ (t : Nat) place, h.aliases[t]? = some (some place) →
    ∃ start, h.frameStart? t = some start ∧ ∀ s, place = .slot s → s < start ∧ h.Direct s

variable {h : Shape} {i : Nat}

theorem Good.top_le (good : h.Good) : h.top ≤ h.size := by
  unfold top
  cases hf : h.frames with
  | nil => exact good.statics
  | cons f rest => exact (good.starts f (by simp [hf])).2

/-- The frame at hand is above the statics. -/
theorem Good.statics_le_top (good : h.Good) : h.statics ≤ h.top := by
  unfold top
  cases hf : h.frames with
  | nil => exact Nat.le_refl _
  | cons f rest => exact (good.starts f (by simp [hf])).1

/-- No frame starts above the frame at hand. -/
theorem Good.frameStart_le_top (good : h.Good) {u start : Nat} (hstart : h.frameStart? u = some start) :
    start ≤ h.top := by
  obtain ⟨f, hfind, rfl⟩ := Option.map_eq_some_iff.mp hstart
  have hmem := List.mem_of_find?_eq_some hfind
  have hnested := good.nested
  unfold top
  cases hf : h.frames with
  | nil => simp [hf] at hmem
  | cons first rest =>
    rw [hf] at hmem hnested
    rcases List.mem_cons.mp hmem with rfl | hmem
    · exact Nat.le_refl _
    · exact (List.pairwise_cons.mp hnested).1 f hmem

theorem lt_size_of_direct (hd : h.Direct i) : i < h.size :=
  (Array.getElem?_eq_some_iff.mp hd).1

theorem Good.direct_static (good : h.Good) (hi : i < h.statics) : h.Direct i := by
  have hget := Array.getElem?_eq_getElem (Nat.lt_of_lt_of_le hi good.statics)
  unfold Direct
  rw [hget]
  congr
  -- A cell that stands for a place belongs to a frame, and frames lie above the statics.
  by_contra hne
  obtain ⟨place, hplace⟩ := Option.ne_none_iff_exists'.mp hne
  rw [hplace] at hget
  obtain ⟨start, hstart, -⟩ := good.aliases i place hget
  obtain ⟨f, hfind, -⟩ := Option.map_eq_some_iff.mp hstart
  have hle : f.start ≤ i := by simpa using List.find?_some hfind
  have := (good.starts f (List.mem_of_find?_eq_some hfind)).1
  omega

theorem Good.solid_static (good : h.Good) (hi : i < h.statics) : h.Solid (.slot i) :=
  ⟨Or.inl hi, good.direct_static hi⟩

/-- What a cell of the frame at hand stands for. -/
theorem Good.solid_alias (good : h.Good) {u : Nat} {place : Place} (hu : h.top ≤ u)
    (hget : h.aliases[u]? = some (some place)) : h.Solid place := by
  obtain ⟨start, -, hslot⟩ := good.aliases u place hget
  cases place with
  | slot s => exact ⟨Or.inr (Or.inr ⟨u, hu, hget⟩), (hslot s rfl).2⟩
  | element ref offset => trivial
  | field ref offset => trivial

/-! ### Opening a frame -/

/-- The shape with one more frame, over these arguments. -/
def enter (h : Shape) (args : List Cell) (locals : Nat) : Shape where
  aliases := h.aliases ++ (args.reverse.map Cell.alias?).toArray ++ Array.replicate locals none
  base := h.size + args.length
  frames := ⟨h.base, h.size⟩ :: h.frames
  statics := h.statics

variable {args : List Cell} {locals : Nat}

@[simp] theorem size_enter : (h.enter args locals).size = h.size + args.length + locals := by
  simp [enter, size, Nat.add_assoc]

theorem aliases_enter_lt (hi : i < h.size) :
    (h.enter args locals).aliases[i]? = h.aliases[i]? := by
  unfold size at hi
  simp only [enter]
  rw [Array.getElem?_append_left (by simp; omega), Array.getElem?_append_left hi]

/-- The arguments lie in reverse, the first one on top. -/
theorem aliases_enter_arg (hi : i < args.length) :
    (h.enter args locals).aliases[h.size + args.length - (i + 1)]? = args[i]?.map Cell.alias? := by
  unfold size
  simp only [enter]
  rw [Array.getElem?_append_left (by simp; omega), Array.getElem?_append_right (by omega)]
  have hindex : h.aliases.size + args.length - (i + 1) - h.aliases.size = args.length - 1 - i := by
    omega
  rw [hindex, List.getElem?_toArray, List.getElem?_map, List.getElem?_reverse (by omega)]
  congr 2
  omega

theorem direct_enter_local (hi : i < locals) :
    (h.enter args locals).Direct (h.size + args.length + i) := by
  unfold Direct size
  simp only [enter]
  rw [Array.getElem?_append_right (by simp [Nat.add_assoc]), Array.getElem?_replicate, if_pos]
  simp only [Array.size_append, List.size_toArray, List.length_map, List.length_reverse]
  omega

theorem direct_enter (hd : h.Direct i) : (h.enter args locals).Direct i := by
  unfold Direct
  rw [aliases_enter_lt (lt_size_of_direct hd)]
  exact hd

/-- A new cell that stands for a place is one of the arguments. -/
theorem mem_args_of_aliases_enter {u : Nat} {place : Place} (hu : h.size ≤ u)
    (hget : (h.enter args locals).aliases[u]? = some (some place)) : .alias place ∈ args := by
  have hlt : u < h.size + args.length := by
    by_contra hge
    have hsize : u < (h.enter args locals).size := (Array.getElem?_eq_some_iff.mp hget).1
    rw [size_enter] at hsize
    have hdirect : (h.enter args locals).Direct
        (h.size + args.length + (u - (h.size + args.length))) := direct_enter_local (by omega)
    unfold Direct at hdirect
    rw [show h.size + args.length + (u - (h.size + args.length)) = u by omega, hget] at hdirect
    simp at hdirect
  obtain ⟨i, hi, rfl⟩ : ∃ i, i < args.length ∧ u = h.size + args.length - (i + 1) :=
    ⟨h.size + args.length - u - 1, by omega, by omega⟩
  rw [aliases_enter_arg hi] at hget
  obtain ⟨cell, hcell, halias⟩ := Option.map_eq_some_iff.mp hget
  cases cell with
  | direct v => simp [Cell.alias?] at halias
  | «alias» p =>
    obtain rfl : p = place := by simpa [Cell.alias?] using halias
    exact List.mem_of_getElem? hcell

/-- A frame may be opened over arguments that stand for values further down. -/
theorem Good.enter (good : h.Good) (hargs : ∀ s, .alias (.slot s) ∈ args → h.Direct s) :
    (h.enter args locals).Good where
  statics := by
    rw [size_enter]
    exact Nat.le_trans good.statics (by omega)
  starts := by
    intro f hf
    rw [size_enter]
    rcases List.mem_cons.mp hf with rfl | hf
    · exact ⟨good.statics, by show h.size ≤ _; omega⟩
    · obtain ⟨hlow, hhigh⟩ := good.starts f hf
      exact ⟨hlow, by omega⟩
  nested := List.Pairwise.cons (fun f hf => (good.starts f hf).2) good.nested
  aliases := by
    intro t place hget
    rcases Nat.lt_or_ge t h.size with hlt | hge
    · -- An old cell belongs to the frame that it belonged to before.
      rw [aliases_enter_lt hlt] at hget
      obtain ⟨start, hstart, hslot⟩ := good.aliases t place hget
      refine ⟨start, ?_, fun s hs => ⟨(hslot s hs).1, direct_enter (hslot s hs).2⟩⟩
      show ((⟨h.base, h.size⟩ :: h.frames).find? fun f => f.start ≤ t).map (·.start) = some start
      rw [List.find?_cons_of_neg (by simpa using hlt)]
      exact hstart
    · refine ⟨h.size, ?_, fun s hs => ?_⟩
      · show ((⟨h.base, h.size⟩ :: h.frames).find? fun f => f.start ≤ t).map (·.start) = _
        rw [List.find?_cons_of_pos (by simpa using hge)]
        rfl
      · subst hs
        have hd := hargs s (mem_args_of_aliases_enter hge hget)
        exact ⟨lt_size_of_direct hd, direct_enter hd⟩

/-- What the code of a frame can get at. -/
theorem reach_enter (hreach : (h.enter args locals).Reach i) :
    i < h.statics ∨ h.size ≤ i ∨ .alias (.slot i) ∈ args := by
  rcases hreach with hstatic | hframe | ⟨u, hu, hget⟩
  · exact Or.inl hstatic
  · exact Or.inr (Or.inl hframe)
  · exact Or.inr (Or.inr (mem_args_of_aliases_enter hu hget))

end Shape

/-! ### Stacks of a shape -/

namespace Stack

variable {s : Stack} {h : Shape} {args : List Cell} {locals : Nat} {i : Nat}

theorem aliases_shape (s : Stack) (i : Nat) :
    s.shape.aliases[i]? = s.cells[i]?.map Cell.alias? := by
  simp [shape]

theorem size_shape (s : Stack) : s.shape.size = s.size := by
  simp [shape, Shape.size, size]

theorem direct_iff : s.shape.Direct i ↔ ∃ v, s.cells[i]? = some (.direct v) := by
  unfold Shape.Direct
  rw [aliases_shape]
  constructor
  · intro hd
    obtain ⟨cell, hcell, halias⟩ := Option.map_eq_some_iff.mp hd
    cases cell with
    | direct v => exact ⟨v, hcell⟩
    | «alias» p => simp [Cell.alias?] at halias
  · rintro ⟨v, hv⟩
    rw [hv]
    rfl

theorem alias_iff {place : Place} :
    s.shape.aliases[i]? = some (some place) ↔ s.cells[i]? = some (.alias place) := by
  rw [aliases_shape]
  constructor
  · intro ha
    obtain ⟨cell, hcell, halias⟩ := Option.map_eq_some_iff.mp ha
    cases cell with
    | direct v => simp [Cell.alias?] at halias
    | «alias» other =>
      obtain rfl : other = place := by simpa [Cell.alias?] using halias
      exact hcell
  · intro hcell
    rw [hcell]
    rfl

/-- A place that holds a value is meant by itself. -/
theorem follow_direct (hd : s.shape.Direct i) (n : Nat) :
    s.follow n (.slot i) = .slot i := by
  obtain ⟨v, hv⟩ := direct_iff.mp hd
  cases n with
  | zero => rfl
  | succ n => simp [follow, read?, hv]

/-- So is a place that the code at hand can get at. -/
theorem follow_solid {place : Place} (hp : s.shape.Solid place) (n : Nat) :
    s.follow n place = place := by
  cases place with
  | slot i => exact follow_direct hp.2 n
  | element ref offset => cases n <;> rfl
  | field ref offset => cases n <;> rfl

/-- Filling a cell that holds a value keeps the shape. -/
theorem shape_write (hd : s.shape.Direct i) (v : Value) :
    (s.write i (.direct v)).shape = s.shape := by
  obtain ⟨old, hold⟩ := direct_iff.mp hd
  have hcells : (s.cells.setIfInBounds i (.direct v)).map Cell.alias? = s.cells.map Cell.alias? := by
    refine Array.ext_getElem? fun j => ?_
    rw [Array.getElem?_map, Array.getElem?_map, Array.getElem?_setIfInBounds]
    split
    · rename_i heq
      subst heq
      rw [if_pos (Array.getElem?_eq_some_iff.mp hold).1, hold]
      rfl
    · rfl
  simp only [shape, write, hcells]

theorem cells_write_ne {i j : Nat} (hne : i ≠ j) (c : Cell) :
    (s.write i c).cells[j]? = s.cells[j]? := by
  simp [write, hne]

theorem foldl_push (cells : List Cell) (s : Stack) :
    cells.foldl push s = { s with cells := s.cells ++ cells.toArray } := by
  induction cells generalizing s with
  | nil => simp
  | cons c rest ih => simp [ih, push]

theorem shape_popFrame (hs : s.shape = h.enter args locals) : s.popFrame.shape = h := by
  have hframes : s.frames = ⟨h.base, h.size⟩ :: h.frames := congrArg Shape.frames hs
  have haliases : s.cells.map Cell.alias? = _ := congrArg Shape.aliases hs
  have hstatics : s.statics = h.statics := congrArg Shape.statics hs
  have hcells : (s.cells.shrink h.size).map Cell.alias? = h.aliases := by
    rw [Array.shrink_eq_take, Array.take_eq_extract, Array.map_extract, haliases]
    simp [Shape.enter, Shape.size]
  simp only [popFrame, hframes, shape, hcells, hstatics]

theorem cells_popFrame (hs : s.shape = h.enter args locals) (hi : i < h.size) :
    s.popFrame.cells[i]? = s.cells[i]? := by
  have hframes : s.frames = ⟨h.base, h.size⟩ :: h.frames := congrArg Shape.frames hs
  simp only [popFrame, hframes, Array.shrink_eq_take, Array.take_eq_extract]
  rw [Array.getElem?_extract]
  have hsize : h.size ≤ s.cells.size := by
    have hshape := s.size_shape
    rw [hs, Shape.size_enter] at hshape
    unfold Stack.size at hshape
    omega
  rw [if_pos (by omega), Nat.zero_add]

/-- The place that the cell of a parameter by reference leads to. -/
def led (s : Stack) (slot : Nat) : Place :=
  match s.read? slot with
  | some (.alias place) => place
  | _ => .slot slot

theorem led_eq (s : Stack) (slot : Nat) :
    s.led slot = (s.shape.aliases[slot]?).join.getD (.slot slot) := by
  rw [aliases_shape]
  unfold led read?
  cases s.cells[slot]? with
  | none => rfl
  | some c => cases c <;> rfl

end Stack

namespace Machine

variable {m : Machine σ} {this : Option ObjectRef} {args : List Cell} {locals : Nat}

theorem shape_enter (hs : m.stack.statics ≤ m.stack.size) :
    (m.enter this args locals).stack.shape = m.stack.shape.enter args locals := by
  have hstart : max m.stack.cells.size m.stack.statics = m.stack.cells.size := by
    unfold Stack.size at hs
    omega
  simp only [enter, Stack.foldl_push, Stack.pushFrame, Stack.shape, Shape.enter, Shape.size]
  simp [hstart, Cell.alias?, default]

theorem cells_enter {i : Nat} (hi : i < m.stack.size) :
    (m.enter this args locals).stack.cells[i]? = m.stack.cells[i]? := by
  unfold Stack.size at hi
  simp only [enter, Stack.foldl_push, Stack.pushFrame]
  rw [Array.getElem?_append_left (by simp; omega), Array.getElem?_append_left hi]

/-- Turning to a place changes nothing but the count of what is missing. -/
theorem turnTo_eq (m : Machine σ) (place : Place) : ∃ n, m.turnTo place = { m with misses := n } := by
  unfold turnTo
  split
  · exact ⟨m.misses, rfl⟩
  · exact ⟨m.misses + 1, rfl⟩

theorem placeOf_refArgument {v : Variable} (hv : v.storage = .refArgument) :
    m.placeOf v = (m.frameSlot v).map m.stack.led := by
  simp only [placeOf, hv]
  cases m.frameSlot v with
  | error problem => rfl
  | ok slot =>
    simp only [Bind.bind, Except.bind, Except.map, Stack.led]
    cases m.stack.read? slot with
    | none => rfl
    | some c => cases c <;> rfl

/-- Why a variable is nowhere. -/
theorem placeOf_error_cases {v : Variable} {problem : Problem} (h : m.placeOf v = .error problem) :
    problem = .outsideFrame v.name v.offset ∨ problem = .fieldOutsideObject v.name := by
  have hframe : ∀ other, m.frameSlot v = .error other → other = .outsideFrame v.name v.offset := by
    intro other hother
    unfold frameSlot at hother
    split at hother <;> cases hother
    rfl
  cases hstorage : v.storage with
  | static =>
    simp only [placeOf, hstorage] at h
    cases h
  | field =>
    simp only [placeOf, hstorage] at h
    split at h <;> cases h
    exact Or.inr rfl
  | refArgument =>
    rw [placeOf_refArgument hstorage] at h
    cases hslot : m.frameSlot v with
    | ok slot => rw [hslot] at h; cases h
    | error other => rw [hslot] at h; cases h; exact Or.inl (hframe _ hslot)
  | frame | argument =>
    simp only [placeOf, hstorage] at h
    cases hslot : m.frameSlot v with
    | ok slot => rw [hslot] at h; cases h
    | error other => rw [hslot] at h; cases h; exact Or.inl (hframe _ hslot)

end Machine

end Primer
