/-
The stack under any sequence of operations.

A run uses the stack in one way only: it pushes the arguments of a call, opens a frame over
them and closes it again.  This file asks what is left when cells are pushed, taken off and
written and frames are opened and closed in any order.  The main result is
`disciplined_after`: the statics are never lost, a new frame lies over its arguments, and
closing a frame undoes whatever has been done since its arguments were pushed, except for what
was written below them.

One fact carries the cells: an operation leaves a cell alone that is there before and after it,
unless it writes it.  A run of operations leaves it alone as long as it is there all the time,
and both for the statics and for the cells below a frame this is known from the size.
-/
import Mathlib.Data.List.Infix
import Primer.Stack

namespace Primer.Stack

/-! ### Operations -/

/-- What can be done to a stack. -/
inductive Operation where
  | push (c : Cell)
  | pop
  | write (slot : Nat) (c : Cell)
  | pushFrame (locals args : Nat)
  | popFrame

/-- The operation fills the slot. -/
def Operation.Writes (i : Nat) : Operation → Prop
  | .write slot _ => slot = i
  | _ => False

/-- The operation opens or closes a frame. -/
def Operation.Frames : Operation → Prop
  | .pushFrame .. | .popFrame => True
  | _ => False

def perform (s : Stack) : Operation → Stack
  | .push c => s.push c
  | .pop => (s.pop.map (·.2)).getD s
  | .write slot c => s.write slot c
  | .pushFrame locals args => s.pushFrame locals args
  | .popFrame => s.popFrame

/-- The stack after a sequence of operations. -/
def after (s : Stack) (operations : List Operation) : Stack := operations.foldl perform s

/-- Every frame that is opened is closed again, and no other one is. -/
inductive Nested : List Operation → Prop
  | nil : Nested []
  | single {op : Operation} {rest : List Operation} (h : ¬ op.Frames) (hrest : Nested rest) :
    Nested (op :: rest)
  | frame {locals args : Nat} {inside rest : List Operation} (hinside : Nested inside)
      (hrest : Nested rest) :
    Nested (.pushFrame locals args :: (inside ++ .popFrame :: rest))

variable {s : Stack} {n i : Nat} {op : Operation} {operations : List Operation}

@[simp] theorem after_cons : s.after (op :: operations) = (s.perform op).after operations := rfl

theorem after_append (before : List Operation) :
    s.after (before ++ operations) = (s.after before).after operations :=
  List.foldl_append

theorem perform_pop : s.perform .pop =
    if s.size ≤ s.statics then s else { s with cells := s.cells.pop } := by
  show (s.pop.map (·.2)).getD s = _
  unfold pop size
  split
  · rfl
  · have hback : s.cells.back? = some s.cells[s.cells.size - 1] := by
      rw [Array.back?_eq_getElem?]
      exact Array.getElem?_eq_getElem _
    simp [hback]

theorem popFrame_of_frames {saved : SavedFrame} {rest : List SavedFrame}
    (h : s.frames = saved :: rest) : s.popFrame =
      { s with cells := s.cells.shrink saved.start, base := saved.base, frames := rest } := by
  simp [popFrame, h]

/-! ### One operation -/

theorem getElem?_shrink_of_lt {cells : Array Cell} {size : Nat} (hi : i < size) :
    (cells.shrink size)[i]? = cells[i]? := by
  rw [Array.shrink_eq_take, Array.take_eq_extract, Array.getElem?_extract]
  split
  · simp
  · rw [Array.getElem?_eq_none (by omega)]

/-- The stack lies over its statics, and so does every frame of it. -/
structure Over (n : Nat) (s : Stack) : Prop where
  statics : s.statics = n
  size : n ≤ s.size
  starts : ∀ f ∈ s.frames, n ≤ f.start

theorem over_withStatics (n : Nat) : (withStatics n).Over n where
  statics := rfl
  size := by simp [withStatics, size]
  starts := by simp [withStatics]

theorem Over.perform (h : s.Over n) (op : Operation) : (s.perform op).Over n := by
  obtain ⟨hstatics, hsize, hstarts⟩ := h
  unfold Stack.size at hsize
  cases op with
  | push c => exact ⟨hstatics, by simp [Stack.perform, push, Stack.size]; omega, hstarts⟩
  | pop =>
    rw [perform_pop]
    split
    · exact ⟨hstatics, hsize, hstarts⟩
    · rename_i hmore
      unfold Stack.size at hmore
      exact ⟨hstatics, by simp [Stack.size]; omega, hstarts⟩
  | write slot c => exact ⟨hstatics, by simpa [Stack.perform, write, Stack.size] using hsize, hstarts⟩
  | pushFrame locals args =>
    refine ⟨hstatics, by simp [Stack.perform, pushFrame, Stack.size]; omega, fun f hf => ?_⟩
    rcases List.mem_cons.mp hf with rfl | hf
    · exact hstatics ▸ Nat.le_max_right _ _
    · exact hstarts f hf
  | popFrame =>
    show s.popFrame.Over n
    rcases hframes : s.frames with _ | ⟨saved, rest⟩
    · simpa [popFrame, hframes] using (⟨hstatics, hsize, hstarts⟩ : s.Over n)
    · rw [hframes] at hstarts
      rw [popFrame_of_frames hframes]
      refine ⟨hstatics, ?_, fun f hf => hstarts f (List.mem_cons_of_mem _ hf)⟩
      have hstart := hstarts saved List.mem_cons_self
      simp only [Stack.size, Array.size_shrink]
      omega

/-- A cell that is there before and after an operation changes only if it is written. -/
theorem read?_perform (hi : i < s.size) (hi' : i < (s.perform op).size) (h : ¬ op.Writes i) :
    (s.perform op).read? i = s.read? i := by
  unfold size at hi
  cases op with
  | push c => simp [perform, push, read?, Array.getElem?_push, Nat.ne_of_lt hi]
  | pop =>
    rw [perform_pop] at hi' ⊢
    split
    · rfl
    · rename_i hmore
      rw [if_neg hmore] at hi'
      simp only [size, Array.size_pop] at hi'
      simp [read?, hi']
  | write slot c => simp [perform, write, read?, Array.getElem?_setIfInBounds_ne h]
  | pushFrame locals args => simp [perform, pushFrame, read?, Array.getElem?_append_left hi]
  | popFrame =>
    change i < s.popFrame.size at hi'
    show s.popFrame.read? i = _
    rcases hframes : s.frames with _ | ⟨saved, rest⟩
    · simp [popFrame, hframes]
    · rw [popFrame_of_frames hframes] at hi' ⊢
      simp only [size, Array.size_shrink] at hi'
      exact getElem?_shrink_of_lt (by omega)

/-! ### Many operations -/

theorem Over.after (h : s.Over n) (operations : List Operation) : (s.after operations).Over n := by
  induction operations generalizing s with
  | nil => exact h
  | cons op rest ih => exact ih (h.perform op)

/-- A cell that is there all the time changes only if it is written. -/
theorem read?_after (hfloor : ∀ part, part <+: operations → i < (s.after part).size)
    (h : ∀ op ∈ operations, ¬ op.Writes i) : (s.after operations).read? i = s.read? i := by
  induction operations generalizing s with
  | nil => rfl
  | cons op rest ih =>
    have hrest : ∀ part, part <+: rest → i < ((s.perform op).after part).size := fun part hpart =>
      hfloor (op :: part) (List.cons_prefix_cons.mpr ⟨rfl, hpart⟩)
    rw [after_cons, ih hrest fun op' hop' => h op' (List.mem_cons_of_mem _ hop')]
    exact read?_perform (hfloor [] List.nil_prefix) (hrest [] List.nil_prefix)
      (h op List.mem_cons_self)

/-- Operations that open and close no frames leave the base and the frames alone. -/
theorem frames_perform (h : ¬ op.Frames) :
    (s.perform op).base = s.base ∧ (s.perform op).frames = s.frames := by
  cases op with
  | push c => exact ⟨rfl, rfl⟩
  | pop =>
    rw [perform_pop]
    split <;> exact ⟨rfl, rfl⟩
  | write slot c => exact ⟨rfl, rfl⟩
  | pushFrame locals args => exact absurd trivial h
  | popFrame => exact absurd trivial h

/-- **What is properly nested ends with the base and the frames that it began with.** -/
theorem Nested.frames_after (h : Nested operations) :
    (s.after operations).base = s.base ∧ (s.after operations).frames = s.frames := by
  induction h generalizing s with
  | nil => exact ⟨rfl, rfl⟩
  | single hop _ ih =>
    obtain ⟨hbase, hframes⟩ := frames_perform (s := s) hop
    rw [after_cons, ← hbase, ← hframes]
    exact ih
  | @frame locals args inside rest _ _ ihinside ihrest =>
    -- The frame that is closed is the one that was opened, since those inside are closed before.
    obtain ⟨-, hframes⟩ := ihinside (s := s.pushFrame locals args)
    have hclosed := popFrame_of_frames hframes
    rw [after_cons, after_append, after_cons]
    show ((((s.pushFrame locals args).after inside).popFrame.after rest).base = s.base) ∧
      ((((s.pushFrame locals args).after inside).popFrame.after rest).frames = s.frames)
    rw [hclosed]
    exact ihrest

/-! ### Frames -/

/-- Push cells, the last one on top. -/
def pushAll (s : Stack) (cells : List Cell) : Stack := cells.foldl push s

theorem pushAll_eq (s : Stack) (cells : List Cell) :
    s.pushAll cells = { s with cells := s.cells ++ cells.toArray } := by
  induction cells generalizing s with
  | nil => simp [pushAll]
  | cons c rest ih =>
    show (s.push c).pushAll rest = _
    rw [ih]
    simp [push]

/-- A frame has just been opened over `args`, which were pushed last, with `locals` slots. -/
structure Framed (locals : Nat) (args : List Cell) (t : Stack) : Prop where
  /-- All that lies on the stack can be got at, and nothing else. -/
  slots : ∀ offset slot, t.frameSlot? offset = some slot ↔
    (slot : Int) = t.base + offset ∧ -(t.base : Int) ≤ offset ∧ offset < locals
  locals : ∀ i < locals, (t.frameSlot? i).bind t.read? = some (.direct .null)
  args : ∀ i < args.length, (t.frameSlot? (-((i : Int) + 1))).bind t.read? = args.reverse[i]?

theorem framed_pushFrame (s : Stack) (locals : Nat) (args : List Cell) :
    ((s.pushAll args).pushFrame locals args.length).Framed locals args := by
  have hslots : ∀ (offset : Int) (slot : Nat),
      ((s.pushAll args).pushFrame locals args.length).frameSlot? offset = some slot ↔
        (slot : Int) = (s.cells.size + args.length : Nat) + offset ∧
          -((s.cells.size + args.length : Nat) : Int) ≤ offset ∧ offset < locals := by
    intro offset slot
    simp only [frameSlot?, pushAll_eq, pushFrame, Array.size_append, List.size_toArray,
      Array.size_replicate, Bool.and_eq_true, decide_eq_true_eq]
    split
    · simp only [Option.some.injEq]
      omega
    · simp only [reduceCtorEq, false_iff]
      omega
  have hbase : ((s.pushAll args).pushFrame locals args.length).base =
      s.cells.size + args.length := by
    simp [pushAll_eq, pushFrame]
  refine ⟨by rwa [hbase], fun i hi => ?_, fun i hi => ?_⟩
  · rw [(hslots i (s.cells.size + args.length + i)).mpr ⟨by omega, by omega, by omega⟩]
    simp only [Option.bind_some, read?, pushAll_eq, pushFrame]
    rw [Array.getElem?_append_right (by simp), Array.getElem?_replicate, if_pos (by simp; omega)]
    rfl
  · rw [(hslots (-((i : Int) + 1)) (s.cells.size + (args.length - 1 - i))).mpr
      ⟨by omega, by omega, by omega⟩]
    simp only [Option.bind_some, read?, pushAll_eq, pushFrame]
    rw [Array.getElem?_append_left (by simp; omega), Array.getElem?_append_right (by omega),
      List.getElem?_reverse hi]
    simp

/-- The stack `u` is `s` cut down to `kept` cells, but for what was written since. -/
structure Restored (s : Stack) (kept : Nat) (since : List Operation) (u : Stack) : Prop where
  base : u.base = s.base
  frames : u.frames = s.frames
  depth : u.depth = s.depth
  size : u.size = kept
  cells : ∀ i < kept, (∀ op ∈ since, ¬ op.Writes i) → u.read? i = s.read? i

/-- Closing a frame undoes what is properly nested in it, if the stack was never lower than where
the arguments of the frame start. -/
theorem restored_popFrame (locals args : Nat) {inside : List Operation} (hinside : Nested inside)
    (hstart : max (s.size - args) s.statics ≤ s.size)
    (hfloor : ∀ part, part <+: inside →
      max (s.size - args) s.statics ≤ ((s.pushFrame locals args).after part).size) :
    s.Restored (max (s.size - args) s.statics) inside
      ((s.pushFrame locals args).after inside).popFrame := by
  obtain ⟨-, hframes⟩ := hinside.frames_after (s := s.pushFrame locals args)
  have hsize := hfloor inside List.prefix_rfl
  have hclosed : ((s.pushFrame locals args).after inside).popFrame =
      { (s.pushFrame locals args).after inside with
        cells := ((s.pushFrame locals args).after inside).cells.shrink
          (max (s.size - args) s.statics)
        base := s.base
        frames := s.frames } :=
    popFrame_of_frames hframes
  rw [hclosed]
  refine ⟨rfl, rfl, rfl, ?_, fun i hi hwrites => ?_⟩
  · simp only [size, Array.size_shrink] at hsize ⊢
    omega
  · have hkept : ((s.pushFrame locals args).after inside).read? i =
        (s.pushFrame locals args).read? i :=
      read?_after (fun part hpart => Nat.lt_of_lt_of_le hi (hfloor part hpart)) hwrites
    have hopened : (s.perform (.pushFrame locals args)).read? i = s.read? i :=
      read?_perform (by omega) (Nat.lt_of_lt_of_le hi (hfloor [] List.nil_prefix)) (fun h => h)
    exact (getElem?_shrink_of_lt hi).trans (hkept.trans hopened)

/-! ### Discipline -/

/-- What holds of a stack over `n` statics, whatever was done to it. -/
structure Disciplined (n : Nat) (s : Stack) : Prop where
  size : n ≤ s.size
  /-- Only what writes a static changes it. -/
  statics : ∀ i < n, ∀ op : Operation, ¬ op.Writes i → (s.perform op).read? i = s.read? i
  opened : ∀ locals args, ((s.pushAll args).pushFrame locals args.length).Framed locals args
  /-- Closing a frame leads back to where its arguments start. -/
  closed : ∀ locals args inside, Nested inside →
    (∀ part, part <+: inside →
      max (s.size - args) n ≤ ((s.pushFrame locals args).after part).size) →
    s.Restored (max (s.size - args) n) inside ((s.pushFrame locals args).after inside).popFrame
  /-- So it leads back to the stack before the arguments were pushed. -/
  undone : ∀ locals args inside, Nested inside →
    (∀ part, part <+: inside →
      s.size ≤ (((s.pushAll args).pushFrame locals args.length).after part).size) →
    s.Restored s.size inside
      (((s.pushAll args).pushFrame locals args.length).after inside).popFrame

/-- **Whatever is done to a stack, its statics stay, frames lie over their arguments, and closing a
frame restores what was there before.** -/
theorem disciplined_after (n : Nat) (operations : List Operation) :
    ((withStatics n).after operations).Disciplined n := by
  have hover := (over_withStatics n).after operations
  generalize (withStatics n).after operations = s at hover
  refine ⟨hover.size, fun i hi op hop => ?_, fun locals args => framed_pushFrame s locals args,
    fun locals args inside hinside hfloor => ?_, fun locals args inside hinside hfloor => ?_⟩
  · exact read?_perform (Nat.lt_of_lt_of_le hi hover.size)
      (Nat.lt_of_lt_of_le hi (hover.perform op).size) hop
  · rw [← hover.statics] at hfloor ⊢
    refine restored_popFrame locals args hinside ?_ hfloor
    have := hover.size
    have := hover.statics
    omega
  · have hsize : (s.pushAll args).size = s.size + args.length := by
      simp [pushAll_eq, Stack.size]
    have hstart : max ((s.pushAll args).size - args.length) (s.pushAll args).statics = s.size := by
      rw [hsize, pushAll_eq, hover.statics]
      have := hover.size
      omega
    have hrestored := restored_popFrame (s := s.pushAll args) locals args.length hinside
      (by omega) (by rwa [hstart])
    rw [hstart] at hrestored
    refine ⟨?_, ?_, ?_, hrestored.size, fun i hi hwrites => ?_⟩
    · rw [hrestored.base, pushAll_eq]
    · rw [hrestored.frames, pushAll_eq]
    · rw [hrestored.depth, pushAll_eq, depth, depth]
    · rw [hrestored.cells i hi hwrites, pushAll_eq]
      exact Array.getElem?_append_left hi

/-- A call within a call, in which the static is written. -/
theorem disciplined_after_calls :
    (withStatics 1).Restored 1
      [.push default, .pushFrame 2 1, .pop, .popFrame, .write 0 (.direct (.integer 5))]
      ((((withStatics 1).pushAll [default, default]).pushFrame 1 2).after
        [.push default, .pushFrame 2 1, .pop, .popFrame,
          .write 0 (.direct (.integer 5))]).popFrame := by
  refine (disciplined_after 1 []).undone 1 [default, default] _ ?_ fun part hpart => ?_
  · have hpop : Nested [.pop] := .single (fun h => h) .nil
    have hwrite : Nested [.write 0 (.direct (.integer 5))] := .single (fun h => h) .nil
    exact .single (fun h => h) (.frame hpop hwrite)
  · rw [← List.mem_inits] at hpart
    revert part
    decide +kernel

end Primer.Stack
