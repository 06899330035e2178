/-
Where a program points.

Every span that comes with a program is one that a reader can point at: the span of a token, the place
just after one, or what covers two such.  Tokens lie in the source text, on single lines, so every
span starts in the text, ends at most one character behind it, and names the line that it starts on.
-/
import Mathlib.Order.MinMax
import Primer.Proofs.Account.Program
import Primer.Proofs.Program.Reading
import Primer.Proofs.Token.Lines

namespace Primer

/-- The span lies in the text or just behind it, and its line is the one that it starts on. -/
structure Span.Within (text : List Char) (s : Span) : Prop where
  ordered : s.start ≤ s.stop
  start : s.start ≤ text.length
  stop : s.stop ≤ text.length + 1
  line : s.line = 1 + (text.take s.start).count '\n'

namespace Span

variable {text : List Char} {a b : Span}

theorem OnLine.within (h : a.OnLine text) : a.Within text :=
  ⟨h.ordered, Nat.le_trans h.ordered h.inside, Nat.le_succ_of_le h.inside, h.starts⟩

/-- Just behind what lies on a single line, the line is the same. -/
theorem OnLine.after (h : a.OnLine text) : Within text ⟨a.stop, a.stop + 1, a.line⟩ :=
  ⟨Nat.le_succ _, h.inside, Nat.succ_le_succ h.inside, h.stops⟩

/-- Lines are counted upwards. -/
theorem monotone_line (text : List Char) : Monotone fun position => 1 + (text.take position).count '\n' :=
  fun _ _ h => Nat.add_le_add_left ((List.take_sublist_take_left h).count_le _) 1

theorem Within.cover (ha : a.Within text) (hb : b.Within text) : (a.cover b).Within text where
  ordered := Nat.le_trans (Nat.min_le_left _ _) (Nat.le_trans ha.ordered (Nat.le_max_left _ _))
  start := Nat.le_trans (Nat.min_le_left _ _) ha.start
  stop := Nat.max_le.mpr ⟨ha.stop, hb.stop⟩
  line := by
    show min a.line b.line = 1 + (text.take (min a.start b.start)).count '\n'
    rw [ha.line, hb.line]
    exact ((monotone_line text).map_min).symm

end Span

namespace Grammar

variable {text : List Char} {tokens : Array Token} {flawed : Prop}

theorem Place.within (htokens : ∀ t ∈ tokens, t.span.OnLine text) {s : Span} (h : Place tokens s) :
    s.Within text := by
  induction h with
  | token h => exact (htokens _ h).within
  | after h => exact (htokens _ h).after
  | cover _ _ iha ihb => exact iha.cover ihb

/-! ### Checks of the whole program -/

namespace Reader

variable {r : Reader}

theorem place_checkType {name : String} {span : Span} (hspan : Place tokens span) :
    ∀ found ∈ r.checkType name span, Place tokens found.2 := by
  unfold checkType
  split <;> simp [hspan]

theorem place_checkPlaces {name : String} {position : Nat} {params : List VarId}
    {args : List (Bool × Span)} (hargs : ∀ arg ∈ args, Place tokens arg.2) :
    ∀ found ∈ r.checkPlaces name position params args, Place tokens found.2 := by
  fun_induction checkPlaces r name position params args with
  | case1 position param params isPlace span args v later hplace ih =>
    obtain ⟨hspan, hargs⟩ := List.forall_mem_cons.mp hargs
    exact List.forall_mem_cons.mpr ⟨hspan, ih hargs⟩
  | case2 position param params isPlace span args v later hplace ih =>
    exact ih (List.forall_mem_cons.mp hargs).2
  | case3 => simp

theorem place_checkArguments {id : RoutineId} {call : PendingCall} (hspan : Place tokens call.span)
    (hargs : ∀ arg ∈ call.args, Place tokens arg.2) :
    ∀ found ∈ r.checkArguments id call, Place tokens found.2 := by
  unfold checkArguments
  extract_lets params signature
  split
  · exact place_checkPlaces hargs
  · simpa using hspan

theorem place_checkCall {call : PendingCall} (hspan : Place tokens call.span)
    (hargs : ∀ arg ∈ call.args, Place tokens arg.2) :
    ∀ found ∈ r.checkCall call, Place tokens found.2 := by
  have harguments : ∀ id, ∀ found ∈ r.checkArguments id call, Place tokens found.2 :=
    fun id => place_checkArguments hspan hargs
  unfold checkCall checkOutside
  split
  · split
    · simp
    · split
      · exact harguments _
      · split <;> simp [hspan]
  · split
    · simp
    · split
      · exact harguments _
      · simp [hspan]
  · split
    · exact harguments _
    · split
      · simp [hspan]
      · split <;> simp [hspan]

theorem Grounded.place_checkMain (h : r.Grounded tokens flawed) (hsound : r.RoutinesSound) :
    ∀ found ∈ r.checkMain, Place tokens found.2 := by
  unfold checkMain
  split
  · simp
  · rename_i id hid
    obtain ⟨routine, hroutine, -⟩ := hsound.index _ _ hid
    have hmain : r.routines.getD id default = routine := by
      rw [Array.getD_eq_getD_getElem?, hroutine, Option.getD_some]
    have hplace := (h.routines routine (Array.mem_of_getElem? hroutine)).1
    simp only [hmain]
    split <;> simp [hplace]

/-- What is wrong with the whole program is wrong at a place that was noted while reading. -/
theorem Grounded.place_unresolved (h : r.Grounded tokens flawed) (hsound : r.RoutinesSound) :
    ∀ found ∈ r.unresolved, Place tokens found.2 := by
  intro found hfound
  rcases List.mem_append.mp hfound with hfound | hfound
  · rcases List.mem_append.mp hfound with hfound | hfound
    · obtain ⟨⟨name, span⟩, hpending, hfound⟩ := List.mem_flatMap.mp hfound
      have hplace : Place tokens span := h.pendingTypes _ (Array.mem_toList_iff.mp hpending)
      exact place_checkType hplace found hfound
    · obtain ⟨call, hpending, hfound⟩ := List.mem_flatMap.mp hfound
      obtain ⟨hspan, hargs⟩ := h.pendingCalls call (Array.mem_toList_iff.mp hpending)
      exact place_checkCall hspan hargs found hfound
  · exact h.place_checkMain hsound found hfound

/-- A text has its end marked when it has been scanned. -/
theorem closeTokens_scan (source : String) : closeTokens (scan source).1.toArray = (scan source).1.toArray := by
  have hlast : (scan source).1.toArray.back?.map Token.kind = some .endOfInput := by
    simp [scan, Scan.finish, Scan.emit]
  unfold closeTokens
  cases hback : (scan source).1.toArray.back? with
  | none => simp [hback] at hlast
  | some last =>
    rw [hback] at hlast
    simp only [Option.getD_some]
    rw [if_pos (by simpa using hlast)]

end Reader

end Grammar

/-! ### Programs -/

/-- All spans of a program. -/
structure Program.EachSpan (S : Span → Prop) (p : Program) : Prop where
  statements : ∀ s ∈ p.statements, s.Each (fun e => S e.span) S
  entries : ∀ v ∈ p.symbols.entries, S v.span
  routines : ∀ routine ∈ p.routines,
    S routine.span ∧ Stmt.EachBlock (fun e => S e.span) S routine.body
  classes : ∀ c ∈ p.classes,
    S c.span ∧ ∀ d ∈ c.fieldDeclarations, d.Each (fun e => S e.span) S

namespace Program

open Grammar

theorem eachSpan_ofReader {tokens : Array Token} {flawed : Prop} {S : Span → Prop}
    {statements : List Stmt} {r : Reader} (hS : ∀ s, Grammar.Place tokens s → S s)
    (hr : r.Grounded tokens flawed) (hstatements : GroundedStatements tokens flawed statements) :
    (ofReader statements r).EachSpan S where
  statements := fun s hs => Stmt.Each.mono (fun _ he => hS _ he.span) hS s (hstatements s hs)
  entries := fun v hv => hS _ (hr.entries v hv)
  routines := fun routine hroutine => ⟨hS _ (hr.routines routine hroutine).1,
    Stmt.EachBlock.mono (fun _ he => hS _ he.span) hS _ (hr.routines routine hroutine).2⟩
  classes := fun c hc => ⟨hS _ (hr.classes c hc).1, fun d hd =>
    Declaration.Each.mono (fun _ he => hS _ he.span) hS ((hr.classes c hc).2 d hd)⟩

/-- Every token of a source text, everything in its program and everything that is wrong with it stands
at a place of the text, on the line that it says. -/
theorem spans_within (source : String) :
    (∀ t ∈ (scan source).1, t.span.Within source.toList) ∧
      (ofSource source).1.EachSpan (Span.Within source.toList) ∧
      ∀ d ∈ (ofSource source).2, d.span.Within source.toList := by
  have htokens := onLine_scan source
  refine ⟨fun t ht => (htokens t ht).within, ?_⟩
  obtain ⟨statements, r, hread, -, hgrounded⟩ := programStatements_grounded (scan source).1
  obtain ⟨hr, hstatements⟩ := hgrounded True fun _ => trivial
  have hwithin : ∀ s, Grammar.Place (Reader.ofTokens (scan source).1).tokens s →
      s.Within source.toList := by
    refine fun s hs => hs.within fun t ht => htokens t ?_
    unfold Reader.ofTokens at ht
    simpa [Reader.closeTokens_scan] using ht
  have hsound : r.RoutinesSound := by
    have hfinished := finished_readFrom (scan source).1
    unfold readFrom at hfinished
    rw [hread] at hfinished
    obtain ⟨homes, hsound⟩ := hfinished.sound
    exact hsound.routines
  rw [ofSource_eq, ofTokens_eq hread]
  refine ⟨eachSpan_ofReader hwithin hr hstatements, fun d hd => ?_⟩
  rcases List.mem_append.mp (List.mem_mergeSort.mp hd) with hd | hd
  · exact (onLine_scan_problems source d hd).within
  · obtain ⟨found, hfound, rfl⟩ := List.mem_map.mp (List.mem_mergeSort.mp hd)
    refine hwithin found.2 ?_
    rcases List.mem_append.mp hfound with hfound | hfound
    · exact hr.problems found (Array.mem_toList_iff.mp hfound)
    · exact hr.place_unresolved hsound found hfound

end Program

end Primer
