/-
Scalars and the texts that spell them.

An integer, a truth value and a character can be turned into a text and back.  For integers this
rests on what counts as the spelling of one: `Decimal.Spells` says it without the reader, by the
ways in which a number can be written down, and `readInteger?_eq_some` shows that the reader
accepts these and no others.  The test for integers, the conversion and the reading of input all go
through the reader, so they accept the same texts.
-/
import Mathlib.Data.List.Induction
import Primer.Proofs.Run.Ending

namespace Primer

/-! ### Spellings of integers -/

namespace Decimal

/-- A row of digits, and the number that it denotes. -/
inductive Row : List Char → Nat → Prop
  | one {d : Char} (hd : d.isDigit) : Row [d] (d.toNat - '0'.toNat)
  | more {ds : List Char} {n : Nat} {d : Char} (hds : Row ds n) (hd : d.isDigit) :
    Row (ds ++ [d]) (10 * n + (d.toNat - '0'.toNat))

/-- A row of digits, with or without a sign, and the number that it denotes. -/
inductive Spells : List Char → Int → Prop
  | bare {ds : List Char} {n : Nat} (h : Row ds n) : Spells ds n
  | plus {ds : List Char} {n : Nat} (h : Row ds n) : Spells ('+' :: ds) n
  | minus {ds : List Char} {n : Nat} (h : Row ds n) : Spells ('-' :: ds) (-n)

variable {cs ds : List Char} {n : Nat}

theorem Row.isDigit (h : Row ds n) : ∀ d ∈ ds, d.isDigit := by
  induction h with
  | one hd => simpa using hd
  | more _ hd ih =>
    intro d hmem
    rcases List.mem_append.mp hmem with hmem | hmem
    · exact ih d hmem
    · rwa [List.mem_singleton.mp hmem]

theorem Row.ne_nil (h : Row ds n) : ds ≠ [] := by
  cases h <;> simp

theorem Row.readDigits (h : Row ds n) : readDigits ds = n := by
  induction h with
  | one hd => simp [Decimal.readDigits, Nat.ofDigitChars_cons]
  | more _ _ ih =>
    rw [Decimal.readDigits] at ih ⊢
    rw [Nat.ofDigitChars_append, ih, Nat.ofDigitChars_cons, Nat.ofDigitChars_nil]

/-- One digit or more are a row. -/
theorem row_readDigits (hne : ds ≠ []) (hds : ∀ d ∈ ds, d.isDigit) : Row ds (readDigits ds) := by
  induction ds using List.reverseRecOn with
  | nil => exact absurd rfl hne
  | append_singleton ds d ih =>
    have hd : d.isDigit := hds d (by simp)
    have hvalue : readDigits (ds ++ [d]) = 10 * readDigits ds + (d.toNat - '0'.toNat) := by
      rw [readDigits, Nat.ofDigitChars_append, Nat.ofDigitChars_cons, Nat.ofDigitChars_nil,
        readDigits]
    rw [hvalue]
    rcases List.eq_nil_or_concat ds with rfl | ⟨_, _, rfl⟩
    · simpa [readDigits] using Row.one hd
    · exact .more (ih (by simp) fun c hc => hds c (List.mem_append_left _ hc)) hd

theorem readNat?_eq_some : readNat? ds = some n ↔ Row ds n := by
  unfold readNat?
  constructor
  · intro h
    split at h
    · rename_i hok
      simp only [Bool.and_eq_true, decide_eq_true_eq, List.all_eq_true] at hok
      rw [← Option.some.inj h]
      exact row_readDigits hok.1 hok.2
    · cases h
  · intro h
    rw [if_pos, h.readDigits]
    simp only [Bool.and_eq_true, decide_eq_true_eq, List.all_eq_true]
    exact ⟨h.ne_nil, h.isDigit⟩

theorem Row.readSign (h : Row ds n) : readSign ds = (false, ds) := by
  unfold Decimal.readSign
  split
  · exact absurd (h.isDigit '-' (by simp)) (by decide)
  · exact absurd (h.isDigit '+' (by simp)) (by decide)
  · rfl

/-- A spelling is a row of digits after the sign. -/
theorem spells_iff {k : Int} : Spells cs k ↔
    ∃ n : Nat, Row (readSign cs).2 n ∧ k = if (readSign cs).1 then -(n : Int) else n := by
  constructor
  · rintro (h | h | h)
    · exact ⟨_, by rwa [h.readSign], by simp [h.readSign]⟩
    · exact ⟨_, h, rfl⟩
    · exact ⟨_, h, rfl⟩
  · rintro ⟨n, hrow, rfl⟩
    unfold readSign at hrow ⊢
    split
    · exact .minus hrow
    · exact .plus hrow
    · exact .bare (by simpa using hrow)

theorem fits_iff {k : Int} : fits k ↔ (Int64.ofInt k).toInt = k := by
  have hlow := Int64.le_toInt (Int64.ofInt k)
  have hhigh := Int64.toInt_lt (Int64.ofInt k)
  simp only [fits, Bool.and_eq_true, decide_eq_true_eq]
  constructor
  · rintro ⟨hmin, hmax⟩
    exact Int64.toInt_ofInt_of_le (by simpa using hmin) (by simpa using Int.lt_add_one_of_le hmax)
  · intro h
    rw [h] at hlow hhigh
    omega

/-- **The reader accepts the spellings of the integers in its range, and nothing else.** -/
theorem readInteger?_eq_some {s : String} {k : Int64} :
    readInteger? s = some k ↔ Spells s.toList k.toInt := by
  rw [spells_iff]
  unfold readInteger?
  simp only [Option.bind_eq_bind, Option.bind_eq_some_iff, readNat?_eq_some,
    Option.ite_none_right_eq_some, Option.some.injEq]
  constructor
  · rintro ⟨n, hrow, hfits, rfl⟩
    exact ⟨n, hrow, fits_iff.mp hfits⟩
  · rintro ⟨n, hrow, heq⟩
    refine ⟨n, hrow, ?_⟩
    rw [← heq]
    exact ⟨fits_iff.mpr (by rw [Int64.ofInt_toInt]), Int64.ofInt_toInt k⟩

/-- The way in which a number is written is one of its spellings. -/
theorem spells_toString (k : Int) : Spells (toString k).toList k := by
  have hrow : ∀ n : Nat, Row (Nat.toDigits 10 n) n := fun n => by
    have hdigits : ∀ d ∈ Nat.toDigits 10 n, d.isDigit := fun d hd =>
      Nat.isDigit_of_mem_toDigits (by omega) (by omega) hd
    have hread : readDigits (Nat.toDigits 10 n) = n := Nat.ofDigitChars_ten_toDigits
    have hall := row_readDigits Nat.toDigits_ne_nil hdigits
    rwa [hread] at hall
  cases k with
  | ofNat n =>
    have htext : (toString (Int.ofNat n)).toList = Nat.toDigits 10 n := Nat.toList_repr
    rw [htext]
    exact .bare (hrow n)
  | negSucc n =>
    have htext : (toString (Int.negSucc n)).toList = '-' :: Nat.toDigits 10 (n + 1) := by
      show ("-" ++ Nat.repr (n + 1)).toList = _
      rw [String.toList_append, Nat.toList_repr]
      rfl
    rw [htext]
    exact .minus (hrow (n + 1))

end Decimal

/-! ### Blanks -/

namespace Text

theorem dropWhile_isBlank {cs : List Char} (h : ∀ c ∈ cs, isBlank c = false) :
    cs.dropWhile isBlank = cs := by
  cases cs with
  | nil => rfl
  | cons c rest => simp [h c (by simp)]

/-- A text without blanks is left alone. -/
theorem trim_eq_self {s : String} (h : ∀ c ∈ s.toList, isBlank c = false) : trim s = s := by
  unfold trim
  simp only [dropWhile_isBlank h]
  rw [dropWhile_isBlank fun c hc => h c (List.mem_reverse.mp hc), List.reverse_reverse,
    String.ofList_toList]

theorem isBlank_of_isDigit {c : Char} (h : c.isDigit) : isBlank c = false := by
  have hdigits : ∀ n < 58, 48 ≤ n → Ranges.search Blank.ranges n 0 Blank.ranges.size = false := by
    decide +kernel
  have hrange : 48 ≤ c.toNat ∧ c.toNat ≤ 57 := by
    simpa [Char.isDigit, UInt32.le_iff_toNat_le] using h
  exact hdigits c.toNat (by omega) hrange.1

end Text

/-- What spells an integer has no blanks in it. -/
theorem Decimal.Spells.isBlank {cs : List Char} {k : Int} (h : Spells cs k) :
    ∀ c ∈ cs, Text.isBlank c = false := by
  have hrow : ∀ {ds : List Char} {n : Nat}, Row ds n → ∀ c ∈ ds, Text.isBlank c = false :=
    fun h c hc => Text.isBlank_of_isDigit (h.isDigit c hc)
  rcases h with h | h | h
  · exact hrow h
  all_goals
    intro c hc
    rcases List.mem_cons.mp hc with rfl | hc
    · decide +kernel
    · exact hrow h c hc

/-! ### Through a text and back -/

namespace Value

open Decimal (Spells)

theorem convert_ok {v w : Value} {kind : Kind} :
    v.convert kind = .ok w ↔ v.convert? kind = some w := by
  unfold convert
  split <;> simp_all

/-- A text is an integer if that is what it spells when the blanks at its ends are gone. -/
theorem convert_integer {s : String} {w : Value} :
    (Value.text s).convert .integer = .ok w ↔
      ∃ k : Int64, w = .integer k ∧ Spells (Text.trim s).toList k.toInt := by
  rw [convert_ok]
  simp only [convert?, toInteger?, Option.map_eq_some_iff, Decimal.readInteger?_eq_some]
  exact exists_congr fun k => ⟨fun h => ⟨h.2.symm, h.1⟩, fun h => ⟨h.2, h.1.symm⟩⟩

/-- The value survives a trip through text. -/
def Survives (v : Value) : Prop :=
  ∃ s, v.convert .text = .ok (.text s) ∧ (Value.text s).convert v.kind = .ok v

theorem survives_integer (k : Int64) : (Value.integer k).Survives := by
  have hspells := Decimal.spells_toString k.toInt
  refine ⟨toString k.toInt, rfl, convert_integer.mpr ⟨k, rfl, ?_⟩⟩
  rwa [Text.trim_eq_self hspells.isBlank]

theorem survives_boolean (b : Bool) : (Value.boolean b).Survives := by
  have hread : (Value.text "True").toBoolean? = some true ∧
      (Value.text "False").toBoolean? = some false := by
    decide +kernel
  cases b with
  | true => exact ⟨"True", rfl, convert_ok.mpr (congrArg (Option.map Value.boolean) hread.1)⟩
  | false => exact ⟨"False", rfl, convert_ok.mpr (congrArg (Option.map Value.boolean) hread.2)⟩

theorem survives_character (c : Char) : (Value.character c).Survives := by
  refine ⟨String.singleton c, rfl, convert_ok.mpr ?_⟩
  simp [convert?, toCharacter?, kind]

end Value

/-! ### Three readers of integers -/

namespace Engine

open Decimal (Spells)
open Run

variable (engine : Engine σ)

/-- The text spells an integer, but for blanks at its ends. -/
def SpellsInteger (s : String) : Prop := ∃ k : Int64, Spells (Text.trim s).toList k.toInt

theorem isSome_readInteger? {s : String} :
    (Decimal.readInteger? (Text.trim s)).isSome ↔ SpellsInteger s := by
  simp only [Option.isSome_iff_exists, Decimal.readInteger?_eq_some, SpellsInteger]

theorem convert_of_not_spells {s : String} (h : ¬ SpellsInteger s) :
    (Value.text s).convert .integer = .error (.conversion .text .integer) := by
  cases hconvert : (Value.text s).convert .integer with
  | ok w =>
    obtain ⟨k, -, hk⟩ := Value.convert_integer.mp hconvert
    exact absurd ⟨k, hk⟩ h
  | error e =>
    unfold Value.convert at hconvert
    split at hconvert
    · cases hconvert
    · rw [← Except.error.inj hconvert]
      rfl

/-- One more problem is a change. -/
theorem problems_report_ne (m : Machine σ) (problem : Machine.Problem) (span : Span) :
    (m.report problem span).problems ≠ m.problems := by
  intro h
  have hsize := congrArg Array.size h
  simp [Machine.report] at hsize

/-- The test for integers says whether the text spells one. -/
theorem invoke_isInteger (s : String) (span : Span) (m : Machine σ) :
    engine.invokeOutside "isInteger" [.text s] span m =
      .ok (.boolean (Decimal.readInteger? (Text.trim s)).isSome) m :=
  rfl

/-- The conversion gives the integer, or reports that there is none. -/
theorem invoke_stringToInteger (s : String) (span : Span) (m : Machine σ) :
    engine.invokeOutside "stringToInteger" [.text s] span m =
      match (Value.text s).convert .integer with
      | .ok v => .ok v m
      | .error e => .ok (.integer 0) (m.report (.builtin "stringToInteger" e) span) := by
  have hname : Builtin.ofName? "stringToInteger" = some .stringToInteger := rfl
  have hrun : Builtin.run .stringToInteger m.heap [.text s] = (Value.text s).convert .integer := rfl
  simp only [invokeOutside, hname, invokeBuiltin, look, Bind.bind, EStateM.bind, hrun]
  cases (Value.text s).convert .integer <;> rfl

/-- A line of input is converted, or the problem is reported and zero is stored. -/
theorem input_integer {inner : Inner σ} {target : Expr} {m m' : Machine σ} {place : Place}
    {s : String} {outside : Outside σ}
    (hplace : engine.place inner target m = .ok (some (place, .integer)) m')
    (hline : engine.host.readLine m'.outside = (some s, outside)) (span : Span) :
    engine.input inner target span m =
      match (Value.text s).convert .integer with
      | .ok v => store place v { m' with outside }
      | .error e => store place (.integer 0) (Machine.report { m' with outside } (.value e) span) := by
  have hread : engine.input inner target span m =
      (coerce (.text s) .integer span >>= store place) { m' with outside } := by
    have hshared : (modifyGet fun m : Machine σ =>
        ((engine.host.readLine m.outside).1, { m with outside := (engine.host.readLine m.outside).2 }) :
          Run σ (Option String)) m' = .ok (some s) { m' with outside } := by
      show EStateM.Result.ok (engine.host.readLine m'.outside).1
        { m' with outside := (engine.host.readLine m'.outside).2 } = _
      rw [hline]
    exact (bind_of_ok hplace).trans (bind_of_ok hshared)
  rw [hread]
  simp only [coerce, orElse, Bind.bind, EStateM.bind]
  cases (Value.text s).convert .integer <;> rfl

theorem store_quiet (place : Place) (v : Value) (m : Machine σ) :
    ∃ m', store place v m = .ok () m' ∧ m'.problems = m.problems := by
  refine ⟨(m.turnTo place).write place v, rfl, ?_⟩
  obtain ⟨n, hn⟩ := m.turnTo_eq place
  rw [Machine.problems_write, hn]

/-- **Integers, truth values and characters survive a trip through text, a text is an integer if it
spells one, and the test, the conversion and the input of integers agree on which texts do.** -/
theorem scalars_through_text (engine : Engine σ) :
    (∀ v : Value, v.kind = .integer ∨ v.kind = .boolean ∨ v.kind = .character → v.Survives) ∧
    (∀ s w, (Value.text s).convert .integer = .ok w ↔
      ∃ k : Int64, w = .integer k ∧ Spells (Text.trim s).toList k.toInt) ∧
    ∀ s, ∃ accepted,
      (∀ span m, engine.invokeOutside "isInteger" [.text s] span m = .ok (.boolean accepted) m) ∧
      (accepted = true ↔ SpellsInteger s) ∧
      (∀ span m, ∃ v m', engine.invokeOutside "stringToInteger" [.text s] span m = .ok v m' ∧
        (m'.problems = m.problems ↔ accepted = true)) ∧
      ∀ inner target span m m' place outside,
        engine.place inner target m = .ok (some (place, .integer)) m' →
        engine.host.readLine m'.outside = (some s, outside) →
        ∃ m'', engine.input inner target span m = .ok () m'' ∧
          (m''.problems = m'.problems ↔ accepted = true) := by
  refine ⟨fun v hv => ?_, fun s w => Value.convert_integer, fun s =>
    ⟨(Decimal.readInteger? (Text.trim s)).isSome, engine.invoke_isInteger s, isSome_readInteger?, ?_⟩⟩
  · cases v with
    | integer k => exact Value.survives_integer k
    | boolean b => exact Value.survives_boolean b
    | character c => exact Value.survives_character c
    | _ => rcases hv with hv | hv | hv <;> cases hv
  · simp only [isSome_readInteger?]
    by_cases hs : SpellsInteger s
    · obtain ⟨k, hk⟩ := id hs
      have hconvert := Value.convert_integer.mpr ⟨k, rfl, hk⟩
      refine ⟨fun span m => ⟨_, m, by rw [invoke_stringToInteger, hconvert], by simp [hs]⟩, ?_⟩
      intro inner target span m m' place outside hplace hline
      obtain ⟨m'', hstore, hquiet⟩ := store_quiet place (.integer k) { m' with outside }
      refine ⟨m'', ?_, by simp [hquiet, hs]⟩
      rw [input_integer engine hplace hline, hconvert]
      exact hstore
    · have hconvert := convert_of_not_spells hs
      refine ⟨fun span m => ⟨_, _, by rw [invoke_stringToInteger, hconvert],
        by simp [hs, problems_report_ne]⟩, ?_⟩
      intro inner target span m m' place outside hplace hline
      obtain ⟨m'', hstore, hquiet⟩ := store_quiet place (.integer 0)
        (Machine.report { m' with outside } (.value (.conversion .text .integer)) span)
      refine ⟨m'', ?_, ?_⟩
      · rw [input_integer engine hplace hline, hconvert]
        exact hstore
      · rw [hquiet]
        exact iff_of_false (problems_report_ne { m' with outside } _ span) hs

end Engine

end Primer
