import SweepCharts.Proofs.Number.Decimal
import SweepCharts.Proofs.Sweep.Dump
import SweepCharts.Proofs.Sweep.RowUsability

set_option autoImplicit false

/-! # What fills a column of integers

A column of integers takes integers of 64 bits, also if they are written as decimals. The range of a
decimal is checked by its absolute value, which has to be below `2 ^ 63`, so the smallest integer is
taken without a point only.

* `toInt?_eq_some`: the integer that a cell counts for.
* `ofText_toString`, `ofText_pointZero`: the two ways to write an integer.
* `filled_ofRow`, `setAside_ofRow`: what a record makes of the cell of an integer column.
* `whole_column_takes_integers`: so which cells fill a column of integers.
-/

namespace SweepCharts

theorem fits64_iff {n : Int} : fits64 n = true ↔ -2 ^ 63 ≤ n ∧ n < 2 ^ 63 := by
  simp only [fits64, Bool.and_eq_true, decide_eq_true_eq]
  rw [pow2_eq]
  omega

namespace Cell

/-- The cell is a number with the value of an integer. -/
inductive HasValue : Cell → Int → Prop where
  | int (n : Int) : HasValue (int n) n
  | float {x : Binary64} {n : Int} (h : x.HasValue n) : HasValue (float x) n

/-- The cell is a number. -/
def IsNumber : Cell → Prop
  | text _ => False
  | _ => True

variable {cell : Cell} {n : Int}

theorem hasValue_int {m : Int} : (int m).HasValue n ↔ m = n := by
  constructor
  · rintro ⟨⟩
    rfl
  · rintro rfl
    exact .int m

theorem hasValue_float {x : Binary64} : (float x).HasValue n ↔ x.HasValue n := by
  constructor
  · rintro ⟨⟩
    assumption
  · exact .float

theorem not_hasValue_text {s : String} : ¬ (text s).HasValue n := nofun

/-- **The integer that a cell counts for.** The smallest one counts only if it has no point. -/
theorem toInt?_eq_some (hcell : cell.Storable) : cell.toInt? = some n ↔
    cell.HasValue n ∧ -2 ^ 63 ≤ n ∧ n < 2 ^ 63 ∧ (n = -2 ^ 63 → cell = .int n) := by
  cases cell with
  | int m =>
    have hfits := fits64_iff.1 hcell
    rw [hasValue_int]
    simp only [toInt?, Option.some.injEq, int.injEq]
    omega
  | float x =>
    unfold toInt?
    rw [Option.filter_eq_some_iff, Binary64.toInt?_eq_some, hasValue_float, decide_eq_true_eq,
      pow2_eq]
    refine and_congr_right fun _ => ?_
    simp only [reduceCtorEq, imp_false]
    omega
  | text s => simp [toInt?, not_hasValue_text]

/-! ## The texts of an integer -/

theorem isBlankChar_of_isDigit {c : Char} (h : c.isDigit = true) : isBlankChar c = false := by
  have hbounds : 48 ≤ c.toNat ∧ c.toNat ≤ 57 := Char.isDigit_iff_toNat.1 h
  simp only [isBlankChar, Bool.or_eq_false_iff, Bool.and_eq_false_iff, decide_eq_false_iff_not]
  omega

theorem trimmed_of_within {text : String} (h : Within (isBlankChar · = false) text) :
    trimmed text = text.toList := by
  have hkeep (chars : List Char) (hchars : ∀ c ∈ chars, isBlankChar c = false) :
      chars.dropWhile isBlankChar = chars := by
    cases chars with
    | nil => rfl
    | cons c chars => rw [List.dropWhile_cons_of_neg (by simp [hchars c (.head _)])]
  unfold trimmed trimBoth
  rw [hkeep _ h, hkeep _ fun c hc => h c (List.mem_reverse.1 hc), List.reverse_reverse]

theorem within_toString (n : Int) : Within (isBlankChar · = false) (toString n) :=
  within_toString_int (fun _ => isBlankChar_of_isDigit) (by decide) n

/-- An integer as it is. -/
theorem ofText_toString (hlow : -2 ^ 63 ≤ n) (hhigh : n < 2 ^ 63) :
    ofText (toString n) = .int n := by
  unfold ofText
  rw [trimmed_of_within (within_toString n)]
  dsimp only
  rw [readInteger?_toString, Option.filter_some, if_pos (fits64_iff.2 ⟨hlow, hhigh⟩)]

/-- An integer with a point and a zero, if a double has its value. -/
theorem ofText_pointZero {x : Binary64} (h : x.HasValue n) :
    ∃ y : Binary64, y.HasValue n ∧ ofText (toString n ++ ".0") = .float y := by
  have htext : trimmed (toString n ++ ".0") = (toString n ++ ".0").toList :=
    trimmed_of_within (within_append.2 ⟨within_toString n, by decide⟩)
  have hvalue := Decimal.hasValue_toBinary64 n h
  refine ⟨_, hvalue, ?_⟩
  unfold ofText
  rw [htext]
  dsimp only
  rw [readInteger?_pointZero, Option.filter_none, Binary64.read?, Decimal.read?_pointZero]
  dsimp only
  rw [Option.filter_some, if_pos hvalue.1]

end Cell

/-! ## The cell of an integer column -/

namespace Record

/-- The column holds an integer. -/
def Filled (r : Record) (name : String) (n : Int) : Prop :=
  (name, .whole (some n)) ∈ r.fields ∧ r.invalid.get? name = none

/-- The column is empty, and the cell is kept beside it. -/
def SetAside (r : Record) (name : String) (cell : Cell) : Prop :=
  (name, .whole none) ∈ r.fields ∧ r.invalid.get? name = some cell

end Record

section
variable {origin : Origin} {row : Columns String} {c : Column} {text : String}

theorem field_of_isWhole (hwhole : c.isWhole = true) (hcell : row.get? c.name = some text) :
    (Record.ofRow origin row).field c = .whole (Cell.ofText text).toInt? := by
  rw [Record.ofRow, field_ofCells, Columns.get?_map, hcell, Column.read, if_pos hwhole]
  rfl

theorem isInvalidFor_of_isWhole (hwhole : c.isWhole = true) {cell : Cell} (hcell : cell.IsNumber) :
    cell.isInvalidFor c.name = cell.toInt?.isNone := by
  have hblank : cell.isBlank = false := by
    cases cell with
    | text s => exact hcell.elim
    | _ => rfl
  rw [Cell.isInvalidFor_name, hblank, Column.convert, if_pos hwhole, Option.isNone_map]
  rfl

theorem filled_ofRow (hwhole : c.isWhole = true) (hcell : row.get? c.name = some text)
    (hnumber : (Cell.ofText text).IsNumber) {n : Int} :
    (Record.ofRow origin row).Filled c.name n ↔ (Cell.ofText text).toInt? = some n := by
  rw [Record.Filled, mem_fields, field_of_isWhole hwhole hcell, get?_invalid_ofRow origin hcell,
    isInvalidFor_of_isWhole hwhole hnumber]
  cases (Cell.ofText text).toInt? <;> simp [eq_comm]

theorem setAside_ofRow (hwhole : c.isWhole = true) (hcell : row.get? c.name = some text)
    (hnumber : (Cell.ofText text).IsNumber) :
    (Record.ofRow origin row).SetAside c.name (Cell.ofText text) ↔
      (Cell.ofText text).toInt? = none := by
  rw [Record.SetAside, mem_fields, field_of_isWhole hwhole hcell, get?_invalid_ofRow origin hcell,
    isInvalidFor_of_isWhole hwhole hnumber]
  cases (Cell.ofText text).toInt? <;> simp

end

/-- A column of the header that is not one of doubles. -/
theorem exists_whole_column {name : String} (hheader : name ∈ header) (hwhole : name ∉ realNames) :
    ∃ c : Column, c.isWhole = true ∧ c.name = name := by
  obtain ⟨c, hc⟩ := Option.isSome_iff_exists.1 (mem_header.1 hheader)
  obtain rfl := Column.ofName?_eq_some.1 hc
  rw [mem_realNames, Bool.not_eq_false] at hwhole
  exact ⟨c, hwhole, rfl⟩

/-- **A column of integers takes the integers of 64 bits.** A cell that is a number fills it with
its value if that is an integer in the range, and is set aside otherwise; but a decimal with the
value of the smallest integer is set aside, too. So an integer that a double can have may be written
with a point, unless it is the smallest one. -/
theorem whole_column_takes_integers (origin : Origin) {name : String} (hheader : name ∈ header)
    (hwhole : name ∉ realNames) :
    (∀ row text, Columns.get? row name = some text → (Cell.ofText text).IsNumber →
      let r := Record.ofRow origin row
      let cell := Cell.ofText text
      (∀ n, r.Filled name n ↔
        cell.HasValue n ∧ -2 ^ 63 ≤ n ∧ n < 2 ^ 63 ∧ (n = -2 ^ 63 → cell = .int n)) ∧
      ((∀ n, ¬ r.Filled name n) → r.SetAside name cell)) ∧
    ∀ n : Int, -2 ^ 63 ≤ n → n < 2 ^ 63 → (∃ x : Binary64, x.HasValue n) → ∀ row,
      let r := Record.ofRow origin row
      (row.get? name = some (toString n) → r.Filled name n) ∧
      (row.get? name = some (toString n ++ ".0") →
        (n ≠ -2 ^ 63 → r.Filled name n) ∧
        (n = -2 ^ 63 → ∃ x : Binary64, x.HasValue n ∧ r.SetAside name (.float x))) := by
  obtain ⟨c, hc, rfl⟩ := exists_whole_column hheader hwhole
  refine ⟨fun row text hcell hnumber => ⟨fun n => ?_, fun hnone => ?_⟩,
    fun n hlow hhigh ⟨x, hx⟩ row => ⟨fun hcell => ?_, fun hcell => ?_⟩⟩
  · rw [filled_ofRow hc hcell hnumber, Cell.toInt?_eq_some (storable_ofText text)]
  · rw [setAside_ofRow hc hcell hnumber, Option.eq_none_iff_forall_ne_some]
    intro n hn
    exact hnone n ((filled_ofRow hc hcell hnumber).2 hn)
  · have hread := Cell.ofText_toString hlow hhigh
    rw [filled_ofRow hc hcell (hread ▸ trivial), hread]
    rfl
  · obtain ⟨y, hy, hread⟩ := Cell.ofText_pointZero hx
    have hnumber : (Cell.ofText (toString n ++ ".0")).IsNumber := hread ▸ trivial
    have hstorable : (Cell.float y).Storable := hy.1
    refine ⟨fun hn => ?_, fun hn => ⟨y, hy, ?_⟩⟩
    · rw [filled_ofRow hc hcell hnumber, hread, Cell.toInt?_eq_some hstorable]
      exact ⟨.float hy, hlow, hhigh, fun h => absurd h hn⟩
    · rw [← hread, setAside_ofRow hc hcell hnumber, hread, Option.eq_none_iff_forall_ne_some]
      intro m hm
      obtain ⟨hvalue, -, -, hsmallest⟩ := (Cell.toInt?_eq_some hstorable).1 hm
      have hmn : m = n := (Cell.hasValue_float.1 hvalue).eq hy
      cases hsmallest (hmn.trans hn)

/-- Four, with a point, in the column of batch sizes. -/
theorem whole_column_takes_integers_four :
    (Record.ofRow ⟨"in.csv", 2⟩ (.ofList [("batchSize", "4.0")])).Filled "batchSize" 4 :=
  have htakes := whole_column_takes_integers ⟨"in.csv", 2⟩ (by decide : "batchSize" ∈ header)
    (by decide : "batchSize" ∉ realNames)
  ((htakes.2 4 (by decide) (by decide) ⟨.ofInt 4, by decide +kernel⟩ _).2
    (by decide +kernel)).1 (by decide)

/-- The smallest integer with a point does not fill its column. -/
theorem not_every_integer_with_point_taken :
    ¬ ∀ (origin : Origin) (row : Columns String) (text : String) (n : Int),
      row.get? "batchSize" = some text → (Cell.ofText text).HasValue n →
        -2 ^ 63 ≤ n → n < 2 ^ 63 → (Record.ofRow origin row).Filled "batchSize" n := by
  intro h
  have hread : Cell.ofText "-9223372036854775808.0" = .float (.ofInt (-2 ^ 63)) := by
    decide +kernel
  have hvalue : (Cell.ofText "-9223372036854775808.0").HasValue (-2 ^ 63) := by
    rw [hread, Cell.hasValue_float]
    decide +kernel
  have hfilled := h ⟨"in.csv", 2⟩ (.ofList [("batchSize", "-9223372036854775808.0")])
    "-9223372036854775808.0" (-2 ^ 63) (by decide +kernel) hvalue (by decide) (by decide)
  exact absurd hfilled.1 (by decide +kernel)

end SweepCharts
