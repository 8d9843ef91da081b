import SweepCharts.Proofs.Json.Null
import SweepCharts.Proofs.Number.Thousandths
import SweepCharts.Proofs.Sweep.Dump

set_option autoImplicit false

/-! # Nulls in a dump

Loading takes finite doubles only, and what a record does not have is left out. A typed double is
multiplied by a thousand on its way into the dump, so one from about `1.8e305` on becomes infinite
there, and an infinity is written as a null. The same cell in an unknown column is written as it is.

* `Record.hasNull_toJson`: the nulls in the object of a record.
* `dump_nulls_are_overflows`: **where a dump has nulls.**
-/

namespace SweepCharts

/-! ## What a record shows -/

/-- A value that is written as a number or as a string. -/
def Json.IsNumberOrString (value : Json) : Prop :=
  ∀ level, Within IsNumeralChar (value.prettyAt level) ∨ ∃ text, value.prettyAt level = quote text

/-- A typed double that is infinite when it is multiplied by a thousand. -/
def Record.Overflows (r : Record) : Prop :=
  ∃ name x, (name, Field.real (some x)) ∈ r.fields ∧ 2 ^ 1024 - 2 ^ 970 ≤ 1000 * x.absValue

/-- How the values of a record are written. -/
structure Record.WritesValues (r : Record) : Prop where
  numeral : ∀ name x, (name, Field.real (some x)) ∈ r.fields →
    1000 * x.absValue < 2 ^ 1024 - 2 ^ 970 → (Json.float x.toThousandths).IsNumberOrString
  overflow : ∀ name x, (name, Field.real (some x)) ∈ r.fields →
    2 ^ 1024 - 2 ^ 970 ≤ 1000 * x.absValue →
      ∀ level, (Json.float x.toThousandths).prettyAt level = "null"
  extra : ∀ name cell, r.extra.get? name = some cell → cell.toJson.IsNumberOrString
  invalid : ∀ name cell, r.invalid.get? name = some cell → cell.toJson.IsNumberOrString

namespace Json

theorem isNumberOrString_float {x : Binary64} (h : x.isFinite = true) :
    (float x).IsNumberOrString := by
  intro level
  rw [prettyAt, number, if_pos h]
  exact .inl (Layout.within_write_json h)

theorem hasNull_membersOf {ι α : Type} {key : ι → String} {write : α → Json}
    {value : ι → Option α} {things : List ι} :
    (∃ m ∈ membersOf key write value things, m.2.HasNull) ↔
      ∃ i ∈ things, ∃ a, value i = some a ∧ (write a).HasNull := by
  constructor
  · rintro ⟨m, hm, hnull⟩
    obtain ⟨i, hi, hm⟩ := List.mem_flatMap.1 hm
    cases hvalue : value i with
    | none => simp [member?, hvalue] at hm
    | some a =>
      obtain rfl : m = (key i, write a) := by simpa [member?, hvalue] using hm
      exact ⟨i, hi, a, hvalue, hnull⟩
  · rintro ⟨i, hi, a, hvalue, hnull⟩
    refine ⟨(key i, write a), List.mem_flatMap.2 ⟨i, hi, ?_⟩, hnull⟩
    rw [hvalue]
    exact .head _

end Json

namespace Cell.Storable

variable {cell : Cell} (h : cell.Storable)
include h

theorem isNumberOrString_toJson : cell.toJson.IsNumberOrString := by
  cases cell with
  | int n => exact fun _ => .inl (within_toString_int (fun _ => .inl) (by decide) n)
  | float x => exact Json.isNumberOrString_float h
  | text s => exact fun _ => .inr ⟨s, rfl⟩

theorem not_hasNull_toJson : ¬ cell.toJson.HasNull := by
  cases cell with
  | int n => simp [Cell.toJson, Json.HasNull]
  | float x =>
    have hfinite : x.isFinite = true := h
    simp [Cell.toJson, Json.HasNull, hfinite]
  | text s => simp [Cell.toJson, Json.HasNull]

end Cell.Storable

theorem Columns.not_hasNull_member (key : String) {columns : Columns Cell}
    (h : ∀ name cell, columns.get? name = some cell → cell.Storable) :
    ¬ ∃ m ∈ columns.member key, m.2.HasNull := by
  rintro ⟨m, hm, hnull⟩
  unfold member at hm
  split at hm
  · cases hm
  · obtain rfl := List.mem_singleton.1 hm
    obtain ⟨m, hm, hnull⟩ := Json.hasNull_object.1 hnull
    obtain ⟨e, he, rfl⟩ := List.mem_map.1 hm
    exact (h e.1 e.2 (Columns.mem_entries_iff.1 he)).not_hasNull_toJson hnull

namespace Record

theorem hasNull_side {r : Record} (side : Side) : (r.side side).toJson.HasNull ↔
    ∃ stat cell, r.value? (.buffering side stat) = some cell ∧ cell.rounded.HasNull := by
  rw [Stats.toJson_eq, Json.hasNull_object, Stats.members, Json.hasNull_membersOf]
  constructor
  · rintro ⟨stat, -, cell, h⟩
    exact ⟨stat, cell, h⟩
  · rintro ⟨stat, cell, h⟩
    exact ⟨stat, by cases stat <;> decide, cell, h⟩

/-- The nulls of a record are those of its typed values. -/
theorem hasNull_toJson {r : Record} (hloaded : r.IsLoaded) :
    r.toJson.HasNull ↔ ∃ c cell, r.value? c = some cell ∧ cell.rounded.HasNull := by
  have hextra := Columns.not_hasNull_member "extra" hloaded.storable_extra
  have hinvalid := Columns.not_hasNull_member "invalid" hloaded.storable_invalid
  rw [toJson_eq, Json.hasNull_object, members]
  simp only [List.mem_append, or_and_right, exists_or, Json.hasNull_membersOf, hextra, hinvalid,
    or_false]
  constructor
  · rintro (⟨c, -, cell, hcell⟩ | ⟨m, hm, hnull⟩)
    · exact ⟨c, cell, hcell⟩
    · rcases List.mem_pair.1 hm with rfl | rfl
      · obtain ⟨stat, cell, hcell⟩ := (hasNull_side .client).1 hnull
        exact ⟨_, cell, hcell⟩
      · obtain ⟨stat, cell, hcell⟩ := (hasNull_side .server).1 hnull
        exact ⟨_, cell, hcell⟩
  · rintro ⟨c, cell, hcell⟩
    cases c with
    | buffering side stat =>
      have hnull := (hasNull_side side).2 ⟨stat, cell, hcell⟩
      cases side with
      | client => exact .inr ⟨_, List.mem_pair.2 (.inl rfl), hnull⟩
      | server => exact .inr ⟨_, List.mem_pair.2 (.inr rfl), hnull⟩
    | _ => exact .inl ⟨_, by decide, cell, hcell⟩

namespace IsLoaded

variable {r : Record} (hloaded : r.IsLoaded)
include hloaded

/-- **A loaded record has a null** iff one of its typed doubles overflows. -/
theorem hasNull_iff : r.toJson.HasNull ↔ r.Overflows := by
  rw [hasNull_toJson hloaded]
  constructor
  · rintro ⟨c, cell, hcell, hnull⟩
    obtain ⟨n, rfl, -⟩ | ⟨x, rfl, hx⟩ := hloaded.value?_cases hcell
    · simp [Cell.rounded, Cell.toJson, Json.HasNull] at hnull
    · obtain ⟨name, hname⟩ := exists_real_mem_fields.2 ⟨c, hcell⟩
      refine ⟨name, x, hname, not_lt.1 fun hlt => ?_⟩
      have hfinite := (Binary64.isFinite_toThousandths hx).2 hlt
      rw [Cell.rounded, Json.HasNull, hfinite] at hnull
      cases hnull
  · rintro ⟨name, x, hname, hle⟩
    obtain ⟨c, hc⟩ := exists_real_mem_fields.1 ⟨name, hname⟩
    refine ⟨c, .float x, hc, ?_⟩
    rw [Cell.rounded, Json.HasNull, ← Bool.not_eq_true,
      Binary64.isFinite_toThousandths (hloaded.isFinite_of_value? hc)]
    exact not_lt.2 hle

theorem writesValues : r.WritesValues where
  numeral _ x hx hlt := Json.isNumberOrString_float
    ((Binary64.isFinite_toThousandths (hloaded.isFinite_of_mem_fields hx)).2 hlt)
  overflow _ x hx hle level := by
    have hinfinite : ¬ x.toThousandths.isFinite = true := by
      rw [Binary64.isFinite_toThousandths (hloaded.isFinite_of_mem_fields hx)]
      exact not_lt.2 hle
    rw [Json.prettyAt, Json.number, if_neg hinfinite]
  extra name cell hcell := (hloaded.storable_extra name cell hcell).isNumberOrString_toJson
  invalid name cell hcell := (hloaded.storable_invalid name cell hcell).isNumberOrString_toJson

end IsLoaded

end Record

/-! ## The dump -/

/-- **Where a dump has nulls.** The text of a dump has a null outside its strings iff a record has a
typed double that overflows when it is multiplied by a thousand. Each record is an object with all
of its values and nothing else. In it such a double is the null; every other typed double, and every
cell that filled no column, is a number or a string. -/
theorem dump_nulls_are_overflows {t : Tree} {paths : List String} {records : List Record}
    (h : t.loadRecords paths = .ok records) :
    (Json.ShowsNull (Record.dump records) ↔ ∃ r ∈ records, r.Overflows) ∧
      ∃ objects, Record.dump records = (Json.array (objects.map .object)).pretty ∧
        List.Forall₂ (fun r members => r.Shown members ∧ r.WritesValues) records objects := by
  have hloaded := Tree.isLoaded_of_loadRecords h
  refine ⟨?_, records.map Record.members, ?_, ?_⟩
  · rw [Record.dump, Json.showsNull_pretty, Json.hasNull_array]
    simp only [List.mem_map, exists_exists_and_eq_and]
    exact exists_congr fun r => and_congr_right fun hr => (hloaded r hr).hasNull_iff
  · rw [List.map_map]
    rfl
  · rw [List.forall₂_map_right_iff, List.forall₂_same]
    intro r hr
    exact ⟨Record.shown_members (hloaded r hr).storable_extra (hloaded r hr).storable_invalid,
      (hloaded r hr).writesValues⟩

/-- The letters of a null in a name and a cell, beside a double that is written as it is. -/
theorem dump_nulls_are_overflows_quoted :
    let t : Tree := ⟨[(["a.csv"], .file (Utf8.encode "p50Ms,null\n1.5,null\n"))], [], by decide⟩
    let r : Record :=
      { origin := ⟨"a.csv", 2⟩, p50Ms := some (.ofQuotient false 3 2)
        extra := .ofList [("null", .text "null")] }
    t.loadRecords ["a.csv"] = .ok [r] ∧ ¬ Json.ShowsNull (Record.dump [r]) := by
  intro t r
  have hload : t.loadRecords ["a.csv"] = .ok [r] := by decide +kernel
  refine ⟨hload, fun hnull => ?_⟩
  obtain ⟨r', hr', name, x, hx, hle⟩ := (dump_nulls_are_overflows hload).1.1 hnull
  obtain rfl := List.mem_singleton.1 hr'
  have hfield : x = Binary64.ofQuotient false 3 2 := by
    have hpair : name = "p50Ms" ∧ x = Binary64.ofQuotient false 3 2 := by
      simpa [Record.fields, r] using hx
    exact hpair.2
  refine absurd ?_ (not_lt.2 hle)
  rw [hfield, Binary64.thousand_mul_absValue_lt]
  decide +kernel

/-- A cell that is loaded as the double `1e308` and dumped as a null. -/
theorem loaded_value_dumped_as_null :
    let t : Tree := ⟨[(["a.csv"], .file (Utf8.encode "p50Ms\n1e308\n"))], [], by decide⟩
    let r : Record := { origin := ⟨"a.csv", 2⟩, p50Ms := some (.ofQuotient false (10 ^ 308) 1) }
    t.loadRecords ["a.csv"] = .ok [r] ∧ Json.ShowsNull (Record.dump [r]) := by
  decide +kernel

end SweepCharts
