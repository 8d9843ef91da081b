import SweepCharts.Proofs.Slice.Numbers
import SweepCharts.Proofs.Slice.Sheet

set_option autoImplicit false

/-! # The first fault of a record

The cells of a record are read from left to right. A column is at fault if its name is the name of a
field and was met before, or if the field takes a number and the cell writes none. The first column
at fault decides; a field that no column is named for is a fault only if no column is at fault.

* `SliceField.convert_eq_some_iff`: what a cell gives for a field.
* `Draft.read_eq_error_iff`: one cell more.
* `Draft.readFrom_eq_error_iff`: the first column at fault, by induction over the cells.
* `ofNamed_eq_error_iff`: **the fault of a record.**
-/

namespace SweepCharts

open Csv (CellFault Error)

/-! ## What a cell gives -/

/-- The value of a field that a cell fills. -/
inductive SliceField.Takes (cell : String) : SliceField → Cell → Prop
  | mode : Takes cell .mode (.text cell)
  | number {field : SliceField} {x : Binary64} (numeric : field ≠ .mode)
      (writes : WritesDouble cell.toList x) : Takes cell field (.float x)

theorem SliceField.Takes.exists_double {field : SliceField} {cell : String} {v : Cell}
    (h : field.Takes cell v) (hfield : field ≠ .mode) :
    ∃ x, WritesDouble cell.toList x ∧ v = .float x := by
  cases h with
  | mode => exact absurd rfl hfield
  | number _ hx => exact ⟨_, hx, rfl⟩

theorem not_writesDouble_nil (x : Binary64) : ¬ WritesDouble [] x := fun h =>
  nomatch writesDouble_iff.1 h

theorem SliceField.convert_eq_some_iff {field : SliceField} {cell : String} {v : Cell} :
    field.convert cell = some v ↔ field.Takes cell v := by
  have hnumber : (if cell.isEmpty then none else (Binary64.read? cell.toList).map Cell.float) =
      some v ↔ ∃ x, WritesDouble cell.toList x ∧ v = .float x := by
    by_cases hempty : cell = ""
    · subst hempty
      exact iff_of_false nofun fun ⟨x, hx, _⟩ => not_writesDouble_nil x hx
    · rw [if_neg (by simpa using hempty), Option.map_eq_some_iff]
      simp only [writesDouble_iff, @eq_comm _ v]
  cases field with
  | mode =>
    constructor
    · rintro ⟨⟩
      exact .mode
    · rintro (_ | ⟨hfield, -⟩)
      · rfl
      · exact absurd rfl hfield
  | _ =>
    refine hnumber.trans ⟨?_, ?_⟩
    · rintro ⟨x, hx, rfl⟩
      exact .number nofun hx
    · rintro (_ | ⟨-, hx⟩)
      exact ⟨_, hx, rfl⟩

/-! ## Columns at fault -/

/-- What is wrong in a column of a record. Of a column whose name was met before, the cell is not
looked at. -/
inductive ColumnFault (columns : List (String × String)) (column : Nat) : CellFault → Prop
  | repeated {field : SliceField} {cell : String}
      (here : columns[column]? = some (field.name, cell))
      (before : field.name ∈ (columns.take column).map Prod.fst) :
      ColumnFault columns column (.repeatedField field.name)
  | empty {field : SliceField} (here : columns[column]? = some (field.name, ""))
      (first : field.name ∉ (columns.take column).map Prod.fst) (numeric : field ≠ .mode) :
      ColumnFault columns column (.emptyNumber column)
  | bad {field : SliceField} {cell : String} (here : columns[column]? = some (field.name, cell))
      (first : field.name ∉ (columns.take column).map Prod.fst) (numeric : field ≠ .mode)
      (filled : cell ≠ "") (no_double : ¬ ∃ x, WritesDouble cell.toList x) :
      ColumnFault columns column (.badNumber column)

/-- Of columns at fault there is a first one. -/
theorem ColumnFault.exists_first {columns : List (String × String)} {column : Nat}
    {fault : CellFault} (h : ColumnFault columns column fault) :
    ∃ first f, ColumnFault columns first f ∧
      ∀ other < first, ∀ g, ¬ ColumnFault columns other g := by
  classical
  have hsome : ∃ column f, ColumnFault columns column f := ⟨column, fault, h⟩
  obtain ⟨f, hf⟩ := Nat.find_spec hsome
  exact ⟨Nat.find hsome, f, hf, fun other hlt g hg => Nat.find_min hsome hlt ⟨g, hg⟩⟩

/-- What is wrong with a record: its first column at fault, or, if there is none, the first field
that no column is named for. -/
inductive RecordFault (columns : List (String × String)) : CellFault → Prop
  | column {column : Nat} {fault : CellFault} (here : ColumnFault columns column fault)
      (first : ∀ other < column, ∀ f, ¬ ColumnFault columns other f) : RecordFault columns fault
  | missing {field : SliceField} (none_before : ∀ column f, ¬ ColumnFault columns column f)
      (first : SliceField.all.find? (fun f => f.name ∉ columns.map Prod.fst) = some field) :
      RecordFault columns (.missingField field.name)

namespace SliceRow

theorem readNumber_eq_error_iff {column : Nat} {cell : String} {fault : CellFault} :
    readNumber column cell = .error fault ↔
      cell = "" ∧ fault = .emptyNumber column ∨
        cell ≠ "" ∧ (¬ ∃ x, WritesDouble cell.toList x) ∧ fault = .badNumber column := by
  simp only [writesDouble_iff]
  unfold readNumber
  by_cases hempty : cell = ""
  · subst hempty
    simp [@eq_comm _ fault]
  · rw [if_neg (by simpa using hempty)]
    cases Binary64.read? cell.toList <;> simp [hempty, @eq_comm _ fault]

namespace Draft

variable {d : Draft} {left : List (String × String)} {fault : CellFault}

theorem set_eq_error_iff {field : SliceField} {column : Nat} {cell : String} :
    d.set field column cell = .error fault ↔
      field ≠ .mode ∧ readNumber column cell = .error fault := by
  cases field <;> simp [set, map_eq_error]

theorem mem_names_iff {field : SliceField} {columns : List (String × String)} :
    field.name ∈ columns.map Prod.fst ↔ field.cellsOf columns ≠ [] := by
  simp [SliceField.cellsOf, List.filter_eq_nil_iff]

theorem Holds.has_iff (h : d.Holds left) (field : SliceField) :
    d.has field = true ↔ field.name ∈ left.map Prod.fst := by
  have hlength := congrArg List.length (h field)
  rw [has_eq, mem_names_iff, ← List.length_pos_iff, ← List.length_map (f := field.convert), hlength]
  cases d.value? field <;> simp

/-- A column at fault, the way its cell is read. -/
theorem columnFault_iff {columns : List (String × String)} {column : Nat} {name cell : String}
    (hhere : columns[column]? = some (name, cell)) :
    ColumnFault columns column fault ↔ ∃ field, SliceField.ofName? name = some field ∧
      (name ∈ (columns.take column).map Prod.fst ∧ fault = .repeatedField name ∨
        name ∉ (columns.take column).map Prod.fst ∧ field ≠ .mode ∧
          readNumber column cell = .error fault) := by
  simp only [SliceField.ofName?_eq_some, readNumber_eq_error_iff]
  constructor
  · rintro (⟨here, before⟩ | ⟨here, first, numeric⟩ | ⟨here, first, numeric, filled, hnone⟩) <;>
      obtain ⟨rfl, rfl⟩ := Prod.mk.inj (Option.some.inj (hhere.symm.trans here))
    · exact ⟨_, rfl, .inl ⟨before, rfl⟩⟩
    · exact ⟨_, rfl, .inr ⟨first, numeric, .inl ⟨rfl, rfl⟩⟩⟩
    · exact ⟨_, rfl, .inr ⟨first, numeric, .inr ⟨filled, hnone, rfl⟩⟩⟩
  · rintro ⟨field, rfl, ⟨before, rfl⟩ | ⟨first, numeric, ⟨rfl, rfl⟩ | ⟨filled, hnone, rfl⟩⟩⟩
    · exact .repeated hhere before
    · exact .empty hhere first numeric
    · exact .bad hhere first numeric filled hnone

/-- **One cell more** is at fault exactly if its column is. -/
theorem read_eq_error_iff (h : d.Holds left) {name cell : String}
    (rest : List (String × String)) :
    d.read left.length name cell = .error fault ↔
      ColumnFault (left ++ (name, cell) :: rest) left.length fault := by
  have hhere : (left ++ (name, cell) :: rest)[left.length]? = some (name, cell) := by simp
  rw [columnFault_iff hhere, List.take_left]
  unfold read
  cases hname : SliceField.ofName? name with
  | none => exact iff_of_false nofun fun ⟨_, hfield, _⟩ => nomatch hfield
  | some field =>
    simp only [Option.some.injEq, exists_eq_left']
    obtain rfl := SliceField.ofName?_eq_some.1 hname
    by_cases hmet : field.name ∈ left.map Prod.fst
    · rw [if_pos ((h.has_iff field).2 hmet)]
      simp only [Except.error.injEq, @eq_comm _ fault, hmet, true_and, not_true_eq_false, false_and,
        or_false]
    · rw [if_neg fun hhas => hmet ((h.has_iff field).1 hhas), set_eq_error_iff]
      simp only [hmet, false_and, not_false_eq_true, true_and, false_or]

/-- **The first column at fault**, by induction over the cells that are left. -/
theorem readFrom_eq_error_iff (h : d.Holds left) (rest : List (String × String)) :
    d.readFrom left.length rest = .error fault ↔
      ∃ column, left.length ≤ column ∧ ColumnFault (left ++ rest) column fault ∧
        ∀ other, left.length ≤ other → other < column →
          ∀ f, ¬ ColumnFault (left ++ rest) other f := by
  induction rest generalizing d left with
  | nil =>
    refine iff_of_false nofun ?_
    rintro ⟨column, hle, hfault, -⟩
    have hnone : (left ++ [])[column]? = none := by simpa using hle
    rcases hfault with ⟨here, -⟩ | ⟨here, -⟩ | ⟨here, -⟩ <;> rw [hnone] at here <;> cases here
  | cons entry rest ih =>
    obtain ⟨name, cell⟩ := entry
    have hstep {f : CellFault} : d.read left.length name cell = .error f ↔
        ColumnFault (left ++ (name, cell) :: rest) left.length f := read_eq_error_iff h rest
    rw [readFrom]
    cases hread : d.read left.length name cell with
    | error f =>
      have hhere := hstep.1 hread
      constructor
      · rintro ⟨⟩
        exact ⟨left.length, Nat.le_refl _, hhere, fun other hle hlt => by omega⟩
      · rintro ⟨column, hle, hfault, hfirst⟩
        obtain rfl : column = left.length := by
          by_contra hne
          exact hfirst left.length (Nat.le_refl _) (by omega) f hhere
        rw [hstep.2 hfault] at hread
        rw [Except.error.inj hread]
        rfl
    | ok e =>
      have hholds : e.Holds (left ++ [(name, cell)]) := by
        rcases read_cases h left.length name cell with ⟨e', he', hholds⟩ | ⟨⟨f, hf⟩, -⟩
        · rw [hread] at he'
          rwa [Except.ok.inj he']
        · rw [hread] at hf
          cases hf
      have hnot (f : CellFault) : ¬ ColumnFault (left ++ (name, cell) :: rest) left.length f := by
        intro hfault
        rw [hstep.2 hfault] at hread
        cases hread
      have hrest := ih hholds
      rw [List.append_assoc, List.singleton_append, List.length_append, List.length_singleton]
        at hrest
      refine hrest.trans ⟨?_, ?_⟩
      · rintro ⟨column, hle, hfault, hfirst⟩
        refine ⟨column, by omega, hfault, fun other hother hlt => ?_⟩
        rcases Nat.eq_or_lt_of_le hother with rfl | hlater
        · exact hnot
        · exact hfirst other hlater hlt
      · rintro ⟨column, hle, hfault, hfirst⟩
        rcases Nat.eq_or_lt_of_le hle with rfl | hlater
        · exact absurd hfault (hnot fault)
        · exact ⟨column, hlater, hfault, fun other hother => hfirst other (by omega)⟩

/-! ## Fields that no column is named for -/

theorem finish_eq_error_iff : d.finish = .error fault ↔
    ∃ field, SliceField.all.find? (fun f => !d.has f) = some field ∧
      fault = .missingField field.name := by
  obtain ⟨mode, size, throughput, gc, delay⟩ := d
  cases mode <;> cases size <;> cases throughput <;> cases gc <;> cases delay <;>
    simp [finish, has, SliceField.all, bind, Except.bind, eq_comm]

end Draft

/-- **The fault of a record.** -/
theorem ofNamed_eq_error_iff {names cells : List String} {fault : CellFault} :
    ofNamed names cells = .error fault ↔ RecordFault (names.zip cells) fault := by
  have hfrom {f : CellFault} : ({} : Draft).readFrom 0 (names.zip cells) = .error f ↔
      ∃ column, ColumnFault (names.zip cells) column f ∧
        ∀ other < column, ∀ g, ¬ ColumnFault (names.zip cells) other g := by
    simpa only [List.length_nil, Nat.zero_le, true_and, forall_const, List.nil_append] using
      Draft.readFrom_eq_error_iff Draft.holds_nil (names.zip cells)
  unfold ofNamed
  cases hread : ({} : Draft).readFrom 0 (names.zip cells) with
  | error f =>
    obtain ⟨column, hcolumn, hfirst⟩ := hfrom.1 hread
    constructor
    · rintro ⟨⟩
      exact .column hcolumn hfirst
    · rintro (⟨hother, hothers⟩ | ⟨hnone, -⟩)
      · have herror := hfrom.2 ⟨_, hother, hothers⟩
        rw [hread] at herror
        rw [Except.error.inj herror]
        rfl
      · exact absurd hcolumn (hnone column f)
  | ok d =>
    have hholds := (Draft.readFrom_eq_ok_iff _ _).1 hread
    have hnone (column : Nat) (f : CellFault) : ¬ ColumnFault (names.zip cells) column f := by
      intro hfault
      obtain ⟨first, g, hfirst⟩ := hfault.exists_first
      rw [hfrom.2 ⟨first, hfirst⟩] at hread
      cases hread
    have hhas : (fun f : SliceField => !d.has f) =
        fun f => decide (f.name ∉ (names.zip cells).map Prod.fst) := by
      funext f
      rw [decide_not, ← Bool.decide_coe (d.has f)]
      simp only [hholds.has_iff f]
    show d.finish = .error fault ↔ _
    rw [Draft.finish_eq_error_iff, hhas]
    constructor
    · rintro ⟨field, hfield, rfl⟩
      exact .missing hnone hfield
    · rintro (⟨hcolumn, -⟩ | ⟨-, hfield⟩)
      · exact absurd hcolumn (hnone _ _)
      · exact ⟨_, hfield, rfl⟩

end SliceRow

end SweepCharts
