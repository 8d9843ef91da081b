import SweepCharts.Proofs.Csv.ColumnOrder
import SweepCharts.Slice.Table

set_option autoImplicit false

/-! # Slice sweeps with their columns in another order

Cells are read from left to right, each into the field that its column is named for. A row comes out
exactly if every field has one cell and takes it, and this does not depend on the order.

* `Draft.readFrom_eq_ok_iff`: reading cells, by what it holds after each of them.
* `ofNamed_eq_ok_iff`: the row of named cells.
* `readTable_of_rearranged`: columns may change places, and others may be added.
-/

namespace SweepCharts

open Csv (Arrangement Row scan decodeFrom_eq_ok_iff)

/-! ## Fields and their values -/

namespace SliceField

/-- What a cell gives for a field. -/
def convert : SliceField → String → Option Cell
  | mode, cell => some (.text cell)
  | _, cell => if cell.isEmpty then none else (Binary64.read? cell.toList).map .float

/-- The cells under the name of a field. -/
def cellsOf (field : SliceField) (entries : List (String × String)) : List String :=
  (entries.filter fun e => e.1 = field.name).map Prod.snd

theorem cellsOf_append (field : SliceField) (entries more : List (String × String)) :
    field.cellsOf (entries ++ more) = field.cellsOf entries ++ field.cellsOf more := by
  simp only [cellsOf, List.filter_append, List.map_append]

theorem ofName?_name (field : SliceField) : ofName? field.name = some field := by
  cases field <;> decide

theorem ofName?_eq_some {name : String} {field : SliceField} :
    ofName? name = some field ↔ name = field.name := by
  constructor
  · intro h
    simpa [eq_comm] using List.find?_some h
  · rintro rfl
    exact ofName?_name field

theorem ofName?_eq_none {name : String} :
    ofName? name = none ↔ ∀ field : SliceField, name ≠ field.name := by
  rw [Option.eq_none_iff_forall_ne_some]
  simp only [ne_eq, ofName?_eq_some]

end SliceField

/-- The value of a field of a row. -/
def SliceRow.value (row : SliceRow) : SliceField → Cell
  | .mode => .text row.mode
  | .sliceSize => .float row.sliceSize
  | .throughput => .float row.throughput
  | .gc => .float row.gc
  | .p99Delay => .float row.p99Delay

namespace SliceRow

namespace Draft

/-! ## One cell -/

/-- The value of a field that was read. -/
def value? (d : Draft) : SliceField → Option Cell
  | .mode => d.mode.map .text
  | .sliceSize => d.sliceSize.map .float
  | .throughput => d.throughput.map .float
  | .gc => d.gc.map .float
  | .p99Delay => d.p99Delay.map .float

theorem has_eq (d : Draft) (field : SliceField) : d.has field = (d.value? field).isSome := by
  cases field <;> simp [has, value?]

theorem ext_value? {d e : Draft} (h : ∀ field, d.value? field = e.value? field) : d = e := by
  have hfloat (x y : Option Binary64) (hxy : x.map Cell.float = y.map Cell.float) : x = y :=
    Option.map_injective (fun _ _ h => Cell.float.inj h) hxy
  have hmode : d.mode = e.mode :=
    Option.map_injective (fun _ _ h => Cell.text.inj h) (h .mode)
  have hsize := hfloat _ _ (h .sliceSize)
  have hthroughput := hfloat _ _ (h .throughput)
  have hgc := hfloat _ _ (h .gc)
  have hdelay := hfloat _ _ (h .p99Delay)
  cases d
  cases e
  simp only at hmode hsize hthroughput hgc hdelay
  rw [hmode, hsize, hthroughput, hgc, hdelay]

theorem readNumber_of_some (column : Nat) {cell : String} {v : Cell} {field : SliceField}
    (hfield : field ≠ .mode) (h : field.convert cell = some v) :
    ∃ x, readNumber column cell = .ok x ∧ v = .float x := by
  have hconvert : field.convert cell =
      if cell.isEmpty then none else (Binary64.read? cell.toList).map .float := by
    cases field with
    | mode => exact absurd rfl hfield
    | _ => rfl
  rw [hconvert] at h
  unfold readNumber
  split at h
  · cases h
  · rename_i hempty
    obtain ⟨x, hx, rfl⟩ := Option.map_eq_some_iff.1 h
    rw [if_neg hempty, hx]
    exact ⟨x, rfl, rfl⟩

/-- A cell that converts fills its field and no other. -/
theorem set_of_convert (d : Draft) {field : SliceField} (column : Nat) {cell : String} {v : Cell}
    (h : field.convert cell = some v) :
    ∃ e, d.set field column cell = .ok e ∧
      ∀ f, e.value? f = if f = field then some v else d.value? f := by
  cases field with
  | mode =>
    cases h
    exact ⟨{ d with mode := some cell }, rfl, fun f => by cases f <;> rfl⟩
  | _ =>
    obtain ⟨x, hx, rfl⟩ := readNumber_of_some column (by decide) h
    simp only [set, hx, Except.map]
    exact ⟨_, rfl, fun f => by cases f <;> rfl⟩

theorem set_of_convert_none (d : Draft) {field : SliceField} (column : Nat) {cell : String}
    (h : field.convert cell = none) : ∃ fault, d.set field column cell = .error fault := by
  have hnumber (hnone : (if cell.isEmpty then none
      else (Binary64.read? cell.toList).map Cell.float) = none) :
      ∃ fault, readNumber column cell = .error fault := by
    unfold readNumber
    split at hnone
    · rename_i hempty
      exact ⟨_, if_pos hempty⟩
    · rename_i hempty
      rw [if_neg hempty, Option.map_eq_none_iff.1 hnone]
      exact ⟨_, rfl⟩
  cases field with
  | mode => cases h
  | _ =>
    obtain ⟨fault, hfault⟩ := hnumber h
    simp only [set, hfault, Except.map]
    exact ⟨fault, rfl⟩

/-! ## Cells from left to right -/

/-- What was read: for each field its one cell, if there is one. -/
def Holds (d : Draft) (entries : List (String × String)) : Prop :=
  ∀ field : SliceField, (field.cellsOf entries).map field.convert =
    (d.value? field).toList.map some

theorem holds_nil : ({} : Draft).Holds [] := by
  intro field
  cases field <;> rfl

theorem Holds.unique {d e : Draft} {entries : List (String × String)} (hd : d.Holds entries)
    (he : e.Holds entries) : d = e := by
  apply ext_value?
  intro field
  have heq := (hd field).symm.trans (he field)
  cases hv : d.value? field <;> cases hw : e.value? field <;> simp_all

theorem cellsOf_snoc (field : SliceField) (entries : List (String × String)) (name cell : String) :
    field.cellsOf (entries ++ [(name, cell)]) =
      if name = field.name then field.cellsOf entries ++ [cell] else field.cellsOf entries := by
  rw [SliceField.cellsOf_append]
  unfold SliceField.cellsOf
  split <;> rename_i h <;> simp [h]

/-- One cell more: it is held too, or no draft holds the cells up to it, whatever follows. -/
theorem read_cases {d : Draft} {entries : List (String × String)} (h : d.Holds entries)
    (column : Nat) (name cell : String) :
    (∃ e, d.read column name cell = .ok e ∧ e.Holds (entries ++ [(name, cell)])) ∨
      (∃ fault, d.read column name cell = .error fault) ∧
        ∀ (e : Draft) (rest : List (String × String)),
          ¬ e.Holds (entries ++ [(name, cell)] ++ rest) := by
  unfold read
  cases hname : SliceField.ofName? name with
  | none =>
    refine .inl ⟨d, rfl, fun field => ?_⟩
    rw [cellsOf_snoc, if_neg (SliceField.ofName?_eq_none.1 hname field)]
    exact h field
  | some field =>
    obtain rfl := SliceField.ofName?_eq_some.1 hname
    have hcells := cellsOf_snoc field entries field.name cell
    rw [if_pos rfl] at hcells
    have hfield := h field
    dsimp only
    cases hv : d.value? field with
    | some v =>
      -- a second cell for the field
      refine .inr ⟨⟨_, if_pos (by rw [has_eq, hv]; rfl)⟩, fun e rest he => ?_⟩
      have hlength := congrArg List.length (he field)
      have hone := congrArg List.length hfield
      rw [SliceField.cellsOf_append, hcells] at hlength
      simp only [hv, List.length_map, List.length_append, Option.toList_some,
        List.length_singleton] at hlength hone
      have hle : (e.value? field).toList.length ≤ 1 := Option.length_toList_le
      omega
    | none =>
      rw [hv] at hfield
      have hnone : field.cellsOf entries = [] := by simpa using hfield
      rw [if_neg (by rw [has_eq, hv]; exact Bool.false_ne_true)]
      rw [hnone, List.nil_append] at hcells
      cases hc : field.convert cell with
      | none =>
        refine .inr ⟨set_of_convert_none d column hc, fun e rest he => ?_⟩
        have hmem : none ∈ (e.value? field).toList.map some := by
          rw [← he field, SliceField.cellsOf_append, hcells]
          simp [hc]
        simp at hmem
      | some v =>
        obtain ⟨e, he, hvalue⟩ := set_of_convert d column hc
        refine .inl ⟨e, he, fun f => ?_⟩
        rw [hvalue]
        split
        · rename_i hf
          rw [hf, hcells]
          simp [hc]
        · rename_i hf
          have hne : field.name ≠ f.name := by
            intro heq
            have hsome := SliceField.ofName?_name field
            rw [heq, SliceField.ofName?_name] at hsome
            exact hf (Option.some.inj hsome)
          rw [cellsOf_snoc, if_neg hne]
          exact h f

theorem readFrom_append {d : Draft} {entries : List (String × String)} (h : d.Holds entries)
    (column : Nat) (rest : List (String × String)) (e : Draft) :
    d.readFrom column rest = .ok e ↔ e.Holds (entries ++ rest) := by
  induction rest generalizing d entries column with
  | nil =>
    rw [List.append_nil]
    constructor
    · intro heq
      cases heq
      exact h
    · intro he
      rw [he.unique h]
      rfl
  | cons entry rest ih =>
    obtain ⟨name, cell⟩ := entry
    have hsplit : entries ++ (name, cell) :: rest = entries ++ [(name, cell)] ++ rest := by simp
    rw [readFrom, hsplit]
    rcases read_cases h column name cell with ⟨d', hd', hholds⟩ | ⟨⟨fault, hfault⟩, hnot⟩
    · rw [hd']
      exact ih hholds (column + 1)
    · rw [hfault]
      exact ⟨nofun, fun he => absurd he (hnot e rest)⟩

/-- **A draft is what its cells say**, each field one cell or none. -/
theorem readFrom_eq_ok_iff (entries : List (String × String)) (d : Draft) :
    ({} : Draft).readFrom 0 entries = .ok d ↔ d.Holds entries :=
  readFrom_append holds_nil 0 entries d

theorem finish_eq_ok_iff {d : Draft} {row : SliceRow} :
    d.finish = .ok row ↔ ∀ field, d.value? field = some (row.value field) := by
  obtain ⟨mode, size, throughput, gc, delay⟩ := row
  have hiff :
      (∀ field, d.value? field = some (SliceRow.value ⟨mode, size, throughput, gc, delay⟩ field)) ↔
        d = ⟨some mode, some size, some throughput, some gc, some delay⟩ := by
    constructor
    · intro h
      exact ext_value? fun field => by rw [h]; cases field <;> rfl
    · rintro rfl field
      cases field <;> rfl
  rw [hiff]
  obtain ⟨mode', size', throughput', gc', delay'⟩ := d
  cases mode' <;> cases size' <;> cases throughput' <;> cases gc' <;> cases delay' <;>
    simp [finish, bind, Except.bind]

end Draft

/-- **The row of named cells**: every field has one cell, which it takes. -/
theorem ofNamed_eq_ok_iff {names cells : List String} {row : SliceRow} :
    ofNamed names cells = .ok row ↔
      ∀ field : SliceField, (field.cellsOf (names.zip cells)).map field.convert =
        [some (row.value field)] := by
  have hbind : ofNamed names cells = .ok row ↔
      ∃ d, ({} : Draft).readFrom 0 (names.zip cells) = .ok d ∧ d.finish = .ok row := by
    unfold ofNamed
    cases ({} : Draft).readFrom 0 (names.zip cells) with
    | error fault => exact ⟨nofun, fun ⟨_, h, _⟩ => nomatch h⟩
    | ok d => exact ⟨fun h => ⟨d, rfl, h⟩, fun ⟨_, hd, h⟩ => Except.ok.inj hd ▸ h⟩
  simp only [hbind, Draft.readFrom_eq_ok_iff, Draft.finish_eq_ok_iff]
  constructor
  · rintro ⟨d, hholds, hvalue⟩ field
    rw [hholds field, hvalue field]
    rfl
  · intro h
    refine ⟨⟨some row.mode, some row.sliceSize, some row.throughput, some row.gc,
      some row.p99Delay⟩, fun field => ?_, fun field => ?_⟩
    · rw [h field]
      cases field <;> rfl
    · cases field <;> rfl

/-! ## Rows of a table -/

/-- A cell as it is read, without blanks at its ends, if it is text. -/
def readText? (cell : List UInt8) : Option String :=
  match Utf8.decode (trimBoth isBlankByte cell) with
  | .ok chars => some (trimText (String.ofList chars))
  | .error _ => none

/-- A cell of the header that names none of the fields. -/
def IsOtherName (cell : List UInt8) : Prop :=
  ∃ name, readText? cell = some name ∧ ∀ field : SliceField, name ≠ field.name

/-- A cell that is text. -/
def IsReadable (cell : List UInt8) : Prop := ∃ text, readText? cell = some text

theorem textsOf_eq_ok_iff {row : Row} {texts : List String} :
    textsOf row = .ok texts ↔
      List.Forall₂ (fun cell text => readText? cell = some text) row.cells texts := by
  have hcell (cell : List UInt8) (text : String) : readText? cell = some text ↔
      ∃ whole : String, Utf8.decode (trimBoth isBlankByte cell) = .ok whole.toList ∧
        text = trimText whole := by
    unfold readText?
    cases Utf8.decode (trimBoth isBlankByte cell) with
    | error valid => simp
    | ok chars =>
      constructor
      · intro h
        exact ⟨String.ofList chars, by simp, (Option.some.inj h).symm⟩
      · rintro ⟨whole, hwhole, rfl⟩
        simp [Except.ok.inj hwhole]
  simp only [textsOf, Row.texts, map_eq_ok, decodeFrom_eq_ok_iff, List.forall₂_map_left_iff, hcell]
  generalize row.cells = cells
  constructor
  · rintro ⟨wholes, h, rfl⟩
    rw [List.forall₂_map_right_iff]
    exact h.imp fun cell whole hwhole => ⟨whole, hwhole, rfl⟩
  · intro h
    induction h with
    | nil => exact ⟨[], .nil, rfl⟩
    | cons hwhole _ ih =>
      obtain ⟨whole, hdecode, rfl⟩ := hwhole
      obtain ⟨wholes, hrest, rfl⟩ := ih
      exact ⟨whole :: wholes, .cons hdecode hrest, rfl⟩

theorem ofRow_eq_ok_iff {width : Nat} {names : List String} {row : Row} {result : SliceRow} :
    ofRow width (some names) row = .ok result ↔
      row.cells.length = width ∧ ∃ cells, textsOf row = .ok cells ∧
        ofNamed names cells = .ok result := by
  unfold ofRow
  by_cases hwidth : row.cells.length = width
  · rw [if_neg (not_not_intro hwidth)]
    simp only [hwidth, true_and]
    cases textsOf row with
    | error e => exact ⟨nofun, fun ⟨_, h, _⟩ => nomatch h⟩
    | ok cells =>
      show (ofNamed names cells).mapError (Csv.Error.cell row.position) = .ok result ↔ _
      simp [mapError_eq_ok]
  · rw [if_pos hwidth]
    exact ⟨nofun, fun h => absurd h.1 hwidth⟩

/-- **The row of an arranged record** is the same, and new columns may be anything that is text. -/
theorem ofRow_of_places {a : Arrangement} {header movedHeader : Row} {names movedNames : List String}
    (ha : a.IsOf header.cells.length) (hnames : textsOf header = .ok names)
    (hplaces : a.Places (fun name => ∀ field : SliceField, name ≠ field.name) names movedNames)
    (hwidth : movedHeader.cells.length = a.length) {row moved : Row} {result : SliceRow}
    (hcells : a.Places IsReadable row.cells moved.cells)
    (h : ofRow header.cells.length (some names) row = .ok result) :
    ofRow movedHeader.cells.length (some movedNames) moved = .ok result := by
  obtain ⟨hlength, texts, htexts, hnamed⟩ := ofRow_eq_ok_iff.1 h
  rw [textsOf_eq_ok_iff] at hnames htexts
  obtain ⟨movedTexts, hmovedTexts, hmoved⟩ := hcells.exists_forall₂ (fun _ => True) htexts
    fun cell ⟨text, htext⟩ => ⟨text, htext, trivial⟩
  refine ofRow_eq_ok_iff.2 ⟨by rw [hcells.length_eq, hwidth], movedTexts,
    textsOf_eq_ok_iff.2 hmovedTexts, ofNamed_eq_ok_iff.2 fun field => ?_⟩
  have hzip : (names.zip texts).length = header.cells.length := by
    rw [List.length_zip, ← hnames.length_eq, ← htexts.length_eq, hlength, Nat.min_self]
  -- the cells of a field are among those that were there before
  have hperm : (field.cellsOf (movedNames.zip movedTexts)).Perm
      (field.cellsOf (names.zip texts)) := by
    apply List.Perm.map
    apply (hplaces.zip hmoved).filter_perm (hzip ▸ ha)
    intro e he
    exact decide_eq_false (he.1 field)
  have hone := hperm.map field.convert
  rw [ofNamed_eq_ok_iff.1 hnamed field] at hone
  exact List.perm_singleton.1 hone

/-- The records of a table in an arrangement: the columns of the header and of every record alike.
The name of a new column is none of the fields, and its cells are as said. -/
inductive Rearranges (a : Arrangement) (IsNew : List UInt8 → Prop) : List Row → List Row → Prop
  | empty : Rearranges a IsNew [] []
  | table {header movedHeader : Row} {data movedData : List Row}
      (columns : a.IsOf header.cells.length)
      (names : a.Places IsOtherName header.cells movedHeader.cells)
      (cells : List.Forall₂ (fun row moved => a.Places IsNew row.cells moved.cells)
        data movedData) :
      Rearranges a IsNew (header :: data) (movedHeader :: movedData)

/-- Whether the header of a table, if it has one, is text. -/
def HasTextHeader (bytes : List UInt8) : Prop :=
  ∀ header ∈ (scan bytes).head?, ∃ names, textsOf header = .ok names

/-- **A slice sweep with its columns in another order**, and with others among them, has the same
rows, if its header is text. -/
theorem readTable_of_rearranged {a : Arrangement} {bytes moved : List UInt8} {rows : List SliceRow}
    (hheader : HasTextHeader bytes) (hrows : Rearranges a IsReadable (scan bytes) (scan moved))
    (h : readTable bytes = .ok rows) :
    readTable moved = .ok rows := by
  unfold HasTextHeader at hheader
  unfold readTable at h ⊢
  generalize scan bytes = records at hheader hrows h
  generalize scan moved = movedRecords at hrows ⊢
  cases hrows with
  | empty => exact h
  | @table header movedHeader data movedData columns names cells =>
    obtain ⟨texts, htexts⟩ := hheader header rfl
    obtain ⟨movedTexts, hmovedTexts, hplaces⟩ := names.exists_forall₂
      (fun name => ∀ field : SliceField, name ≠ field.name) (textsOf_eq_ok_iff.1 htexts)
      fun cell ⟨name, hname, hother⟩ => ⟨name, hname, hother⟩
    have hmoved : textsOf movedHeader = .ok movedTexts := textsOf_eq_ok_iff.2 hmovedTexts
    simp only [htexts, hmoved, Except.toOption] at h ⊢
    exact mapM_eq_ok_of_forall₂ cells h fun row moved result hcells hresult =>
      ofRow_of_places columns htexts hplaces names.length_eq hcells hresult

end SliceRow

end SweepCharts
