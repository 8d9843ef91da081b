import SweepCharts.Sweep.Record

set_option autoImplicit false

/-! # What taking columns gives

A record is filled by taking its columns out of a row one after the other, twelve of them under
names put together from a side and a suffix. `Takes columns m value` says that `m` takes exactly
these columns, and what it makes of the row; it composes along `>>=` (`Takes.bind`) as long as no
column is taken twice, so a program that takes columns is read off its lines.

* `takes_record`: filling a record takes every column once, each under its own name and type.
* `value?_ofCells`, `get?_extra_ofCells`, `get?_invalid_ofCells`: the three places of a record as
  functions of the row.
-/

namespace SweepCharts

/-- What a cell gives for a column. -/
def Column.convert (column : Column) (cell : Cell) : Option Cell :=
  if column.isWhole then cell.toInt?.map .int else cell.toFloat?.map .float

/-- Whether a cell stands under a known name, is not blank and does not convert. -/
def Cell.isInvalidFor (cell : Cell) (name : String) : Bool :=
  match Column.ofName? name with
  | some column => !cell.isBlank && (column.convert cell).isNone
  | none => false

/-- An integer column of a row. -/
def intCell? (cells : Columns Cell) (column : Column) : Option Int :=
  (cells.get? column.name).bind Cell.toInt?

/-- A column of doubles of a row. -/
def floatCell? (cells : Columns Cell) (column : Column) : Option Binary64 :=
  (cells.get? column.name).bind Cell.toFloat?

/-- The statistics of one side in a row. -/
def Stats.ofCells (side : Side) (cells : Columns Cell) : Stats where
  flushes := intCell? cells (.buffering side .flushes)
  avgBuffers := floatCell? cells (.buffering side .avgBuffers)
  maxBuffers := intCell? cells (.buffering side .maxBuffers)
  avgBytes := floatCell? cells (.buffering side .avgBytes)
  maxBytes := intCell? cells (.buffering side .maxBytes)
  backpressure := intCell? cells (.buffering side .backpressure)

/-- The typed fields of a row. -/
def Record.typed (origin : Origin) (cells : Columns Cell) : Record where
  origin
  batchSize := intCell? cells .batchSize
  flushIntervalMs := intCell? cells .flushIntervalMs
  frames := intCell? cells .frames
  payloadBytes := intCell? cells .payloadBytes
  timeoutMs := intCell? cells .timeoutMs
  p50Ms := floatCell? cells .p50Ms
  p99Ms := floatCell? cells .p99Ms
  maxMs := floatCell? cells .maxMs
  throughputMsgSec := floatCell? cells .throughputMsgSec
  received := intCell? cells .received
  dropped := intCell? cells .dropped
  outstanding := intCell? cells .outstanding
  client := .ofCells .client cells
  server := .ofCells .server cells

/-! ## Names -/

namespace Column

theorem name_injective {c d : Column} (h : c.name = d.name) : c = d := by
  have hc := ofName?_name c
  rw [h, ofName?_name d] at hc
  exact (Option.some.inj hc).symm

theorem ofName?_eq_some {name : String} {c : Column} : ofName? name = some c ↔ c.name = name := by
  refine ⟨fun h => ?_, fun h => h ▸ ofName?_name c⟩
  simpa using List.find?_some h

theorem mem_map_name {columns : List Column} {c : Column} :
    c.name ∈ columns.map name ↔ c ∈ columns := by
  constructor
  · intro h
    obtain ⟨d, hd, he⟩ := List.mem_map.1 h
    rw [← name_injective he]
    exact hd
  · exact List.mem_map_of_mem

theorem mem_map_name_all {name : String} :
    name ∈ all.map Column.name ↔ (ofName? name).isSome = true := by
  rw [List.mem_map, Option.isSome_iff_exists]
  constructor
  · rintro ⟨c, -, h⟩
    exact ⟨c, ofName?_eq_some.2 h⟩
  · rintro ⟨c, h⟩
    exact ⟨c, mem_all c, ofName?_eq_some.1 h⟩

theorem nodup_all : all.Nodup := by decide

end Column

theorem Cell.isInvalidFor_name (cell : Cell) (c : Column) :
    cell.isInvalidFor c.name = (!cell.isBlank && (c.convert cell).isNone) := by
  simp only [Cell.isInvalidFor, Column.ofName?_name]

/-! ## One column -/

/-- `t` is the row `cells` after the columns `done` were taken. -/
structure Taken (cells : Columns Cell) (done : List Column) (t : Taking) : Prop where
  left : ∀ name, t.left.get? name =
    if name ∈ done.map Column.name then none else cells.get? name
  invalid : ∀ name, t.invalid.get? name =
    if name ∈ done.map Column.name then (cells.get? name).filter (·.isInvalidFor name) else none

theorem taken_nil (cells : Columns Cell) : Taken cells [] { left := cells } where
  left name := by simp
  invalid name := by simp [Columns.empty, Columns.get?, Columns.lookupEntry]

/-- What a step has to do so that one more column is taken. -/
theorem Taken.snoc {cells : Columns Cell} {done : List Column} {t t' : Taking} {c : Column}
    (h : Taken cells done t)
    (hleft : ∀ name, t'.left.get? name = if name = c.name then none else t.left.get? name)
    (hinvalid : ∀ name, t'.invalid.get? name =
      if name = c.name then (cells.get? name).filter (·.isInvalidFor name)
      else t.invalid.get? name) : Taken cells (done ++ [c]) t' where
  left name := by
    rw [hleft, h.left, List.map_append, List.map_singleton]
    by_cases hn : name = c.name
    · simp [hn]
    · simp [hn]
  invalid name := by
    rw [hinvalid, h.invalid, List.map_append, List.map_singleton]
    by_cases hn : name = c.name
    · simp [hn]
    · simp [hn]

/-- Taking a column that is still there gives its converted cell, and keeps the cell if it is
neither blank nor converts. `hconvert`: the conversion is that of the column. -/
theorem Taken.take {α : Type} {cells : Columns Cell} {done : List Column} {t : Taking}
    {c : Column} {convert : Cell → Option α} (h : Taken cells done t) (hnew : c ∉ done)
    (hconvert : ∀ cell, (convert cell).isNone = (c.convert cell).isNone)
    (hblank : ∀ cell, cell.isBlank = true → convert cell = none) :
    (Taking.take convert c t).1 = (cells.get? c.name).bind convert ∧
      Taken cells (done ++ [c]) (Taking.take convert c t).2 := by
  have hthere : t.left.get? c.name = cells.get? c.name := by
    rw [h.left, if_neg (fun hc => hnew (Column.mem_map_name.1 hc))]
  have hvalid : t.invalid.get? c.name = none := by
    rw [h.invalid, if_neg (fun hc => hnew (Column.mem_map_name.1 hc))]
  -- the invalid cells stay the same unless this one joins them
  have hsame (hcell : (cells.get? c.name).filter (·.isInvalidFor c.name) = none) (name : String) :
      t.invalid.get? name = if name = c.name then
        (cells.get? name).filter (·.isInvalidFor name) else t.invalid.get? name := by
    split
    · rename_i hn
      rw [hn, hcell, hvalid]
    · rfl
  unfold Taking.take
  rw [hthere]
  cases hcell : cells.get? c.name with
  | none =>
    refine ⟨rfl, h.snoc (fun name => ?_) (hsame (by rw [hcell]; rfl))⟩
    show t.left.get? name = _
    by_cases hn : name = c.name
    · rw [if_pos hn, hn, hthere, hcell]
    · rw [if_neg hn]
  | some cell =>
    dsimp only
    cases hb : cell.isBlank with
    | true =>
      refine ⟨(hblank cell hb).symm, h.snoc (Columns.get?_erase _ _) (hsame ?_)⟩
      rw [hcell, Option.filter_some, Cell.isInvalidFor_name, hb]
      rfl
    | false =>
      have hiff : cell.isInvalidFor c.name = (convert cell).isNone := by
        rw [Cell.isInvalidFor_name, hb, hconvert]
        rfl
      cases hv : convert cell with
      | some value =>
        refine ⟨by rw [Option.bind_some, hv]; rfl, h.snoc (Columns.get?_erase _ _) (hsame ?_)⟩
        rw [hcell, Option.filter_some, hiff, hv]
        rfl
      | none =>
        refine ⟨by rw [Option.bind_some, hv]; rfl,
          h.snoc (Columns.get?_erase _ _) fun name => ?_⟩
        rw [show (_ : Taking).invalid = t.invalid.insert c.name cell from rfl, Columns.get?_insert]
        split
        · rename_i hn
          rw [hn, hcell, Option.filter_some, hiff, hv]
          rfl
        · rfl

/-! ## Programs that take columns -/

/-- `m` takes the columns `columns` out of any row that still has them, and makes `value` of it. -/
def Takes {α : Type} (columns : List Column) (m : StateM Taking α) (value : Columns Cell → α) :
    Prop :=
  ∀ (cells : Columns Cell) (done : List Column) (t : Taking), (done ++ columns).Nodup →
    Taken cells done t → (m t).1 = value cells ∧ Taken cells (done ++ columns) (m t).2

theorem Takes.pure {α : Type} (a : α) : Takes [] (Pure.pure a) fun _ => a := by
  intro cells done t _ h
  rw [List.append_nil]
  exact ⟨rfl, h⟩

theorem Takes.bind {α β : Type} {cs ds : List Column} {m : StateM Taking α}
    {k : α → StateM Taking β} {v : Columns Cell → α} {w : α → Columns Cell → β}
    (hm : Takes cs m v) (hk : ∀ a, Takes ds (k a) (w a)) :
    Takes (cs ++ ds) (m >>= k) fun cells => w (v cells) cells := by
  intro cells done t hnodup h
  rw [← List.append_assoc] at hnodup ⊢
  obtain ⟨hv, ht⟩ := hm cells done t (List.nodup_append.1 hnodup).1 h
  obtain ⟨hw, hu⟩ := hk (m t).1 cells (done ++ cs) (m t).2 hnodup ht
  have hvalue : (k (m t).1 (m t).2).1 = w (v cells) cells := by rw [hw, hv]
  exact ⟨hvalue, hu⟩

theorem takes_take {α : Type} {c : Column} {convert : Cell → Option α}
    (hconvert : ∀ cell, (convert cell).isNone = (c.convert cell).isNone)
    (hblank : ∀ cell, cell.isBlank = true → convert cell = none) :
    Takes [c] (Taking.take convert c) fun cells => (cells.get? c.name).bind convert := by
  intro cells done t hnodup h
  refine h.take (fun hc => ?_) hconvert hblank
  exact (List.nodup_append.1 hnodup).2.2 c hc c (.head _) rfl

theorem takes_int {c : Column} (h : c.isWhole = true) : Takes [c] (Taking.int c) (intCell? · c) := by
  refine takes_take (fun cell => ?_) (fun cell hb => ?_)
  · rw [Column.convert, if_pos h, Option.isNone_map]
  · cases cell with
    | text s => rfl
    | _ => cases hb

theorem takes_float {c : Column} (h : c.isWhole = false) :
    Takes [c] (Taking.float c) (floatCell? · c) := by
  refine takes_take (fun cell => ?_) (fun cell hb => ?_)
  · rw [Column.convert, h, if_neg Bool.false_ne_true, Option.isNone_map]
  · cases cell with
    | text s => rfl
    | _ => cases hb

theorem takes_stats (side : Side) :
    Takes (Stat.all.map (.buffering side)) (Stats.take side) (Stats.ofCells side) :=
  (takes_int rfl).bind fun _ => (takes_float rfl).bind fun _ => (takes_int rfl).bind fun _ =>
    (takes_float rfl).bind fun _ => (takes_int rfl).bind fun _ => (takes_int rfl).bind fun _ =>
      .pure _

/-- **A record takes every column once**, each under its own name and as its own type. -/
theorem takes_record (origin : Origin) :
    Takes Column.all (Record.take origin) (Record.typed origin) :=
  (takes_int rfl).bind fun _ => (takes_int rfl).bind fun _ => (takes_int rfl).bind fun _ =>
    (takes_int rfl).bind fun _ => (takes_int rfl).bind fun _ => (takes_float rfl).bind fun _ =>
      (takes_float rfl).bind fun _ => (takes_float rfl).bind fun _ => (takes_float rfl).bind fun _ =>
        (takes_int rfl).bind fun _ => (takes_int rfl).bind fun _ => (takes_int rfl).bind fun _ =>
          (takes_stats .client).bind fun _ => (takes_stats .server).bind fun _ => .pure _

/-! ## The three places of a record -/

section
variable (origin : Origin) (cells : Columns Cell)

/-- A record has the typed fields of its row, and what is left of the row. -/
theorem ofCells_eq : ∃ t, Taken cells Column.all t ∧ Record.ofCells origin cells =
    { Record.typed origin cells with extra := t.left, invalid := t.invalid } := by
  obtain ⟨hr, ht⟩ :=
    takes_record origin cells [] { left := cells } Column.nodup_all (taken_nil cells)
  unfold Record.ofCells StateT.run
  generalize Record.take origin { left := cells } = result at hr ht ⊢
  obtain ⟨r, t⟩ := result
  subst hr
  exact ⟨t, ht, rfl⟩

theorem origin_ofCells : (Record.ofCells origin cells).origin = origin := by
  obtain ⟨t, -, h⟩ := ofCells_eq origin cells
  rw [h]
  rfl

/-- A typed field holds the cell of its column if that converts. -/
theorem value?_ofCells (c : Column) :
    (Record.ofCells origin cells).value? c = (cells.get? c.name).bind c.convert := by
  have hint (d : Column) (hd : d.isWhole = true) :
      (intCell? cells d).map Cell.int = (cells.get? d.name).bind d.convert := by
    rw [intCell?, Option.map_bind]
    exact congrArg _ (funext fun cell => by simp [Column.convert, hd])
  have hfloat (d : Column) (hd : d.isWhole = false) :
      (floatCell? cells d).map Cell.float = (cells.get? d.name).bind d.convert := by
    rw [floatCell?, Option.map_bind]
    exact congrArg _ (funext fun cell => by simp [Column.convert, hd])
  obtain ⟨t, -, h⟩ := ofCells_eq origin cells
  rw [h]
  cases c with
  | p50Ms => exact hfloat _ rfl
  | p99Ms => exact hfloat _ rfl
  | maxMs => exact hfloat _ rfl
  | throughputMsgSec => exact hfloat _ rfl
  | buffering side stat =>
    cases stat with
    | avgBuffers => cases side <;> exact hfloat _ rfl
    | avgBytes => cases side <;> exact hfloat _ rfl
    | _ => cases side <;> exact hint _ rfl
  | _ => exact hint _ rfl

/-- The cells of unknown columns stay as they are. -/
theorem get?_extra_ofCells (name : String) :
    (Record.ofCells origin cells).extra.get? name =
      if (Column.ofName? name).isSome then none else cells.get? name := by
  obtain ⟨t, ht, h⟩ := ofCells_eq origin cells
  rw [h]
  refine (ht.left name).trans ?_
  simp only [Column.mem_map_name_all]

/-- The cells that are set aside stay as they are, too. -/
theorem get?_invalid_ofCells (name : String) :
    (Record.ofCells origin cells).invalid.get? name =
      (cells.get? name).filter (·.isInvalidFor name) := by
  obtain ⟨t, ht, h⟩ := ofCells_eq origin cells
  rw [h]
  refine (ht.invalid name).trans ?_
  split
  · rfl
  · rename_i hname
    rw [Column.mem_map_name_all, Bool.not_eq_true, Option.isSome_eq_false_iff,
      Option.isNone_iff_eq_none] at hname
    cases cells.get? name with
    | none => rfl
    | some cell => simp [Option.filter_some, Cell.isInvalidFor, hname]

end

end SweepCharts
