import SweepCharts.Proofs.Columns
import SweepCharts.Proofs.Json.RoundTrip
import SweepCharts.Proofs.Number.Closest
import SweepCharts.Proofs.Run.Loading
import SweepCharts.Proofs.Sweep.Placement
import SweepCharts.Sweep.Dump

set_option autoImplicit false

/-! # The dump is read back

A record becomes an object with a member for each of its values. `Record.Shown` says what such an
object holds, by the names that the header has for the fields of a record, so it speaks about what
is decoded and not about how it was printed.

* `Record.keys_members`: the keys of an object, in their order.
* `Record.shown_members`: **what the object of a record holds.**
* `storable_ofText`, `Record.IsLoaded.value?_cases`: a loaded record has no number that JSON lacks,
  but rounding can make one.
* `dump_reads_back`: **the text of a dump, decoded.**
-/

namespace SweepCharts

/-! ## What an object shows -/

/-- What stands for a field: an integer as it is, a double with three decimals. -/
def Field.shown : Field → Option Json
  | whole value => value.map .int
  | real value => value.map fun x => .float x.toThousandths

/-- The columns that have a member of their own. -/
def plainNames : List String :=
  ["batchSize", "flushIntervalMs", "frames", "payloadBytes", "timeoutMs", "p50Ms", "p99Ms", "maxMs",
   "throughputMsgSec", "received", "dropped", "outstanding"]

/-- What follows the side in the names of the other columns. -/
def statSuffixes : List String :=
  ["Flushes", "AvgBuffers", "MaxBuffers", "AvgBytes", "MaxBytes", "Backpressure"]

/-- A name with a small first letter. -/
def camelCase (name : String) : String :=
  match name.toList with
  | [] => ""
  | c :: rest => String.ofList (c.toLower :: rest)

/-- The columns of one side, under their names without the side. -/
structure Record.ShownStats (r : Record) (side : String) (members : List (String × Json)) :
    Prop where
  distinct : (members.map Prod.fst).Nodup
  fields : ∀ suffix ∈ statSuffixes, ∀ field, (side ++ suffix, field) ∈ r.fields →
    Columns.lookupEntry (camelCase suffix) members = field.shown
  only : ∀ m ∈ members, m.1 ∈ statSuffixes.map camelCase

namespace Columns

/-- The names and cells of columns, all of them and as they are. -/
structure Shown (columns : Columns Cell) (members : List (String × Json)) : Prop where
  distinct : (members.map Prod.fst).Nodup
  cells : ∀ name, lookupEntry name members = (columns.get? name).map Cell.toJson
  decoded : ∀ name, (lookupEntry name members).bind Cell.ofJson? = columns.get? name

/-- Columns that are left out if there are none. -/
def ShownIfAny (columns : Columns Cell) (value : Option Json) : Prop :=
  if columns.isEmpty then value = none
  else ∃ members, value = some (.object members) ∧ columns.Shown members

end Columns

/-- The object of a record has all of its values and nothing else. -/
structure Record.Shown (r : Record) (members : List (String × Json)) : Prop where
  distinct : (members.map Prod.fst).Nodup
  fields : ∀ name ∈ plainNames, ∀ field, (name, field) ∈ r.fields →
    Columns.lookupEntry name members = field.shown
  sides : ∀ side ∈ ["client", "server"], ∃ stats,
    Columns.lookupEntry side members = some (.object stats) ∧ r.ShownStats side stats
  extra : r.extra.ShownIfAny (Columns.lookupEntry "extra" members)
  invalid : r.invalid.ShownIfAny (Columns.lookupEntry "invalid" members)
  only : ∀ m ∈ members, m.1 ∈ plainNames ++ ["client", "server", "extra", "invalid"]

/-! ## Members that may be left out -/

namespace Json

variable {ι α : Type} {key : ι → String} {write : α → Json} {value : ι → Option α}

/-- A member for each thing with a value. -/
def membersOf (key : ι → String) (write : α → Json) (value : ι → Option α) (things : List ι) :
    List (String × Json) :=
  things.flatMap fun i => member? (key i) write (value i)

theorem lookupEntry_member? (name other : String) (v : Option α) :
    Columns.lookupEntry name (member? other write v) =
      if name = other then v.map write else none := by
  cases v with
  | none => simp [member?, Columns.lookupEntry]
  | some a => rfl

theorem keys_member? (name : String) (v : Option α) :
    ((member? name write v).map Prod.fst).Sublist [name] := by
  cases v with
  | none => exact List.nil_sublist _
  | some a => exact List.Sublist.refl _

theorem keys_membersOf (things : List ι) :
    ((membersOf key write value things).map Prod.fst).Sublist (things.map key) := by
  induction things with
  | nil => exact List.Sublist.refl _
  | cons i things ih =>
    rw [membersOf, List.flatMap_cons, List.map_append, List.map_cons]
    exact (keys_member? (key i) (value i)).append ih

theorem lookupEntry_membersOf (hkey : ∀ i j, key i = key j → i = j) {i : ι} {things : List ι}
    (hi : i ∈ things) :
    Columns.lookupEntry (key i) (membersOf key write value things) = (value i).map write := by
  induction things with
  | nil => cases hi
  | cons j things ih =>
    rw [membersOf, List.flatMap_cons, Columns.lookupEntry_append, lookupEntry_member?]
    by_cases hj : i = j
    · rw [hj, if_pos rfl]
      cases hvalue : value j with
      | some a => rfl
      | none =>
        -- a later member of this name would have the same value
        by_cases hmem : i ∈ things
        · have hrest := ih hmem
          rw [hj, hvalue] at hrest
          exact hrest
        · apply Columns.lookupEntry_eq_none
          intro hname
          obtain ⟨k, hk, hik⟩ := List.mem_map.1 ((keys_membersOf things).subset hname)
          rw [hkey _ _ hik, ← hj] at hk
          exact absurd hk hmem
    · rw [if_neg fun h => hj (hkey _ _ h)]
      exact ih ((List.mem_cons.1 hi).resolve_left hj)

theorem readable_membersOf {things : List ι}
    (h : ∀ i ∈ things, ∀ a, value i = some a → (write a).Readable) :
    ∀ m ∈ membersOf key write value things, m.2.Readable := by
  intro m hm
  obtain ⟨i, hi, hm⟩ := List.mem_flatMap.1 hm
  cases hvalue : value i with
  | none => simp [member?, hvalue] at hm
  | some a =>
    obtain rfl : m = (key i, write a) := by simpa [member?, hvalue] using hm
    exact h i hi a hvalue

end Json

/-! ## The members of a record -/

theorem Stat.name_injective (s t : Stat) (h : s.name = t.name) : s = t := by
  cases s <;> cases t <;> first | rfl | exact absurd h (by decide)

theorem statSuffixes_eq : statSuffixes = Stat.all.map Stat.suffix := rfl

theorem camelCase_suffix (stat : Stat) : camelCase stat.suffix = stat.name := by
  cases stat <;> rfl

theorem plainNames_eq : plainNames = Column.plain.map Column.name := rfl

/-- What a field is shown as comes from the value of its column. -/
theorem shown_field (r : Record) (c : Column) :
    (r.field c).shown = (r.value? c).map Cell.rounded := by
  have hint (v : Option Int) : (Field.whole ((v.map Cell.int).bind Cell.toInt?)).shown =
      (v.map Cell.int).map Cell.rounded := by
    cases v <;> rfl
  have hfloat (v : Option Binary64) : (Field.real ((v.map Cell.float).bind Cell.toFloat?)).shown =
      (v.map Cell.float).map Cell.rounded := by
    cases v <;> rfl
  cases c with
  | p50Ms => exact hfloat _
  | p99Ms => exact hfloat _
  | maxMs => exact hfloat _
  | throughputMsgSec => exact hfloat _
  | buffering side stat =>
    cases stat with
    | avgBuffers => exact hfloat _
    | avgBytes => exact hfloat _
    | _ => exact hint _
  | _ => exact hint _

theorem field_eq_real_iff {r : Record} {c : Column} {x : Binary64} :
    r.field c = .real (some x) ↔ r.value? c = some (.float x) := by
  have hint (v : Option Int) : Field.whole ((v.map Cell.int).bind Cell.toInt?) = .real (some x) ↔
      v.map Cell.int = some (.float x) := by
    cases v <;> simp
  have hfloat (v : Option Binary64) :
      Field.real ((v.map Cell.float).bind Cell.toFloat?) = .real (some x) ↔
        v.map Cell.float = some (.float x) := by
    cases v <;> simp [Cell.toFloat?]
  cases c with
  | p50Ms => exact hfloat _
  | p99Ms => exact hfloat _
  | maxMs => exact hfloat _
  | throughputMsgSec => exact hfloat _
  | buffering side stat =>
    cases stat with
    | avgBuffers => exact hfloat _
    | avgBytes => exact hfloat _
    | _ => exact hint _
  | _ => exact hint _

theorem exists_real_mem_fields {r : Record} {x : Binary64} :
    (∃ name, (name, Field.real (some x)) ∈ r.fields) ↔ ∃ c, r.value? c = some (.float x) := by
  simp only [← field_eq_real_iff]
  constructor
  · rintro ⟨name, hname⟩
    rw [fields_eq, List.mem_map] at hname
    obtain ⟨c, -, hc⟩ := hname
    exact ⟨c, congrArg Prod.snd hc⟩
  · rintro ⟨c, hc⟩
    exact ⟨c.name, mem_fields.2 hc.symm⟩

namespace Stats

def members (s : Stats) : List (String × Json) :=
  Json.membersOf Stat.name Cell.rounded s.value? Stat.all

theorem toJson_eq (s : Stats) : s.toJson = .object s.members := rfl

end Stats

namespace Columns

variable {columns : Columns Cell}

theorem keys_member (key : String) (columns : Columns Cell) :
    ((columns.member key).map Prod.fst).Sublist [key] := by
  unfold member
  split
  · exact List.nil_sublist _
  · exact List.Sublist.refl _

theorem lookupEntry_member (name key : String) (columns : Columns Cell) :
    lookupEntry name (columns.member key) =
      if name = key ∧ columns.isEmpty = false then some columns.toJson else none := by
  unfold member
  cases columns.isEmpty with
  | true => simp [lookupEntry]
  | false => simp [lookupEntry]

end Columns

namespace Record

def members (r : Record) : List (String × Json) :=
  Json.membersOf Column.name Cell.rounded r.value? Column.plain ++
    [("client", r.client.toJson), ("server", r.server.toJson)] ++
    r.extra.member "extra" ++ r.invalid.member "invalid"

theorem toJson_eq (r : Record) : r.toJson = .object r.members := rfl

/-- The keys of an object, in their order. -/
theorem keys_members (r : Record) :
    (r.members.map Prod.fst).Sublist (plainNames ++ ["client", "server", "extra", "invalid"]) := by
  unfold members
  simp only [List.map_append, List.append_assoc, plainNames_eq]
  exact (Json.keys_membersOf _).append ((List.Sublist.refl ["client", "server"]).append
    ((Columns.keys_member "extra" _).append (Columns.keys_member "invalid" _)))

theorem nodup_keys_members (r : Record) : (r.members.map Prod.fst).Nodup :=
  (keys_members r).nodup (by decide)

theorem lookupEntry_members (r : Record) (name : String) :
    Columns.lookupEntry name r.members =
      (((Columns.lookupEntry name
        (Json.membersOf Column.name Cell.rounded r.value? Column.plain)).or
        (Columns.lookupEntry name [("client", r.client.toJson), ("server", r.server.toJson)])).or
        (Columns.lookupEntry name (r.extra.member "extra"))).or
        (Columns.lookupEntry name (r.invalid.member "invalid")) := by
  rw [members, Columns.lookupEntry_append, Columns.lookupEntry_append, Columns.lookupEntry_append]

/-- The four members that are no columns do not share their names with any. -/
theorem lookupEntry_plain {r : Record} {name : String} (h : name ∉ plainNames) :
    Columns.lookupEntry name (Json.membersOf Column.name Cell.rounded r.value? Column.plain) =
      none :=
  Columns.lookupEntry_eq_none fun hname => h ((Json.keys_membersOf _).subset hname)

theorem lookupEntry_column (r : Record) {c : Column} (h : c ∈ Column.plain) :
    Columns.lookupEntry c.name r.members = (r.value? c).map Cell.rounded := by
  have hother : ∀ d ∈ Column.plain, d.name ∉ ["client", "server", "extra", "invalid"] := by decide
  have hname := hother c h
  simp only [List.mem_cons, List.not_mem_nil, or_false, not_or] at hname
  obtain ⟨hclient, hserver, hextra, hinvalid⟩ := hname
  rw [lookupEntry_members, Json.lookupEntry_membersOf (fun _ _ => Column.name_injective) h,
    Columns.lookupEntry_member, Columns.lookupEntry_member]
  simp [Columns.lookupEntry, hclient, hserver, hextra, hinvalid]

theorem lookupEntry_side (r : Record) (side : Side) :
    Columns.lookupEntry side.name r.members = some (.object (r.side side).members) := by
  cases side with
  | client => rw [lookupEntry_members, lookupEntry_plain (by decide)]; rfl
  | server => rw [lookupEntry_members, lookupEntry_plain (by decide)]; rfl

theorem lookupEntry_extra (r : Record) : Columns.lookupEntry "extra" r.members =
    if r.extra.isEmpty then none else some r.extra.toJson := by
  rw [lookupEntry_members, lookupEntry_plain (by decide), Columns.lookupEntry_member,
    Columns.lookupEntry_member]
  cases r.extra.isEmpty <;> rfl

theorem lookupEntry_invalid (r : Record) : Columns.lookupEntry "invalid" r.members =
    if r.invalid.isEmpty then none else some r.invalid.toJson := by
  rw [lookupEntry_members, lookupEntry_plain (by decide), Columns.lookupEntry_member,
    Columns.lookupEntry_member]
  cases r.invalid.isEmpty <;> rfl

end Record

/-! ## What the members show -/

/-- A cell that is a number is one that JSON has: an integer of 64 bits or a finite double. -/
def Cell.Storable : Cell → Prop
  | int n => fits64 n = true
  | float x => x.isFinite = true
  | text _ => True

theorem Cell.Storable.ofJson?_toJson {cell : Cell} (h : cell.Storable) :
    ofJson? cell.toJson = some cell := by
  cases cell with
  | int n => exact congrArg some (if_pos h)
  | float x => rfl
  | text s => rfl

namespace Columns

variable {columns : Columns Cell}

theorem shown_entries (h : ∀ name cell, columns.get? name = some cell → cell.Storable) :
    columns.Shown (columns.entries.map fun e => (e.1, e.2.toJson)) where
  distinct := by
    rw [List.map_map]
    exact columns.nodup_names
  cells name := lookupEntry_map Cell.toJson name columns.entries
  decoded name := by
    rw [lookupEntry_map]
    change ((columns.get? name).map Cell.toJson).bind Cell.ofJson? = columns.get? name
    cases hcell : columns.get? name with
    | none => rfl
    | some cell => exact (h name cell hcell).ofJson?_toJson

theorem shownIfAny (h : ∀ name cell, columns.get? name = some cell → cell.Storable) :
    columns.ShownIfAny (if columns.isEmpty then none else some columns.toJson) := by
  unfold ShownIfAny
  split
  · rfl
  · exact ⟨_, rfl, shown_entries h⟩

end Columns

namespace Record

theorem shownStats (r : Record) (side : Side) :
    r.ShownStats side.name (r.side side).members where
  distinct := (Json.keys_membersOf _).nodup (by decide)
  fields suffix hsuffix field hfield := by
    obtain ⟨stat, hstat, rfl⟩ := List.mem_map.1 (statSuffixes_eq ▸ hsuffix)
    have hvalue := (mem_fields (c := .buffering side stat)).1 hfield
    rw [hvalue, shown_field, camelCase_suffix]
    exact Json.lookupEntry_membersOf Stat.name_injective hstat
  only m hm := by
    have hkey := (Json.keys_membersOf _).subset (List.mem_map_of_mem hm)
    simpa [statSuffixes_eq, camelCase_suffix] using hkey

/-- **The object of a record** has all of its values and nothing else. -/
theorem shown_members {r : Record}
    (hextra : ∀ name cell, r.extra.get? name = some cell → cell.Storable)
    (hinvalid : ∀ name cell, r.invalid.get? name = some cell → cell.Storable) :
    r.Shown r.members where
  distinct := r.nodup_keys_members
  fields name hname field hfield := by
    obtain ⟨c, hc, rfl⟩ := List.mem_map.1 (plainNames_eq ▸ hname)
    rw [mem_fields.1 hfield, shown_field, lookupEntry_column r hc]
  sides side hside := by
    obtain ⟨side, rfl⟩ : ∃ s : Side, side = s.name := by
      simp only [List.mem_cons, List.not_mem_nil, or_false] at hside
      rcases hside with rfl | rfl
      · exact ⟨.client, rfl⟩
      · exact ⟨.server, rfl⟩
    exact ⟨_, r.lookupEntry_side side, r.shownStats side⟩
  extra := r.lookupEntry_extra ▸ Columns.shownIfAny hextra
  invalid := r.lookupEntry_invalid ▸ Columns.shownIfAny hinvalid
  only m hm := (keys_members r).subset (List.mem_map_of_mem hm)

end Record

/-! ## What loading leaves out -/

theorem storable_ofText (text : String) : (Cell.ofText text).Storable := by
  unfold Cell.ofText
  dsimp only
  split
  · rename_i n hn
    exact (Option.filter_eq_some_iff.1 hn).2
  · split
    · rename_i x hx
      exact (Option.filter_eq_some_iff.1 hx).2
    · trivial

theorem fitsInt_of_fits64 {n : Int} (h : fits64 n = true) : Json.FitsInt n := by
  simp only [fits64, Bool.and_eq_true, decide_eq_true_eq] at h
  have hpow : pow2 63 ≤ pow2 64 := by decide
  unfold Json.FitsInt
  omega

theorem Cell.Storable.fitsInt {cell : Cell} {n : Int} (hcell : cell.Storable)
    (h : cell.toInt? = some n) : Json.FitsInt n := by
  cases cell with
  | int m =>
    obtain rfl := Option.some.inj h
    exact fitsInt_of_fits64 hcell
  | float x =>
    have hlt := of_decide_eq_true (Option.filter_eq_some_iff.1 h).2
    have hpow : pow2 63 ≤ pow2 64 := by decide
    unfold Json.FitsInt
    omega
  | text s => cases h

theorem Cell.Storable.isFinite_of_toFloat? {cell : Cell} {x : Binary64} (hcell : cell.Storable)
    (h : cell.toFloat? = some x) : x.isFinite = true := by
  cases cell with
  | int n =>
    obtain rfl := Option.some.inj h
    obtain ⟨hlow, hhigh⟩ := fitsInt_of_fits64 hcell
    rw [pow2_eq] at hlow hhigh
    exact Binary64.isFinite_ofInt (by omega)
  | float y =>
    obtain rfl := Option.some.inj h
    exact hcell
  | text s => cases h

theorem Cell.Storable.readable_toJson {cell : Cell} (h : cell.Storable)
    (hprinter : ∀ x, cell = .float x → x.isFinite = true →
      Json.read? (Layout.json.write x) = some (.float x)) : cell.toJson.Readable := by
  cases cell with
  | int n => exact fitsInt_of_fits64 h
  | float x => exact ⟨h, hprinter x rfl h⟩
  | text s => trivial

theorem Columns.readable_member (key : String) {columns : Columns Cell}
    (h : ∀ name cell, columns.get? name = some cell → cell.toJson.Readable) :
    ∀ m ∈ columns.member key, m.2.Readable := by
  intro m hm
  unfold member at hm
  split at hm
  · cases hm
  · obtain rfl := List.mem_singleton.1 hm
    refine Json.readable_object.2 (List.forall_mem_map.2 fun e he => ?_)
    exact h e.1 e.2 (Columns.mem_entries_iff.1 he)

/-- A record as it is loaded from a row. -/
def Record.IsLoaded (r : Record) : Prop := ∃ row : SourceRow, row.record = r

theorem Tree.isLoaded_of_loadRecords {t : Tree} {paths : List String} {records : List Record}
    (h : t.loadRecords paths = .ok records) : ∀ r ∈ records, r.IsLoaded := by
  obtain ⟨rows, -, rfl⟩ := map_eq_ok.1 h
  intro r hr
  obtain ⟨row, -, rfl⟩ := List.mem_map.1 hr
  exact ⟨row, rfl⟩

namespace Record.IsLoaded

variable {r : Record}

theorem storable_cells {row : SourceRow} {name : String} {cell : Cell}
    (h : row.cells.get? name = some cell) : cell.Storable := by
  rw [SourceRow.cells, Columns.get?_map, Option.map_eq_some_iff] at h
  obtain ⟨text, -, rfl⟩ := h
  exact storable_ofText text

theorem storable_extra (h : r.IsLoaded) (name : String) (cell : Cell)
    (hcell : r.extra.get? name = some cell) : cell.Storable := by
  obtain ⟨row, rfl⟩ := h
  rw [SourceRow.record, get?_extra_ofCells] at hcell
  split at hcell
  · cases hcell
  · exact storable_cells hcell

theorem storable_invalid (h : r.IsLoaded) (name : String) (cell : Cell)
    (hcell : r.invalid.get? name = some cell) : cell.Storable := by
  obtain ⟨row, rfl⟩ := h
  rw [SourceRow.record, get?_invalid_ofCells, Option.filter_eq_some_iff] at hcell
  exact storable_cells hcell.1

/-- A typed value is an integer of 64 bits or a finite double. -/
theorem value?_cases (h : r.IsLoaded) {c : Column} {cell : Cell} (hcell : r.value? c = some cell) :
    (∃ n, cell = .int n ∧ Json.FitsInt n) ∨ ∃ x, cell = .float x ∧ x.isFinite = true := by
  obtain ⟨row, rfl⟩ := h
  rw [SourceRow.record, value?_ofCells, Option.bind_eq_some_iff] at hcell
  obtain ⟨source, hsource, hconvert⟩ := hcell
  unfold Column.convert at hconvert
  split at hconvert
  · obtain ⟨n, hn, rfl⟩ := Option.map_eq_some_iff.1 hconvert
    exact .inl ⟨n, rfl, (storable_cells hsource).fitsInt hn⟩
  · obtain ⟨x, hx, rfl⟩ := Option.map_eq_some_iff.1 hconvert
    exact .inr ⟨x, rfl, (storable_cells hsource).isFinite_of_toFloat? hx⟩

theorem isFinite_of_value? (h : r.IsLoaded) {c : Column} {x : Binary64}
    (hvalue : r.value? c = some (.float x)) : x.isFinite = true := by
  obtain ⟨n, hn, -⟩ | ⟨y, hy, hfinite⟩ := h.value?_cases hvalue
  · cases hn
  · cases hy
    exact hfinite

/-- The typed doubles of a loaded record are finite. -/
theorem isFinite_of_mem_fields (h : r.IsLoaded) {name : String} {x : Binary64}
    (hfield : (name, Field.real (some x)) ∈ r.fields) : x.isFinite = true := by
  obtain ⟨c, hc⟩ := exists_real_mem_fields.1 ⟨name, hfield⟩
  exact h.isFinite_of_value? hc

end Record.IsLoaded

/-! ## The text of a dump -/

namespace Record

/-- The doubles in the text of a record. -/
def Prints (r : Record) (x : Binary64) : Prop :=
  (∃ name y, (name, Field.real (some y)) ∈ r.fields ∧ x = y.toThousandths) ∨
    (∃ name, r.extra.get? name = some (.float x)) ∨ ∃ name, r.invalid.get? name = some (.float x)

section
variable {r : Record} (hloaded : r.IsLoaded)
  (hfinite : ∀ name x, (name, Field.real (some x)) ∈ r.fields → x.toThousandths.isFinite = true)
  (hprinter : ∀ x, r.Prints x → x.isFinite = true →
    Json.read? (Layout.json.write x) = some (.float x))
include hloaded hfinite hprinter

theorem readable_rounded (c : Column) (cell : Cell) (hcell : r.value? c = some cell) :
    cell.rounded.Readable := by
  obtain ⟨n, rfl, hn⟩ | ⟨x, rfl, -⟩ := hloaded.value?_cases hcell
  · exact hn
  · have hfield := mem_fields.2 (field_eq_real_iff.2 hcell).symm
    have hround := hfinite _ _ hfield
    exact ⟨hround, hprinter _ (.inl ⟨_, x, hfield, rfl⟩) hround⟩

theorem readable_toJson : r.toJson.Readable := by
  have htyped := readable_rounded hloaded hfinite hprinter
  have hside (side : Side) : (r.side side).toJson.Readable :=
    Json.readable_object.2 (Json.readable_membersOf fun stat _ => htyped (.buffering side stat))
  have hextra := Columns.readable_member "extra" fun name cell hcell =>
    (hloaded.storable_extra name cell hcell).readable_toJson
      fun x hx hfin => hprinter x (.inr (.inl ⟨name, hx ▸ hcell⟩)) hfin
  have hinvalid := Columns.readable_member "invalid" fun name cell hcell =>
    (hloaded.storable_invalid name cell hcell).readable_toJson
      fun x hx hfin => hprinter x (.inr (.inr ⟨name, hx ▸ hcell⟩)) hfin
  rw [toJson_eq, Json.readable_object]
  intro m hm
  simp only [members, List.mem_append, or_assoc] at hm
  rcases hm with hm | hm | hm | hm
  · exact Json.readable_membersOf (fun c _ => htyped c) m hm
  · rcases List.mem_pair.1 hm with rfl | rfl
    · exact hside .client
    · exact hside .server
  · exact hextra m hm
  · exact hinvalid m hm

end

end Record

/-- **The dump is read back.** Its text is a JSON array with an object for each record, in their
order. The object has the integers of the record as they are, its doubles rounded, and the cells
that filled no column under their own names, whatever characters these are made of. The text of a
record alone, without blanks, holds the same object. `hfinite`: no double leaves the range when it
is rounded. `hprinter`: the text of a double that is printed holds that double. -/
theorem dump_reads_back (records : List Record) (hloaded : ∀ r ∈ records, r.IsLoaded)
    (hfinite : ∀ r ∈ records, ∀ name x, (name, Field.real (some x)) ∈ r.fields →
      x.toThousandths.isFinite = true)
    (hprinter : ∀ r ∈ records, ∀ x, r.Prints x → x.isFinite = true →
      Json.read? (Layout.json.write x) = some (.float x)) :
    ∃ objects, Json.read? (Record.dump records) = some (.array (objects.map .object)) ∧
      List.Forall₂ (fun r members => r.Shown members ∧
        Json.read? r.toJson.compact = some (.object members)) records objects := by
  have hreadable : ∀ r ∈ records, r.toJson.Readable := fun r hr =>
    Record.readable_toJson (hloaded r hr) (hfinite r hr) (hprinter r hr)
  refine ⟨records.map Record.members, ?_, ?_⟩
  · rw [List.map_map]
    exact Json.read?_pretty (Json.readable_array.2 (List.forall_mem_map.2 hreadable))
  · rw [List.forall₂_map_right_iff, List.forall₂_same]
    intro r hr
    exact ⟨Record.shown_members (hloaded r hr).storable_extra (hloaded r hr).storable_invalid,
      Json.read?_compact (hreadable r hr)⟩

/-- Quotes, a backslash, a line break and a letter beyond ASCII, in the name and the cell of an
unknown column, beside a double in a column of integers. -/
theorem dump_reads_back_quoted :
    let t : Tree := ⟨[(["a.csv"], .file (Utf8.encode
      "batchSize,p50Ms,frames,\"a \"\"b\"\"\\\"\n16,9.5,1.5,\"one\ntwo \u00e9\"\n"))], [],
      by decide⟩
    let r : Record :=
      { origin := ⟨"a.csv", 2⟩, batchSize := some 16, p50Ms := some (.ofQuotient false 19 2)
        extra := .ofList [("a \"b\"\\", .text "one\ntwo \u00e9")]
        invalid := .ofList [("frames", .float (.ofQuotient false 3 2))] }
    t.loadRecords ["a.csv"] = .ok [r] ∧
      ∃ members, Json.read? (Record.dump [r]) = some (.array [.object members]) ∧
        r.Shown members ∧ Json.read? r.toJson.compact = some (.object members) := by
  intro t r
  have hload : t.loadRecords ["a.csv"] = .ok [r] := by decide +kernel
  have hreal : ∀ name x, (name, Field.real (some x)) ∈ r.fields →
      x = Binary64.ofQuotient false 19 2 := by
    intro name x hx
    have hfield : name = "p50Ms" ∧ x = Binary64.ofQuotient false 19 2 := by
      simpa [Record.fields, r] using hx
    exact hfield.2
  have hround :
      (Binary64.ofQuotient false 19 2).toThousandths = Binary64.ofQuotient false 19 2 := by
    decide +kernel
  have hprinter : ∀ x, r.Prints x → x.isFinite = true →
      Json.read? (Layout.json.write x) = some (.float x) := by
    rintro x (⟨name, y, hy, rfl⟩ | ⟨name, hcell⟩ | ⟨name, hcell⟩) -
    · have htext : Layout.json.write (.ofQuotient false 19 2) = "9.5" := by decide +kernel
      have hvalue : Json.Numeral.toBinary64? ⟨false, ['9'], some ['5'], none⟩ =
          some (.ofQuotient false 19 2) := by decide +kernel
      rw [hreal name y hy, hround, htext]
      exact Json.read?_of_numeral ⟨'9', ['.', '5'], rfl, .inl (by decide)⟩ rfl
        (congrArg (Option.map Json.float) hvalue)
    · have hnone : (if name = "a \"b\"\\" then some (Cell.text "one\ntwo \u00e9") else none) =
          some (.float x) := hcell
      split at hnone <;> cases hnone
    · have htext : Layout.json.write (.ofQuotient false 3 2) = "1.5" := by decide +kernel
      have hvalue : Json.Numeral.toBinary64? ⟨false, ['1'], some ['5'], none⟩ =
          some (.ofQuotient false 3 2) := by decide +kernel
      have hsome : (if name = "frames" then some (Cell.float (.ofQuotient false 3 2)) else none) =
          some (.float x) := hcell
      split at hsome
      · rw [← Cell.float.inj (Option.some.inj hsome), htext]
        exact Json.read?_of_numeral ⟨'1', ['.', '5'], rfl, .inl (by decide)⟩ rfl
          (congrArg (Option.map Json.float) hvalue)
      · cases hsome
  obtain ⟨objects, hread, hshown⟩ := dump_reads_back [r] (Tree.isLoaded_of_loadRecords hload)
    (List.forall_mem_singleton.2 fun name x hx => by rw [hreal name x hx, hround]; decide +kernel)
    (List.forall_mem_singleton.2 hprinter)
  obtain ⟨members, rest, hmembers, hrest, rfl⟩ := List.forall₂_cons_left_iff.1 hshown
  obtain rfl := List.forall₂_nil_left_iff.1 hrest
  exact ⟨hload, members, hread, hmembers⟩

end SweepCharts
