import Mathlib.Data.Finset.Card
import Mathlib.Data.List.Induction
import SweepCharts.Proofs.Sweep.Usability
import SweepCharts.Sweep.Grid

set_option autoImplicit false

/-! # What a grid tabulates

A grid is built in one pass over the records that fills two axes and a map. `Survey.Describes` says
what these hold after the records of any prefix: the values of the usable ones, and for each
configuration the backpressure of the last of them.

* `describes_ofRecords`: every survey describes its records (`Survey.Describes.add`: one step).
* `value?_of_cells`: a value on both axes is found at its place, and the place is always there.
* `build?_tabulates`: there is no grid exactly if the usable records have fewer than two flush
  intervals, and a grid tabulates them.
-/

namespace SweepCharts.Grid

/-- A record that a grid can use. -/
def Usable (r : Record) : Prop :=
  r.batchSize ≠ none ∧ r.invalid.get? "batchSize" = none ∧
    r.invalid.get? "flushIntervalMs" = none ∧ r.invalid.get? "serverBackpressure" = none

instance : DecidablePred Usable := fun r => by
  unfold Usable
  infer_instance

theorem needs_meets_iff {r : Record} : needs.meets r = true ↔ Usable r := by
  have hnames : Column.batchSize.name = "batchSize" ∧
      Column.flushIntervalMs.name = "flushIntervalMs" ∧
      Column.serverBackpressure.name = "serverBackpressure" := by decide
  rw [meets_iff]
  simp [needs, Usable, hnames, Record.value?, Option.isSome_iff_ne_none]
  tauto

/-! ## One configuration -/

/-- A record of this configuration, a missing flush interval read as 0. -/
def At (flushInterval batchSize : Int) (r : Record) : Prop :=
  r.flushInterval = flushInterval ∧ r.batchSize = some batchSize

instance (flushInterval batchSize : Int) : DecidablePred (At flushInterval batchSize) := fun r => by
  unfold At
  infer_instance

/-- The last record of a configuration. -/
def last? (records : List Record) (flushInterval batchSize : Int) : Option Record :=
  (records.filter fun r => At flushInterval batchSize r).getLast?

theorem last?_append_singleton (records : List Record) (r : Record) (flush batch : Int) :
    last? (records ++ [r]) flush batch =
      if At flush batch r then some r else last? records flush batch := by
  unfold last?
  rw [List.filter_append, List.getLast?_append]
  by_cases h : At flush batch r
  · simp [h]
  · simp [h]

namespace Survey

theorem lookup_entry (key other : Configuration) (n : Int) (rest : List (Configuration × Int)) :
    ((key, n) :: rest).lookup other = if other = key then some n else rest.lookup other := by
  rw [List.lookup_cons]
  by_cases h : other = key
  · rw [if_pos h, h, beq_self_eq_true]
  · rw [if_neg h, beq_false_of_ne h]

theorem lookup_measure (key other : Configuration) (n : Int)
    (entries : List (Configuration × Int)) :
    (measure key n entries).lookup other =
      if other = key then some n else entries.lookup other := by
  induction entries with
  | nil => exact lookup_entry key other n []
  | cons e rest ih =>
    obtain ⟨k, old⟩ := e
    unfold measure
    by_cases hk : k = key
    · rw [if_pos hk, lookup_entry, lookup_entry, hk]
      split <;> rfl
    · rw [if_neg hk, lookup_entry, lookup_entry, ih]
      by_cases ho : other = k
      · rw [if_pos ho, if_neg (ho ▸ hk), if_pos ho]
      · rw [if_neg ho, if_neg ho]

/-! ## One record more -/

/-- What a survey holds after these usable records. -/
structure Describes (s : Survey) (usable : List Record) : Prop where
  batchSizes_ascending : s.batchSizes.Pairwise (· < ·)
  flushIntervals_ascending : s.flushIntervals.Pairwise (· < ·)
  batchSizes : ∀ n, n ∈ s.batchSizes ↔ ∃ r ∈ usable, r.batchSize = some n
  flushIntervals : ∀ n, n ∈ s.flushIntervals ↔ ∃ r ∈ usable, r.flushInterval = n
  measured : ∀ flush batch, s.measured.lookup ⟨flush, batch⟩ =
    (last? usable flush batch).map Record.serverBackpressure

theorem describes_nil : Describes {} [] where
  batchSizes_ascending := .nil
  flushIntervals_ascending := .nil
  batchSizes n := by simp
  flushIntervals n := by simp
  measured flush batch := rfl

theorem add_of_batchSize {s : Survey} {r : Record} {batch : Int} (hb : r.batchSize = some batch) :
    s.add r =
      { batchSizes := insertDistinct batch s.batchSizes
        flushIntervals := insertDistinct r.flushInterval s.flushIntervals
        measured := measure ⟨r.flushInterval, batch⟩ r.serverBackpressure s.measured } := by
  rw [add, hb]

theorem exists_mem_snoc {P : Record → Prop} {records : List Record} {r : Record} :
    (∃ q ∈ records ++ [r], P q) ↔ P r ∨ ∃ q ∈ records, P q := by
  simp only [List.mem_append, List.mem_singleton, or_and_right, exists_or, exists_eq_left]
  exact or_comm

/-- A usable record more takes the place of those with its configuration. -/
theorem Describes.add {s : Survey} {usable : List Record} (h : Describes s usable) {r : Record}
    (hr : Usable r) : Describes (s.add r) (usable ++ [r]) := by
  obtain ⟨batch, hb⟩ := Option.ne_none_iff_exists'.1 hr.1
  rw [add_of_batchSize hb]
  refine
    { batchSizes_ascending := ascending_insertDistinct batch h.batchSizes_ascending
      flushIntervals_ascending := ascending_insertDistinct _ h.flushIntervals_ascending
      batchSizes := fun n => ?_, flushIntervals := fun n => ?_, measured := fun flush n => ?_ }
  · rw [mem_insertDistinct, h.batchSizes, exists_mem_snoc, hb, Option.some.injEq, eq_comm]
  · rw [mem_insertDistinct, h.flushIntervals, exists_mem_snoc, eq_comm]
  · rw [lookup_measure, h.measured, last?_append_singleton]
    by_cases hat : At flush n r
    · have hkey : Configuration.mk flush n = ⟨r.flushInterval, batch⟩ := by
        rw [hat.1, Option.some.inj (hb.symm.trans hat.2)]
      rw [if_pos hat, if_pos hkey]
      rfl
    · have hkey : Configuration.mk flush n ≠ ⟨r.flushInterval, batch⟩ := by
        intro he
        obtain ⟨rfl, rfl⟩ := Configuration.mk.inj he
        exact hat ⟨rfl, hb⟩
      rw [if_neg hat, if_neg hkey]

theorem describes_foldl (usable : List Record) (h : ∀ r ∈ usable, Usable r) :
    Describes (usable.foldl add {}) usable := by
  induction usable using List.reverseRecOn with
  | nil => exact describes_nil
  | append_singleton usable r ih =>
    have hprefix := ih fun q hq => h q (List.mem_append_left _ hq)
    rw [List.foldl_append]
    exact hprefix.add (h r (List.mem_append_right _ (.head _)))

theorem ofRecords_eq (records : List Record) :
    ofRecords records = (records.filter needs.meets).foldl add {} := by
  rw [ofRecords, build, Needs.loop_eq]

/-- **A survey describes its usable records.** -/
theorem describes_ofRecords (records : List Record) :
    Describes (ofRecords records) (records.filter fun r => Usable r) := by
  have hfilter : records.filter needs.meets = records.filter fun r => Usable r :=
    List.filter_congr fun r _ => by rw [Bool.eq_iff_iff, needs_meets_iff, decide_eq_true_iff]
  rw [ofRecords_eq, hfilter]
  exact describes_foldl _ fun r hr => by simpa using (List.mem_filter.1 hr).2

end Survey

/-! ## The grid of a survey -/

theorem getElem?_of_idxOf? {values : List Int} {n : Int} {i : Nat}
    (h : values.idxOf? n = some i) : values[i]? = some n := by
  obtain ⟨hi, hn, -⟩ := List.idxOf?_eq_some_iff.1 h
  exact List.getElem?_eq_some_iff.2 ⟨hi, hn⟩

/-- A value on both axes is found at its place among the cells. -/
theorem value?_of_cells {g : Grid} {cell : Int → Int → Int}
    (h : g.cells = g.flushIntervals.map fun flush => g.batchSizes.map (cell flush))
    (flush batch : Int) :
    g.value? flush batch =
      if flush ∈ g.flushIntervals ∧ batch ∈ g.batchSizes then some (cell flush batch) else none := by
  unfold value?
  cases hf : g.flushIntervals.idxOf? flush with
  | none => rw [if_neg fun hm => List.idxOf?_eq_none_iff.1 hf hm.1]; rfl
  | some row =>
    cases hb : g.batchSizes.idxOf? batch with
    | none => rw [if_neg fun hm => List.idxOf?_eq_none_iff.1 hb hm.2]; rfl
    | some column =>
      have hrow := getElem?_of_idxOf? hf
      have hcolumn := getElem?_of_idxOf? hb
      rw [if_pos ⟨List.mem_of_getElem? hrow, List.mem_of_getElem? hcolumn⟩]
      simp [h, hrow, hcolumn]

/-- The backpressure of the last of these records with a configuration, or 0. -/
def lastBackpressure (usable : List Record) (flushInterval batchSize : Int) : Int :=
  ((last? usable flushInterval batchSize).map Record.serverBackpressure).getD 0

theorem maxValue_of_ne_nil {g : Grid} (h : g.cells.flatten ≠ []) :
    g.maxValue ∈ g.cells.flatten ∧ ∀ n ∈ g.cells.flatten, n ≤ g.maxValue := by
  obtain ⟨n, hn⟩ := Option.ne_none_iff_exists'.1 (mt List.max?_eq_none_iff.1 h)
  rw [maxValue, hn]
  exact List.max?_eq_some_iff.1 hn

/-- No cell is above the largest, also where there is none. -/
theorem le_maxValue (g : Grid) : ∀ n ∈ g.cells.flatten, n ≤ g.maxValue := fun n hn =>
  (maxValue_of_ne_nil (List.ne_nil_of_mem hn)).2 n hn

/-- What the grid of these usable records holds. -/
structure Tabulates (g : Grid) (usable : List Record) : Prop where
  batchSizes_ascending : g.batchSizes.Pairwise (· < ·)
  flushIntervals_ascending : g.flushIntervals.Pairwise (· < ·)
  batchSizes : ∀ n, n ∈ g.batchSizes ↔ ∃ r ∈ usable, r.batchSize = some n
  flushIntervals : ∀ n, n ∈ g.flushIntervals ↔ ∃ r ∈ usable, r.flushInterval = n
  /-- One row a flush interval. -/
  rows : g.cells.length = g.flushIntervals.length
  /-- One column a batch size. -/
  columns : ∀ row ∈ g.cells, row.length = g.batchSizes.length
  value : ∀ flush batch, g.value? flush batch =
    if flush ∈ g.flushIntervals ∧ batch ∈ g.batchSizes then
      some (lastBackpressure usable flush batch)
    else none
  maxValue_mem : g.maxValue ∈ g.cells.flatten
  le_maxValue : ∀ n ∈ g.cells.flatten, n ≤ g.maxValue

theorem Survey.cells_eq {s : Survey} {usable : List Record} (h : s.Describes usable) :
    s.cells = s.flushIntervals.map fun flush => s.batchSizes.map (lastBackpressure usable flush) := by
  unfold cells backpressure lastBackpressure
  simp only [h.measured]

/-- A flush interval on its axis comes with a batch size on the other. -/
theorem Survey.Describes.batchSizes_ne_nil {s : Survey} {usable : List Record}
    (h : s.Describes usable) (hu : ∀ r ∈ usable, Usable r) (hf : s.flushIntervals ≠ []) :
    s.batchSizes ≠ [] := by
  obtain ⟨n, hn⟩ := List.exists_mem_of_ne_nil _ hf
  obtain ⟨r, hr, -⟩ := (h.flushIntervals n).1 hn
  obtain ⟨batch, hb⟩ := Option.ne_none_iff_exists'.1 (hu r hr).1
  exact List.ne_nil_of_mem ((h.batchSizes batch).2 ⟨r, hr, hb⟩)

/-- The grid of a survey with a value on each axis. -/
theorem Survey.Describes.tabulates {s : Survey} {usable : List Record} (h : s.Describes usable)
    (hb : s.batchSizes ≠ []) (hf : s.flushIntervals ≠ []) :
    Tabulates ⟨s.batchSizes, s.flushIntervals, s.cells⟩ usable := by
  have hcells := Survey.cells_eq h
  have hne : s.cells.flatten ≠ [] := by
    obtain ⟨flush, hflush⟩ := List.exists_mem_of_ne_nil _ hf
    obtain ⟨batch, hbatch⟩ := List.exists_mem_of_ne_nil _ hb
    refine List.ne_nil_of_mem (List.mem_flatten.2
      ⟨s.batchSizes.map (lastBackpressure usable flush), ?_, List.mem_map_of_mem hbatch⟩)
    rw [hcells]
    exact List.mem_map_of_mem hflush
  refine
    { batchSizes_ascending := h.batchSizes_ascending
      flushIntervals_ascending := h.flushIntervals_ascending
      batchSizes := h.batchSizes, flushIntervals := h.flushIntervals
      rows := ?_, columns := fun row hrow => ?_
      value := value?_of_cells hcells, maxValue_mem := (maxValue_of_ne_nil hne).1
      le_maxValue := le_maxValue _ }
  · rw [hcells, List.length_map]
  · rw [hcells] at hrow
    obtain ⟨flush, -, rfl⟩ := List.mem_map.1 hrow
    rw [List.length_map]

/-- The flush intervals on the axis are counted by those of the records. -/
theorem Survey.Describes.length_flushIntervals {s : Survey} {usable : List Record}
    (h : s.Describes usable) :
    s.flushIntervals.length = (usable.map Record.flushInterval).toFinset.card := by
  have hnodup : s.flushIntervals.Nodup := h.flushIntervals_ascending.imp fun hlt => Int.ne_of_lt hlt
  rw [← List.toFinset_card_of_nodup hnodup]
  congr 1
  ext n
  simp only [List.mem_toFinset, List.mem_map, h.flushIntervals]

/-- There is a grid exactly if the usable records have two flush intervals or more. -/
theorem isSome_build?_iff (records : List Record) :
    (build? records).isSome = true ↔
      2 ≤ ((records.filter fun r => Usable r).map Record.flushInterval).toFinset.card := by
  have h := Survey.describes_ofRecords records
  have hu : ∀ r ∈ records.filter fun r => Usable r, Usable r := fun r hr => by
    simpa using (List.mem_filter.1 hr).2
  rw [← h.length_flushIntervals, build?, Survey.grid?]
  split
  · rename_i hfew
    refine ⟨nofun, fun htwo => ?_⟩
    rcases hfew with hbatch | hflush
    · have hf : (Survey.ofRecords records).flushIntervals ≠ [] :=
        List.ne_nil_of_length_pos (Nat.lt_of_lt_of_le Nat.zero_lt_two htwo)
      refine absurd (List.length_eq_zero_iff.1 (Nat.lt_one_iff.1 hbatch)) ?_
      exact h.batchSizes_ne_nil hu hf
    · exact absurd htwo (Nat.not_le.2 hflush)
  · rename_i hmany
    exact ⟨fun _ => Nat.le_of_not_lt (not_or.1 hmany).2, fun _ => rfl⟩

/-- **The grid of a sweep** tabulates the usable records; there is none exactly if they have fewer
than two flush intervals. -/
theorem build?_tabulates (records : List Record) :
    let usable := records.filter fun r => Usable r
    let intervals := (usable.map Record.flushInterval).toFinset
    match build? records with
    | none => intervals.card < 2
    | some g => 2 ≤ intervals.card ∧ g.Tabulates usable := by
  intro usable intervals
  have h : (Survey.ofRecords records).Describes usable := Survey.describes_ofRecords records
  have hu : ∀ r ∈ usable, Usable r := fun r hr => by simpa using (List.mem_filter.1 hr).2
  have hcard : (Survey.ofRecords records).flushIntervals.length = intervals.card :=
    h.length_flushIntervals
  generalize hs : Survey.ofRecords records = s at h hcard
  have hbuild : build? records =
      if s.batchSizes.length < minBatchSizes ∨ s.flushIntervals.length < minFlushIntervals then none
      else some ⟨s.batchSizes, s.flushIntervals, s.cells⟩ := by
    rw [build?, hs, Survey.grid?]
  rw [hbuild, hcard]
  by_cases htwo : intervals.card < minFlushIntervals
  · rw [if_pos (.inr htwo)]
    exact htwo
  · have hf : s.flushIntervals ≠ [] := by
      intro hnil
      rw [hnil] at hcard
      exact htwo (hcard ▸ by decide)
    have hb := h.batchSizes_ne_nil hu hf
    have hone : ¬ s.batchSizes.length < minBatchSizes := by
      rw [minBatchSizes, Nat.lt_one_iff, List.length_eq_zero_iff]
      exact hb
    rw [if_neg (not_or.2 ⟨hone, htwo⟩)]
    exact ⟨Nat.le_of_not_lt htwo, h.tabulates hb hf⟩

end SweepCharts.Grid
