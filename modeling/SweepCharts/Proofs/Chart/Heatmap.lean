import SweepCharts.Proofs.Chart.ColorScales
import SweepCharts.Proofs.Number.Decimal

set_option autoImplicit false

/-! # The points of a heatmap

A heatmap gets its cells as points and its axes as names, and the drawing library puts the two
together by place. Here the points are shown to be in the places that the axes name.

* `Grid.getElem?_points`: the point of a number is that of a column, a row and a cell, which are the
  remainder and the quotient of the number by the number of columns.
* `Grid.Tabulates.exists_cellAt`: the cell is the one that the grid has for the values on the axes.
* `Grid.existsUnique_place`, `Grid.Tabulates.existsUnique_point`: no place is met twice or left out.
* `Grid.heatmap_points_match_axes`: points and names of a heatmap describe the same grid.
-/

namespace SweepCharts

namespace Binary64

/-- A natural number below `2 ^ 53` is not rounded. -/
theorem magnitude_ofInt_natCast {n : Nat} (h : n < 2 ^ 53) :
    (ofInt n).magnitude = n * pow2 1074 := by
  have hbound : 2 ^ 53 * 2 ^ 1074 ≤ magnitudeOf infinityBits := by decide +kernel
  rw [pow2_eq, ofInt, Int.natAbs_natCast, magnitude_ofQuotient,
    nearestMagnitude_of_eq Nat.one_pos h (Nat.one_mul _).symm]
  exact Nat.min_eq_left (Nat.le_trans (Nat.mul_le_mul_right _ (Nat.le_of_lt h)) hbound)

/-- Different places are different as doubles. -/
theorem ofInt_natCast_inj {m n : Nat} (hm : m < 2 ^ 53) (hn : n < 2 ^ 53)
    (h : ofInt m = ofInt n) : m = n := by
  have hmagnitude := congrArg magnitude h
  rw [magnitude_ofInt_natCast hm, magnitude_ofInt_natCast hn] at hmagnitude
  exact Nat.eq_of_mul_eq_mul_right (pow2_pos 1074) hmagnitude

end Binary64

/-! ## Places in a table -/

/-- Number `k` of the entries of rows that are equally long is in row `k / n` at place `k % n`. -/
theorem getElem?_flatMap_of_length {α β : Type} {f : α → List β} {n : Nat} {xs : List α}
    (hn : 0 < n) (h : ∀ x ∈ xs, (f x).length = n) (k : Nat) :
    (xs.flatMap f)[k]? = (xs[k / n]?).bind fun x => (f x)[k % n]? := by
  induction xs generalizing k with
  | nil => simp
  | cons x rest ih =>
    have hx : (f x).length = n := h x List.mem_cons_self
    rw [List.flatMap_cons]
    by_cases hk : k < n
    · rw [List.getElem?_append_left (by omega), Nat.div_eq_of_lt hk, Nat.mod_eq_of_lt hk]
      simp
    · have hdiv : k / n = (k - n) / n + 1 := Nat.div_eq_sub_div hn (by omega)
      have hmod : k % n = (k - n) % n := Nat.mod_eq_sub_mod (by omega)
      rw [List.getElem?_append_right (by omega), hx, hdiv, hmod, List.getElem?_cons_succ]
      exact ih (fun y hy => h y (List.mem_cons_of_mem _ hy)) (k - n)

theorem length_flatMap_of_length {α β : Type} {f : α → List β} {n : Nat} {xs : List α}
    (h : ∀ x ∈ xs, (f x).length = n) : (xs.flatMap f).length = xs.length * n := by
  induction xs with
  | nil => simp
  | cons x rest ih =>
    have hx : (f x).length = n := h x List.mem_cons_self
    rw [List.flatMap_cons, List.length_append, hx,
      ih fun y hy => h y (List.mem_cons_of_mem _ hy), List.length_cons, Nat.succ_mul, Nat.add_comm]

/-- A value is met first at its place on an axis that ascends. -/
theorem idxOf?_of_ascending {axis : List Int} (h : axis.Pairwise (· < ·)) {i : Nat} {n : Int}
    (hi : axis[i]? = some n) : axis.idxOf? n = some i := by
  obtain ⟨hlt, hn⟩ := List.getElem?_eq_some_iff.1 hi
  refine List.idxOf?_eq_some_iff.2 ⟨hlt, hn, fun j hj heq => ?_⟩
  have hless := List.pairwise_iff_getElem.1 h j i (by omega) hlt hj
  omega

namespace Grid

/-! ## Points -/

variable {g : Grid} {columns : Nat}

theorem length_points (hcolumns : ∀ values ∈ g.cells, values.length = columns) :
    g.points.length = g.cells.length * columns := by
  rw [points, length_flatMap_of_length (n := columns), List.length_zipIdx]
  intro e he
  rw [List.length_map, List.length_zipIdx]
  exact hcolumns e.1 (List.fst_mem_of_mem_zipIdx he)

/-- **The points** go through the cells row by row. -/
theorem getElem?_points (hpos : 0 < columns)
    (hcolumns : ∀ values ∈ g.cells, values.length = columns) (k : Nat) :
    g.points[k]? = ((g.cells[k / columns]?).bind (·[k % columns]?)).map fun n =>
      [.ofInt (k % columns : Nat), .ofInt (k / columns : Nat), .ofInt n] := by
  rw [points, getElem?_flatMap_of_length hpos]
  · rw [List.getElem?_zipIdx]
    cases g.cells[k / columns]? with
    | none => rfl
    | some values =>
      show ((values.zipIdx.map _)[k % columns]?) = (values[k % columns]?).map _
      rw [List.getElem?_map, List.getElem?_zipIdx, Option.map_map]
      simp [Function.comp_def]
  · intro e he
    rw [List.length_map, List.length_zipIdx]
    exact hcolumns e.1 (List.fst_mem_of_mem_zipIdx he)

/-! ## Cells -/

/-- The cell of a column and a row. The axes have a batch size and a flush interval in their places,
and looking these up gives the same cell. -/
structure CellAt (g : Grid) (column row : Nat) (batch flush n : Int) : Prop where
  batchSize : g.batchSizes[column]? = some batch
  flushInterval : g.flushIntervals[row]? = some flush
  cell : (g.cells[row]?).bind (·[column]?) = some n
  value : g.value? flush batch = some n

variable {usable : List Record}

/-- **Every place has its cell.** -/
theorem Tabulates.exists_cellAt (h : g.Tabulates usable) {column row : Nat}
    (hcolumn : column < g.batchSizes.length) (hrow : row < g.flushIntervals.length) :
    ∃ batch flush n, g.CellAt column row batch flush n := by
  have hbatch := List.getElem?_eq_getElem hcolumn
  have hflush := List.getElem?_eq_getElem hrow
  have hvalues := List.getElem?_eq_getElem (h.rows ▸ hrow)
  have hcell := List.getElem?_eq_getElem
    (h.columns _ (List.mem_of_getElem? hvalues) ▸ hcolumn)
  refine ⟨_, _, _, hbatch, hflush, by rw [hvalues, Option.bind_some, hcell], ?_⟩
  simp only [value?, idxOf?_of_ascending h.flushIntervals_ascending hflush,
    idxOf?_of_ascending h.batchSizes_ascending hbatch, hvalues, bind, Option.bind_some, hcell]

theorem Tabulates.batchSizes_pos (h : g.Tabulates usable) : 0 < g.batchSizes.length := by
  obtain ⟨values, hvalues, hmem⟩ := List.mem_flatten.1 h.maxValue_mem
  rw [← h.columns values hvalues]
  exact List.length_pos_of_mem hmem

/-- The point of a number. -/
theorem Tabulates.exists_point (h : g.Tabulates usable) {k : Nat}
    (hk : k < g.flushIntervals.length * g.batchSizes.length) :
    ∃ batch flush n,
      g.CellAt (k % g.batchSizes.length) (k / g.batchSizes.length) batch flush n ∧
        g.points[k]? = some [.ofInt (k % g.batchSizes.length : Nat),
          .ofInt (k / g.batchSizes.length : Nat), .ofInt n] := by
  have hpos := h.batchSizes_pos
  have hrow : k / g.batchSizes.length < g.flushIntervals.length :=
    Nat.div_lt_of_lt_mul (Nat.mul_comm _ _ ▸ hk)
  obtain ⟨batch, flush, n, hcell⟩ := h.exists_cellAt (Nat.mod_lt k hpos) hrow
  refine ⟨batch, flush, n, hcell, ?_⟩
  rw [getElem?_points hpos h.columns, hcell.cell]
  rfl

/-! ## Places -/

/-- Each place has one number. -/
theorem existsUnique_place {rows columns row column : Nat} (hrow : row < rows)
    (hcolumn : column < columns) :
    ∃! k, k < rows * columns ∧ k % columns = column ∧ k / columns = row := by
  refine ⟨row * columns + column, ⟨?_, ?_, ?_⟩, fun k hk => ?_⟩
  · calc row * columns + column < row * columns + columns := by omega
      _ = (row + 1) * columns := (Nat.succ_mul row columns).symm
      _ ≤ rows * columns := Nat.mul_le_mul_right columns hrow
  · rw [Nat.mul_add_mod_self_right, Nat.mod_eq_of_lt hcolumn]
  · rw [Nat.mul_comm, Nat.mul_add_div (by omega), Nat.div_eq_of_lt hcolumn, Nat.add_zero]
  · rw [← hk.2.1, ← hk.2.2]
    exact (Nat.div_add_mod' k columns).symm

/-- Each place is that of one point, as long as the doubles tell the places apart. -/
theorem Tabulates.existsUnique_point (h : g.Tabulates usable)
    (hrows : g.flushIntervals.length ≤ 2 ^ 53) (hcolumns : g.batchSizes.length ≤ 2 ^ 53)
    {row column : Nat} (hrow : row < g.flushIntervals.length)
    (hcolumn : column < g.batchSizes.length) :
    ∃! k : Nat, ∃ x, g.points[k]? = some [.ofInt column, .ofInt row, x] := by
  obtain ⟨k, ⟨hk, hmod, hdiv⟩, hunique⟩ := existsUnique_place hrow hcolumn
  refine ⟨k, ?_, fun other ⟨x, hx⟩ => hunique other ?_⟩
  · obtain ⟨batch, flush, n, -, hpoint⟩ := h.exists_point hk
    rw [hmod, hdiv] at hpoint
    exact ⟨_, hpoint⟩
  · have hlt : other < g.flushIntervals.length * g.batchSizes.length := by
      rw [← h.rows, ← length_points h.columns]
      exact (List.getElem?_eq_some_iff.1 hx).1
    obtain ⟨batch, flush, n, hcell, hpoint⟩ := h.exists_point hlt
    have hsame := Option.some.inj (hpoint.symm.trans hx)
    simp only [List.cons.injEq] at hsame
    have hmodlt := (List.getElem?_eq_some_iff.1 hcell.batchSize).1
    have hdivlt := (List.getElem?_eq_some_iff.1 hcell.flushInterval).1
    exact ⟨hlt, Binary64.ofInt_natCast_inj (by omega) (by omega) hsame.1,
      Binary64.ofInt_natCast_inj (by omega) (by omega) hsame.2.1⟩

/-! ## Names -/

theorem toString_int_injective : Function.Injective (fun n : Int => toString n) := by
  intro m n h
  have hread := congrArg (fun text : String => readInteger? text.toList) h
  simpa only [readInteger?_toString, Option.some.injEq] using hread

/-- The names of an axis differ. -/
theorem nodup_names {axis : List Int} (h : axis.Pairwise (· < ·)) : (names axis).Nodup :=
  List.Nodup.map toString_int_injective (h.imp fun hlt => Int.ne_of_lt hlt)

/-- **The points of a heatmap and the names on its axes describe the same grid.** There is one point
for each cell, row by row. It gives the place of the cell on both axes, and looking up what the axes
have in this place gives the cell. No place is met twice or left out. -/
theorem heatmap_points_match_axes (records : List Record) (dark : Bool) {g : Grid}
    (h : build? records = some g) :
    let rows := g.flushIntervals.length
    let columns := g.batchSizes.length
    g.points.length = rows * columns ∧
      (∀ k < rows * columns, ∃ batch flush n,
        g.CellAt (k % columns) (k / columns) batch flush n ∧
          g.points[k]? =
            some [.ofInt (k % columns : Nat), .ofInt (k / columns : Nat), .ofInt n]) ∧
      (∀ row < rows, ∀ column < columns,
        (∃! k, k < rows * columns ∧ k % columns = column ∧ k / columns = row) ∧
          (rows ≤ 2 ^ 53 → columns ≤ 2 ^ 53 →
            ∃! k : Nat, ∃ x, g.points[k]? = some [.ofInt column, .ofInt row, x])) ∧
      ∃ c, chart? records dark = some c ∧
        c.series.map Series.coordinates = [g.points] ∧
        c.xAxes.map Axis.scale = [.category (g.batchSizes.map fun n => toString n)] ∧
        c.yAxes.map Axis.scale = [.category (g.flushIntervals.map fun n => toString n)] ∧
        (g.batchSizes.map fun n => toString n).Nodup ∧
        (g.flushIntervals.map fun n => toString n).Nodup := by
  intro rows columns
  have htabulates : g.Tabulates (records.filter fun r => Usable r) := by
    have hbuild := build?_tabulates records
    rw [h] at hbuild
    exact hbuild.2
  refine ⟨?_, fun k hk => htabulates.exists_point hk, fun row hrow column hcolumn =>
    ⟨existsUnique_place hrow hcolumn, fun hrows hcolumns =>
      htabulates.existsUnique_point hrows hcolumns hrow hcolumn⟩, ?_⟩
  · rw [length_points htabulates.columns, htabulates.rows]
  · have hchart : chart? records dark =
        some (g.heatmap (Summary.ofRecords records).subtext dark) := by
      rw [chart?, h]
      rfl
    exact ⟨_, hchart, rfl, rfl, rfl, nodup_names htabulates.batchSizes_ascending,
      nodup_names htabulates.flushIntervals_ascending⟩

/-- Two configurations of four were measured. -/
theorem heatmap_points_match_axes_two_measured :
    let records : List Record :=
      [{ origin := ⟨"in.csv", 2⟩, batchSize := some 16, flushIntervalMs := some 10,
         server := { backpressure := some 3 } },
       { origin := ⟨"in.csv", 3⟩, batchSize := some (-2), flushIntervalMs := some 5,
         server := { backpressure := some 7 } }]
    let g : Grid := ⟨[-2, 16], [5, 10], [[7, 0], [0, 3]]⟩
    build? records = some g ∧ g.points.length = 4 ∧ ∃ c, chart? records true = some c ∧
      c.xAxes.map Axis.scale = [.category ["-2", "16"]] ∧
      c.yAxes.map Axis.scale = [.category ["5", "10"]] := by
  intro records g
  have hgrid : build? records = some g := by decide +kernel
  obtain ⟨hlength, -, -, c, hchart, -, hx, hy, -⟩ := heatmap_points_match_axes records true hgrid
  have hnames : names [-2, 16] = ["-2", "16"] ∧ names [5, 10] = ["5", "10"] := by decide +kernel
  refine ⟨hgrid, hlength, c, hchart, ?_, ?_⟩
  · rw [← hnames.1]
    exact hx
  · rw [← hnames.2]
    exact hy

end Grid

end SweepCharts
