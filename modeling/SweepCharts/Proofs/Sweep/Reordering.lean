import Mathlib.Data.List.Sigma
import Mathlib.Data.List.Sort
import SweepCharts.Proofs.Sweep.Accounting

set_option autoImplicit false

/-! # Sweeps in another order

The rows of a sweep may come in any order, as long as those of one configuration follow each other
as before. A move of places takes one list to the other; `Record.Reorders` adds that it does not
swap records of one configuration.

* `Moves.filter_eq`: a test on which a move keeps the order picks the same list from both sides.
* `eq_of_ascending`: an ascending list is known by its records of each configuration, so there is
  one stable order.
* `Grid.last?_usable`: the last record in a cell is the last of its configuration, so it stays.
* `reordered_sweep_draws_alike`: the lines and the grid stay, and the markers of the scatter move
  as their records do.
-/

namespace SweepCharts

/-! ## Moves -/

section
variable {α : Type}

/-- The entry at each place of one list is found where the move takes that place. -/
def Moves (σ : Equiv.Perm Nat) (xs ys : List α) : Prop := ∀ i, ys[σ i]? = xs[i]?

theorem nodup_zipIdx (xs : List α) : xs.zipIdx.Nodup := .of_map _ (List.nodup_zipIdx_map_snd xs)

theorem pairwise_zipIdx (xs : List α) : xs.zipIdx.Pairwise fun a b => a.2 < b.2 := by
  have h : (xs.zipIdx.map Prod.snd).Pairwise (· < ·) := by
    rw [List.zipIdx_map_snd]
    exact List.pairwise_lt_range'
  exact List.pairwise_map.1 h

variable {σ : Equiv.Perm Nat} {xs ys : List α} (h : Moves σ xs ys)
include h

/-- The entries at their new places are the entries of the other list at their places. -/
theorem Moves.zipIdx_perm : (xs.zipIdx.map fun e => (e.1, σ e.2)).Perm ys.zipIdx := by
  have hinjective : Function.Injective fun e : α × Nat => (e.1, σ e.2) := fun a b hab =>
    Prod.ext (Prod.mk.inj hab).1 (σ.injective (Prod.mk.inj hab).2)
  refine (List.perm_ext_iff_of_nodup ((nodup_zipIdx xs).map hinjective) (nodup_zipIdx ys)).2 ?_
  rintro ⟨a, j⟩
  rw [List.mk_mem_zipIdx_iff_getElem?, List.mem_map]
  constructor
  · rintro ⟨⟨b, i⟩, hmem, heq⟩
    obtain ⟨rfl, rfl⟩ := Prod.mk.inj heq
    rw [h i]
    exact List.mk_mem_zipIdx_iff_getElem?.1 hmem
  · intro hj
    refine ⟨(a, σ.symm j), List.mk_mem_zipIdx_iff_getElem?.2 ?_, by rw [σ.apply_symm_apply]⟩
    rw [← h, σ.apply_symm_apply, hj]

theorem Moves.perm : xs.Perm ys := by
  have hperm := h.zipIdx_perm.map Prod.fst
  rw [List.map_map, List.zipIdx_map_fst] at hperm
  exact (List.zipIdx_map_fst 0 xs) ▸ hperm

/-- Entries that keep their order come out the same, wherever the other entries went. -/
theorem Moves.filter_eq {p : α → Bool}
    (hkeeps : ∀ i j a b, i < j → xs[i]? = some a → xs[j]? = some b → p a = true → p b = true →
      σ i < σ j) : xs.filter p = ys.filter p := by
  -- the picked entries with their places, at both ends of the move
  let picked := (xs.zipIdx.filter fun e => p e.1).map fun e => (e.1, σ e.2)
  have hperm : picked.Perm (ys.zipIdx.filter fun e => p e.1) := by
    have hfilter := h.zipIdx_perm.filter fun e => p e.1
    rwa [List.filter_map] at hfilter
  have hpicked : picked.Pairwise fun a b => a.2 < b.2 := by
    refine List.pairwise_map.2 (((pairwise_zipIdx xs).filter _).imp_of_mem ?_)
    intro a b ha hb hab
    obtain ⟨ha, hpa⟩ := List.mem_filter.1 ha
    obtain ⟨hb, hpb⟩ := List.mem_filter.1 hb
    exact hkeeps _ _ _ _ hab (List.mem_zipIdx_iff_getElem?.1 ha) (List.mem_zipIdx_iff_getElem?.1 hb)
      hpa hpb
  have heq : picked = ys.zipIdx.filter fun e => p e.1 :=
    hperm.eq_of_pairwise (fun a b _ _ hab hba => absurd hab (Nat.lt_asymm hba)) hpicked
      ((pairwise_zipIdx ys).filter _)
  have hentries := congrArg (List.map Prod.fst) heq
  rw [List.map_map] at hentries
  calc xs.filter p = (xs.zipIdx.filter fun e => p e.1).map Prod.fst := by
        rw [← List.zipIdx_map_fst 0 xs, List.filter_map]
        simp only [List.zipIdx_map_fst, Function.comp_def]
    _ = (ys.zipIdx.filter fun e => p e.1).map Prod.fst := hentries
    _ = ys.filter p := by
        rw [← List.zipIdx_map_fst 0 ys, List.filter_map]
        simp only [List.zipIdx_map_fst, Function.comp_def]

end

/-! ## One stable order -/

theorem Configuration.le_antisymm {a b : Configuration} (hab : a.le b = true)
    (hba : b.le a = true) : a = b := by
  rw [le_iff] at hab hba
  obtain ⟨flushA, batchA⟩ := a
  obtain ⟨flushB, batchB⟩ := b
  dsimp only at hab hba
  rw [Configuration.mk.injEq]
  omega

namespace Record

/-- The records of a configuration. -/
def ofConfiguration (records : List Record) (c : Configuration) : List Record :=
  records.filter fun r => r.configuration = c

theorem mem_ofConfiguration {records : List Record} {r : Record} :
    r ∈ ofConfiguration records r.configuration ↔ r ∈ records := by
  simp [ofConfiguration]

theorem ofConfiguration_cons (r : Record) (records : List Record) (c : Configuration) :
    ofConfiguration (r :: records) c =
      if r.configuration = c then r :: ofConfiguration records c
      else ofConfiguration records c := by
  simp [ofConfiguration, List.filter_cons]

theorem ofConfiguration_sortByConfiguration (records : List Record) (c : Configuration) :
    ofConfiguration (sortByConfiguration records) c = ofConfiguration records c :=
  filter_sortByConfiguration records fun a b ha hb => by
    obtain rfl := of_decide_eq_true ha
    rw [precedes, of_decide_eq_true hb, Configuration.le_iff]
    exact .inr ⟨rfl, Int.le_refl _⟩

section
variable {rs ss : List Record}

theorem mem_iff_of_ofConfiguration (h : ∀ c, ofConfiguration rs c = ofConfiguration ss c)
    (r : Record) : r ∈ rs ↔ r ∈ ss := by
  rw [← mem_ofConfiguration, h, mem_ofConfiguration]

/-- An ascending list is known by its records of each configuration. -/
theorem eq_of_ascending (hrs : rs.Pairwise fun a b => a.precedes b = true)
    (hss : ss.Pairwise fun a b => a.precedes b = true)
    (h : ∀ c, ofConfiguration rs c = ofConfiguration ss c) : rs = ss := by
  induction rs generalizing ss with
  | nil =>
    refine (List.eq_nil_iff_forall_not_mem.2 fun r hr => ?_).symm
    exact absurd ((mem_iff_of_ofConfiguration h r).2 hr) List.not_mem_nil
  | cons r rs ih =>
    cases ss with
    | nil => exact absurd ((mem_iff_of_ofConfiguration h r).1 (.head _)) List.not_mem_nil
    | cons s ss =>
      obtain ⟨hr, hrest⟩ := List.pairwise_cons.1 hrs
      obtain ⟨hs, hothers⟩ := List.pairwise_cons.1 hss
      have hle : r.configuration.le s.configuration = true := by
        rcases List.mem_cons.1 ((mem_iff_of_ofConfiguration h s).2 (.head _)) with rfl | hmem
        · exact Configuration.le_iff.2 (.inr ⟨rfl, Int.le_refl _⟩)
        · exact hr s hmem
      have hge : s.configuration.le r.configuration = true := by
        rcases List.mem_cons.1 ((mem_iff_of_ofConfiguration h r).1 (.head _)) with rfl | hmem
        · exact Configuration.le_iff.2 (.inr ⟨rfl, Int.le_refl _⟩)
        · exact hs r hmem
      have hsame : s.configuration = r.configuration := Configuration.le_antisymm hge hle
      have hhead := h r.configuration
      rw [ofConfiguration_cons, ofConfiguration_cons, if_pos rfl, if_pos hsame] at hhead
      obtain rfl : r = s := (List.cons.inj hhead).1
      have htail : ∀ c, ofConfiguration rs c = ofConfiguration ss c := by
        intro c
        have hc := h c
        rw [ofConfiguration_cons, ofConfiguration_cons] at hc
        split at hc
        · exact (List.cons.inj hc).2
        · exact hc
      rw [ih hrest hothers htail]

theorem sortByConfiguration_congr (h : ∀ c, ofConfiguration rs c = ofConfiguration ss c) :
    sortByConfiguration rs = sortByConfiguration ss := by
  refine eq_of_ascending (List.pairwise_mergeSort precedes_trans precedes_total rs)
    (List.pairwise_mergeSort precedes_trans precedes_total ss) fun c => ?_
  rw [ofConfiguration_sortByConfiguration, ofConfiguration_sortByConfiguration, h]

/-- A move that does not swap records of one configuration, a missing flush interval or batch size
read as 0. -/
structure Reorders (σ : Equiv.Perm Nat) (rs ss : List Record) : Prop where
  moves : ∀ i, ss[σ i]? = rs[i]?
  keeps : ∀ i j r s, i < j → rs[i]? = some r → rs[j]? = some s →
    r.flushInterval = s.flushInterval → r.batchSize.getD 0 = s.batchSize.getD 0 → σ i < σ j

theorem Reorders.ofConfiguration_eq {σ : Equiv.Perm Nat} (h : Reorders σ rs ss)
    (c : Configuration) : ofConfiguration rs c = ofConfiguration ss c := by
  refine Moves.filter_eq h.moves fun i j r s hij hr hs hrc hsc => ?_
  have hsame : r.configuration = s.configuration :=
    (of_decide_eq_true hrc).trans (of_decide_eq_true hsc).symm
  obtain ⟨hflush, hbatch⟩ := Configuration.mk.inj hsame
  exact h.keeps i j r s hij hr hs hflush hbatch

end

end Record

/-! ## The grid -/

namespace Grid

/-- The last usable record of a configuration is among the records that have it, or read as it. -/
theorem last?_usable (records : List Record) (flush batch : Int) :
    last? (records.filter fun r => Usable r) flush batch =
      ((Record.ofConfiguration records ⟨flush, batch⟩).filter fun r =>
        At flush batch r ∧ Usable r).getLast? := by
  have hat : ∀ r, At flush batch r → r.configuration = ⟨flush, batch⟩ := by
    rintro r ⟨hflush, hbatch⟩
    rw [Record.configuration, hflush, hbatch, Option.getD_some]
  rw [last?, Record.ofConfiguration, List.filter_filter, List.filter_filter]
  congr 1
  refine List.filter_congr fun r _ => ?_
  by_cases h : At flush batch r
  · simp [h, hat r h]
  · simp [h]

/-- Surveys of the same records have the same axes and the same last records, so one grid. -/
theorem build?_eq_of_ofConfiguration {rs ss : List Record}
    (h : ∀ c, Record.ofConfiguration rs c = Record.ofConfiguration ss c) :
    build? rs = build? ss := by
  have hs := Survey.describes_ofRecords rs
  have ht := Survey.describes_ofRecords ss
  have hmem : ∀ r, (r ∈ rs.filter fun r => Usable r) ↔ r ∈ ss.filter fun r => Usable r := by
    intro r
    rw [List.mem_filter, List.mem_filter, Record.mem_iff_of_ofConfiguration h]
  have hbatchSizes : (Survey.ofRecords rs).batchSizes = (Survey.ofRecords ss).batchSizes := by
    refine hs.batchSizes_ascending.eq_of_mem_iff ht.batchSizes_ascending fun n => ?_
    simp only [hs.batchSizes, ht.batchSizes, hmem]
  have hflushIntervals :
      (Survey.ofRecords rs).flushIntervals = (Survey.ofRecords ss).flushIntervals := by
    refine hs.flushIntervals_ascending.eq_of_mem_iff ht.flushIntervals_ascending fun n => ?_
    simp only [hs.flushIntervals, ht.flushIntervals, hmem]
  have hcells : (Survey.ofRecords rs).cells = (Survey.ofRecords ss).cells := by
    simp only [Survey.cells, Survey.backpressure, hs.measured, ht.measured, last?_usable, h,
      hbatchSizes, hflushIntervals]
  rw [build?, build?, Survey.grid?, Survey.grid?, hbatchSizes, hflushIntervals, hcells]

end Grid

/-! ## The scatter -/

theorem Scatter.IsPointOf.unique {r : Record} {p q : Scatter.Point} (hp : Scatter.IsPointOf r p)
    (hq : Scatter.IsPointOf r q) : p = q := by
  rw [Scatter.Point.mk.injEq]
  exact ⟨hp.label.trans hq.label.symm,
    Option.some.inj (hp.throughput.symm.trans hq.throughput),
    Option.some.inj (hp.p99.symm.trans hq.p99),
    Option.some.inj (hp.batchSize.symm.trans hq.batchSize),
    hp.backpressure.trans hq.backpressure.symm⟩

/-- How many records without a problem stand before a place. -/
def ReadColumns.place (columns : ReadColumns) (records : List Record) (i : Nat) : Nat :=
  ((records.take i).filter fun r => ¬ columns.HasProblem r).length

theorem getElem?_filter_place {columns : ReadColumns} {records : List Record} {i : Nat}
    {r : Record} (hr : records[i]? = some r) (h : ¬ columns.HasProblem r) :
    (records.filter fun r => ¬ columns.HasProblem r)[columns.place records i]? = some r := by
  have hsplit : records = records.take i ++ r :: records.drop (i + 1) := by
    obtain ⟨hi, rfl⟩ := List.getElem?_eq_some_iff.1 hr
    rw [List.cons_getElem_drop_succ, List.take_append_drop]
  rw [ReadColumns.place]
  conv_lhs =>
    arg 1
    rw [hsplit, List.filter_append, List.filter_cons_of_pos (by simpa using h)]
  rw [List.getElem?_append_right (Nat.le_refl _), Nat.sub_self, List.getElem?_cons_zero]

/-- A point stands where its record stands among those that are drawn. -/
theorem ReadColumns.Draws.exists_getElem? {α : Type} {columns : ReadColumns}
    {IsPointOf : Record → α → Prop} {records : List Record} {points : List α}
    (hdraws : columns.Draws IsPointOf records points) {i : Nat} {r : Record}
    (hr : records[i]? = some r) (h : ¬ columns.HasProblem r) :
    ∃ p, points[columns.place records i]? = some p ∧ IsPointOf r p := by
  have hplace := getElem?_filter_place hr h
  obtain ⟨hlength, hpoints⟩ := List.forall₂_iff_get.1 hdraws
  obtain ⟨hi, hget⟩ := List.getElem?_eq_some_iff.1 hplace
  have hj : columns.place records i < points.length := hlength ▸ hi
  refine ⟨points[columns.place records i], List.getElem?_eq_getElem hj, ?_⟩
  have hpoint := hpoints _ hi hj
  rw [List.get_eq_getElem, List.get_eq_getElem] at hpoint
  exact hget ▸ hpoint

/-! ## Charts of a reordered sweep -/

/-- **The order of the rows does not matter**, as long as those of one configuration keep theirs:
sorting gives the same records, the lines and the grid are the same, and the point of a record in
the scatter goes where the record goes among the usable ones. -/
theorem reordered_sweep_draws_alike {σ : Equiv.Perm Nat} {rs ss : List Record}
    (h : Record.Reorders σ rs ss) :
    Record.sortByConfiguration ss = Record.sortByConfiguration rs ∧
    (∀ field ∈ [Lines.Point.p50, Lines.Point.p99, Lines.Point.throughput],
      Lines.line field (Lines.points ss) = Lines.line field (Lines.points rs)) ∧
    Grid.build? ss = Grid.build? rs ∧
    (Scatter.points ss).length = (Scatter.points rs).length ∧
    ∀ i r, rs[i]? = some r → ¬ scatterColumns.HasProblem r →
      ∃ p, Scatter.IsPointOf r p ∧
        (Scatter.points rs)[scatterColumns.place rs i]? = some p ∧
        (Scatter.points ss)[scatterColumns.place ss (σ i)]? = some p := by
  have hsame := h.ofConfiguration_eq
  have hsorted := Record.sortByConfiguration_congr hsame
  have hlines : Lines.points ss = Lines.points rs := by
    rw [Lines.points, Lines.points, Lines.build, Lines.build, hsorted]
  have hdraws (records : List Record) :
      scatterColumns.Draws Scatter.IsPointOf records (Scatter.points records) :=
    draws_collect (fun r hr => Scatter.exists_point hr) records
  refine ⟨hsorted.symm, fun field _ => by rw [hlines],
    (Grid.build?_eq_of_ofConfiguration hsame).symm, ?_, fun i r hr hproblem => ?_⟩
  · rw [← (hdraws ss).length_eq, ← (hdraws rs).length_eq]
    exact ((Moves.perm h.moves).filter _).length_eq.symm
  · obtain ⟨p, hp, hpoint⟩ := (hdraws rs).exists_getElem? hr hproblem
    obtain ⟨q, hq, hmoved⟩ := (hdraws ss).exists_getElem? ((h.moves i).trans hr) hproblem
    have hpq : p = q := Scatter.IsPointOf.unique hpoint hmoved
    exact ⟨p, hpoint, hp, hpq ▸ hq⟩

/-- A record without a batch size moves to the front of two with one configuration. -/
theorem reordered_sweep_draws_alike_unusable_first :
    let a : Record :=
      { origin := ⟨"a.csv", 2⟩, batchSize := some 4, flushIntervalMs := some 5,
        p99Ms := some 2, throughputMsgSec := some 9.5 }
    let b : Record := { origin := ⟨"a.csv", 3⟩, p99Ms := some 1 }
    let c : Record := { a with origin := ⟨"a.csv", 4⟩, throughputMsgSec := some 8 }
    Record.Reorders (Equiv.swap 0 1) [a, b, c] [b, a, c] ∧
      Record.sortByConfiguration [b, a, c] = Record.sortByConfiguration [a, b, c] ∧
      Lines.line Lines.Point.p99 (Lines.points [b, a, c]) =
        Lines.line Lines.Point.p99 (Lines.points [a, b, c]) ∧
      Grid.build? [b, a, c] = Grid.build? [a, b, c] ∧
      ∃ p, Scatter.IsPointOf a p ∧
        (Scatter.points [a, b, c])[scatterColumns.place [a, b, c] 0]? = some p ∧
        (Scatter.points [b, a, c])[scatterColumns.place [b, a, c] 1]? = some p := by
  intro a b c
  have hfar (i : Nat) : Equiv.swap 0 1 (i + 2) = i + 2 :=
    Equiv.swap_apply_of_ne_of_ne (by omega) (by omega)
  have hreorders : Record.Reorders (Equiv.swap 0 1) [a, b, c] [b, a, c] := by
    constructor
    · intro i
      match i with
      | 0 => rfl
      | 1 => rfl
      | i + 2 => rw [hfar]; rfl
    · intro i j r s hij hr hs hflush hbatch
      match i, j with
      | 0, 1 =>
        obtain rfl : a = r := Option.some.inj hr
        obtain rfl : b = s := Option.some.inj hs
        exact absurd hflush (by decide)
      | 0, j + 2 =>
        rw [hfar, Equiv.swap_apply_left]
        omega
      | 1, j + 2 =>
        rw [hfar, Equiv.swap_apply_right]
        omega
      | i + 2, j + 2 =>
        rw [hfar, hfar]
        exact hij
  have hproblem : ¬ scatterColumns.HasProblem a := by decide +kernel
  obtain ⟨hsorted, hlines, hgrid, -, hpoints⟩ := reordered_sweep_draws_alike hreorders
  exact ⟨hreorders, hsorted, hlines _ (by simp), hgrid, hpoints 0 a rfl hproblem⟩

end SweepCharts
