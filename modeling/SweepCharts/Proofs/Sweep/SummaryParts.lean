import Mathlib
import SweepCharts.Proofs.Sweep.Highlights

set_option autoImplicit false

/-! # The summary of two sweeps

The summary of two lists of records, one after the other, can be made from the summaries of both:
counts and totals are added, lists of values are merged, and a highlight of the second list takes
the place of one of the first only if it beats it.

* `total_eq_sum`: what a total adds up, modulo `2 ^ 64`.
* `mergesTo_distinct`: the values on an axis of both.
* `Highlight.joins_best?`: the highlights of both.
* `summaries_compose`: **the summary of both.**
-/

namespace SweepCharts

/-! ## The parts of a summary -/

/-- The strictly ascending list of what is in one of two lists. -/
structure MergesTo (first second whole : List Int) : Prop where
  ascending : whole.Pairwise (· < ·)
  mem : ∀ n, n ∈ whole ↔ n ∈ first ∨ n ∈ second

/-- The later highlight is taken if it outdoes the earlier one, and the earlier one otherwise. -/
structure Highlight.Joins (beats : Highlight → Highlight → Prop)
    (first second whole : Option Highlight) : Prop where
  later : Outdone beats first second → whole = second
  earlier : ¬ Outdone beats first second → whole = first

/-- The whole is the summary of two sweeps, one after the other. -/
structure Summary.Joins (first second whole : Summary) : Prop where
  records : whole.records = first.records + second.records
  batchSizes : MergesTo first.batchSizes second.batchSizes whole.batchSizes
  flushIntervals : MergesTo first.flushIntervals second.flushIntervals whole.flushIntervals
  payloadBytes : MergesTo first.payloadBytes second.payloadBytes whole.payloadBytes
  received : whole.received = first.received + second.received
  dropped : whole.dropped = first.dropped + second.dropped
  clientBackpressure :
    whole.clientBackpressure = first.clientBackpressure + second.clientBackpressure
  serverBackpressure :
    whole.serverBackpressure = first.serverBackpressure + second.serverBackpressure
  bestThroughput : Highlight.Joins (fun b a => a.value.scaled < b.value.scaled)
    first.bestThroughput second.bestThroughput whole.bestThroughput
  lowestP99 : Highlight.Joins (fun b a => b.value.scaled < a.value.scaled)
    first.lowestP99 second.lowestP99 whole.lowestP99

/-- The sum of a column, a negative cell counting as 0 and an absent one not at all. -/
def sumOf (value : Record → Option Int) (records : List Record) : Nat :=
  ((records.filterMap value).map fun n => (max n 0).toNat).sum

/-- The sums of the columns with a total fit into counts of 64 bits. -/
structure Summary.TotalsFit (records : List Record) : Prop where
  received : sumOf Record.received records < 2 ^ 64
  dropped : sumOf Record.dropped records < 2 ^ 64
  clientBackpressure : sumOf (fun r => r.client.backpressure) records < 2 ^ 64
  serverBackpressure : sumOf (fun r => r.server.backpressure) records < 2 ^ 64

/-! ## Totals -/

/-- Wrapping around at each step is wrapping around once at the end. -/
theorem foldl_wrapping (cells : List Int) (sum : Nat) :
    cells.foldl (fun sum n => (sum + n.toNat) % pow2 64) (sum % pow2 64) =
      (sum + (cells.map fun n => (max n 0).toNat).sum) % pow2 64 := by
  induction cells generalizing sum with
  | nil => rfl
  | cons n cells ih =>
    have hcell : (max n 0).toNat = n.toNat := by omega
    rw [List.foldl_cons, Nat.mod_add_mod, ih, List.map_cons, List.sum_cons, hcell, Nat.add_assoc]

theorem total_eq_sum (value : Record → Option Int) (records : List Record) :
    Summary.total value records = sumOf value records % 2 ^ 64 := by
  have h := foldl_wrapping (records.filterMap value) 0
  rw [Nat.zero_mod, Nat.zero_add] at h
  exact h

theorem sumOf_append (value : Record → Option Int) (first second : List Record) :
    sumOf value (first ++ second) = sumOf value first + sumOf value second := by
  unfold sumOf
  rw [List.filterMap_append, List.map_append, List.sum_append]

theorem total_append {value : Record → Option Int} {first second : List Record}
    (hfits : sumOf value (first ++ second) < 2 ^ 64) :
    Summary.total value (first ++ second) =
      Summary.total value first + Summary.total value second := by
  rw [total_eq_sum, total_eq_sum, total_eq_sum, Nat.mod_eq_of_lt hfits]
  rw [sumOf_append] at hfits ⊢
  rw [Nat.mod_eq_of_lt (by omega), Nat.mod_eq_of_lt (by omega)]

/-! ## Axes -/

theorem mergesTo_distinct {first second whole : List Int} (h : whole = first ++ second) :
    MergesTo (distinct first) (distinct second) (distinct whole) where
  ascending := ascending_distinct _
  mem n := by rw [h, mem_distinct, mem_distinct, mem_distinct, List.mem_append]

/-! ## Highlights -/

namespace Highlight

/-- **The highlight of both lists.** -/
theorem joins_best? {better : Binary64 → Binary64 → Bool} {value : Record → Option Binary64}
    {key : Highlight → Int} {first second : List Record}
    (horders : Orders key better value (first ++ second)) :
    Joins (fun b a => key a < key b) (best? better value first) (best? better value second)
      (best? better value (first ++ second)) := by
  have hfirst := keeps_best? (horders.mono fun _ => List.mem_append_left _)
  have hsecond := keeps_best? (horders.mono fun _ => List.mem_append_right _)
  have hboth := keeps_best? horders
  have hjoin := hfirst.append hsecond
  exact ⟨fun hout => hboth.unique (hjoin.1 hout), fun hnot => hboth.unique (hjoin.2 hnot)⟩

end Highlight

/-- **Summaries compose**, if no throughput and no latency is a NaN and the totals fit: the summary
of two sweeps, one after the other, is made from the summaries of both. A total is the sum of its
column, modulo `2 ^ 64`. -/
theorem summaries_compose {first second : List Record}
    (hthroughput : Highlight.NoNaN Record.throughputMsgSec (first ++ second))
    (hp99 : Highlight.NoNaN Record.p99Ms (first ++ second))
    (hfits : Summary.TotalsFit (first ++ second)) :
    (Summary.ofRecords first).Joins (Summary.ofRecords second)
      (Summary.ofRecords (first ++ second)) ∧
    ∀ records, (Summary.ofRecords records).received = sumOf Record.received records % 2 ^ 64 ∧
      (Summary.ofRecords records).dropped = sumOf Record.dropped records % 2 ^ 64 ∧
      (Summary.ofRecords records).clientBackpressure =
        sumOf (fun r => r.client.backpressure) records % 2 ^ 64 ∧
      (Summary.ofRecords records).serverBackpressure =
        sumOf (fun r => r.server.backpressure) records % 2 ^ 64 := by
  refine ⟨?_, fun records => ⟨total_eq_sum _ _, total_eq_sum _ _, total_eq_sum _ _,
    total_eq_sum _ _⟩⟩
  have hlarger := Highlight.joins_best? (Highlight.orders_larger hthroughput)
  have hsmaller := Highlight.joins_best? (Highlight.orders_smaller hp99)
  simp only [Int.neg_lt_neg_iff] at hsmaller
  exact
    { records := List.length_append
      batchSizes := mergesTo_distinct List.filterMap_append
      flushIntervals := mergesTo_distinct List.map_append
      payloadBytes := mergesTo_distinct List.filterMap_append
      received := total_append hfits.received, dropped := total_append hfits.dropped
      clientBackpressure := total_append hfits.clientBackpressure
      serverBackpressure := total_append hfits.serverBackpressure
      bestThroughput := hlarger, lowestP99 := hsmaller }

/-- A draw in throughput at the seam, a lower latency after it, and a negative cell. -/
theorem summaries_compose_draw :
    let first : List Record :=
      [{ origin := ⟨"a.csv", 2⟩, batchSize := some 4, flushIntervalMs := some 5,
         throughputMsgSec := some (.ofInt 9), p99Ms := some (.ofInt 2), received := some (-3) }]
    let second : List Record :=
      [{ origin := ⟨"b.csv", 2⟩, batchSize := some 1, throughputMsgSec := some (.ofInt 9),
         p99Ms := some (.ofInt 1), received := some 7 },
       { origin := ⟨"b.csv", 3⟩, batchSize := some 4, flushIntervalMs := some 5 }]
    let whole := Summary.ofRecords (first ++ second)
    Highlight.NoNaN Record.throughputMsgSec (first ++ second) ∧
      Highlight.NoNaN Record.p99Ms (first ++ second) ∧
      Summary.TotalsFit (first ++ second) ∧
      whole.bestThroughput = (Summary.ofRecords first).bestThroughput ∧
      whole.lowestP99 = (Summary.ofRecords second).lowestP99 ∧
      MergesTo [4] [1, 4] whole.batchSizes ∧ whole.received = 0 + 7 := by
  intro first second whole
  have hthroughput : Highlight.NoNaN Record.throughputMsgSec (first ++ second) := by
    unfold Highlight.NoNaN
    decide +kernel
  have hp99 : Highlight.NoNaN Record.p99Ms (first ++ second) := by
    unfold Highlight.NoNaN
    decide +kernel
  have hfits : Summary.TotalsFit (first ++ second) :=
    ⟨by decide +kernel, by decide +kernel, by decide +kernel, by decide +kernel⟩
  obtain ⟨hjoins, -⟩ := summaries_compose hthroughput hp99 hfits
  have hfirst : (Summary.ofRecords first).bestThroughput = some ⟨4, 5, .ofInt 9⟩ := by
    decide +kernel
  have hsecond : (Summary.ofRecords second).bestThroughput = some ⟨1, 0, .ofInt 9⟩ := by
    decide +kernel
  refine ⟨hthroughput, hp99, hfits, hjoins.bestThroughput.earlier ?_, hjoins.lowestP99.later ?_,
    hjoins.batchSizes, hjoins.received⟩
  · simp [Highlight.Outdone, hfirst, hsecond]
  · exact .inr ⟨⟨4, 5, .ofInt 2⟩, by decide +kernel, ⟨1, 0, .ofInt 1⟩, by decide +kernel,
      by decide +kernel⟩

end SweepCharts
