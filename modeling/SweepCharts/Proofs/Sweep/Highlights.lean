import Mathlib.Data.List.Basic
import Mathlib.Data.List.Induction
import SweepCharts.Proofs.Number.Order
import SweepCharts.Sweep.Summary

set_option autoImplicit false

/-! # The first best configuration

A highlight is found in one pass that keeps the best record so far. With a key that orders the
highlights, the pass ends with the first record of the largest key; records without a batch size or
without a value do not count.

* `FirstBest.append`, `FirstBest.prepend`: records after it that are not better, and before it that
  are worse.
* `FirstBest.unique`: there is one first best record.
* `Keeps.append`: what is kept from two lists of records, one after the other.
* `keeps_best?`: what the pass ends with (`Keeps.skip`, `Keeps.pick`: one step).
* `orders_larger`, `orders_smaller`: the keys for the largest and for the smallest value.
* `best?_eq_some_iff`, `best?_eq_none_iff`: when it ends with a highlight, and when with nothing.
* `firstBest_iff`: the first best record is the first one of the best.
* `highlights_are_first_optimum`: **what a summary highlights.**
-/

namespace SweepCharts.Highlight

/-- The highlight that names a record: it has a batch size and a value, and a missing flush interval
is read as 0. -/
structure Names (h : Highlight) (value : Record → Option Binary64) (r : Record) : Prop where
  batchSize : r.batchSize = some h.batchSize
  flushInterval : r.flushIntervalMs.getD 0 = h.flushInterval
  measured : value r = some h.value

/-- `h` names the record `r`, no other record has a larger key, and none before it has one as
large. -/
def FirstBest (key : Highlight → Int) (value : Record → Option Binary64) (records : List Record)
    (h : Highlight) (r : Record) : Prop :=
  h.Names value r ∧ ∃ before after, records = before ++ r :: after ∧
    (∀ s ∈ before, ∀ other : Highlight, other.Names value s → key other < key h) ∧
    ∀ s ∈ after, ∀ other : Highlight, other.Names value s → key other ≤ key h

section
variable {value : Record → Option Binary64} {r s : Record} {h other : Highlight}

theorem ofRecord?_eq_some : ofRecord? value r = some h ↔ h.Names value r := by
  simp only [ofRecord?, Option.bind_eq_bind, Option.bind_eq_some_iff, Option.some.injEq]
  constructor
  · rintro ⟨batch, hbatch, x, hx, rfl⟩
    exact ⟨hbatch, rfl, hx⟩
  · rintro ⟨hbatch, hflush, hx⟩
    exact ⟨_, hbatch, _, hx, congrArg (Highlight.mk _ · _) hflush⟩

instance : Decidable (h.Names value r) := decidable_of_iff _ ofRecord?_eq_some

theorem Names.eq (hh : h.Names value r) (hother : other.Names value r) : h = other := by
  rw [← ofRecord?_eq_some] at hh hother
  exact Option.some.inj (hh.symm.trans hother)

variable {key : Highlight → Int} {records : List Record}

/-! ## More records -/

theorem FirstBest.mem (hbest : FirstBest key value records h r) : r ∈ records := by
  obtain ⟨-, before, after, rfl, -⟩ := hbest
  simp

theorem FirstBest.le (hbest : FirstBest key value records h r) (hs : s ∈ records)
    (hother : other.Names value s) : key other ≤ key h := by
  obtain ⟨hnames, before, after, rfl, hbefore, hafter⟩ := hbest
  rcases List.mem_append.1 hs with hs | hs
  · exact Int.le_of_lt (hbefore s hs other hother)
  · rcases List.mem_cons.1 hs with rfl | hs
    · exact Int.le_of_eq (congrArg key (hother.eq hnames))
    · exact hafter s hs other hother

/-- More records whose keys are not larger. -/
theorem FirstBest.append (hbest : FirstBest key value records h r) {more : List Record}
    (hmore : ∀ s ∈ more, ∀ other : Highlight, other.Names value s → key other ≤ key h) :
    FirstBest key value (records ++ more) h r := by
  obtain ⟨hnames, before, after, rfl, hbefore, hafter⟩ := hbest
  exact ⟨hnames, before, after ++ more, by simp, hbefore,
    List.forall_mem_append.2 ⟨hafter, hmore⟩⟩

/-- Records in front whose keys are smaller. -/
theorem FirstBest.prepend (hbest : FirstBest key value records h r) {front : List Record}
    (hfront : ∀ s ∈ front, ∀ other : Highlight, other.Names value s → key other < key h) :
    FirstBest key value (front ++ records) h r := by
  obtain ⟨hnames, before, after, rfl, hbefore, hafter⟩ := hbest
  exact ⟨hnames, front ++ before, after, by simp,
    List.forall_mem_append.2 ⟨hfront, hbefore⟩, hafter⟩

theorem firstBest_singleton (hnames : h.Names value r) : FirstBest key value [r] h r :=
  ⟨hnames, [], [], rfl, List.forall_mem_nil _, List.forall_mem_nil _⟩

/-- Two places of a list: the same one, or one before the other. -/
theorem split_cases {α : Type} {xs ys zs ws : List α} {a b : α}
    (h : xs ++ a :: ys = zs ++ b :: ws) : a = b ∨ a ∈ zs ∧ b ∈ ys ∨ b ∈ xs ∧ a ∈ ws := by
  rcases List.append_eq_append_iff.1 h with ⟨mid, hmid, hrest⟩ | ⟨mid, hmid, hrest⟩
  · cases mid with
    | nil => exact .inl (List.cons.inj hrest).1
    | cons first mid =>
      obtain ⟨rfl, rfl⟩ := List.cons.inj hrest
      exact .inr (.inl ⟨by simp [hmid], by simp⟩)
  · cases mid with
    | nil => exact .inl (List.cons.inj hrest).1.symm
    | cons first mid =>
      obtain ⟨rfl, rfl⟩ := List.cons.inj hrest
      exact .inr (.inr ⟨by simp [hmid], by simp⟩)

/-- There is one first best record. -/
theorem FirstBest.unique (hbest : FirstBest key value records h r)
    (hother : FirstBest key value records other s) : h = other ∧ r = s := by
  obtain ⟨hnames, before, after, rfl, hbefore, hafter⟩ := hbest
  obtain ⟨hnames', before', after', heq, hbefore', hafter'⟩ := hother
  -- at two different places, the earlier key would be both smaller and not smaller
  rcases split_cases heq with rfl | ⟨hr, hs⟩ | ⟨hs, hr⟩
  · exact ⟨hnames.eq hnames', rfl⟩
  · have hlt := hbefore' r hr h hnames
    have hle := hafter s hs other hnames'
    omega
  · have hlt := hbefore s hs other hnames'
    have hle := hafter' r hr h hnames
    omega

end

/-! ## The pass over all records -/

section
variable {better : Binary64 → Binary64 → Bool} {value : Record → Option Binary64}

theorem best?_snoc (records : List Record) (r : Record) :
    best? better value (records ++ [r]) =
      match ofRecord? value r with
      | none => best? better value records
      | some next => pick better (best? better value records) next := by
  unfold best?
  rw [List.filterMap_append, List.foldl_append]
  cases hr : ofRecord? value r <;> simp [hr]

variable {key : Highlight → Int}

/-- The key says which of two values is better, for the values of these records. -/
def Orders (key : Highlight → Int) (better : Binary64 → Binary64 → Bool)
    (value : Record → Option Binary64) (records : List Record) : Prop :=
  ∀ r ∈ records, ∀ s ∈ records, ∀ a b : Highlight, a.Names value r → b.Names value s →
    better a.value b.value = decide (key b < key a)

theorem Orders.mono {some all : List Record} (h : Orders key better value all)
    (hsub : ∀ r ∈ some, r ∈ all) : Orders key better value some :=
  fun r hr s hs => h r (hsub r hr) s (hsub s hs)

/-- No value of these records is a NaN. -/
def NoNaN (value : Record → Option Binary64) (records : List Record) : Prop :=
  ∀ r ∈ records, ∀ x, value r = some x → x.isNaN = false

/-- Without NaN, the larger value is better. -/
theorem orders_larger {records : List Record} (h : NoNaN value records) :
    Orders (fun h => h.value.scaled) (fun a b => b.below a) value records :=
  fun r hr s hs _ _ ha hb => Binary64.below_eq (h s hs _ hb.measured) (h r hr _ ha.measured)

/-- Without NaN, the smaller value is better. -/
theorem orders_smaller {records : List Record} (h : NoNaN value records) :
    Orders (fun h => -h.value.scaled) (fun a b => a.below b) value records := by
  intro r hr s hs a b ha hb
  have hbelow := Binary64.below_eq (h r hr _ ha.measured) (h s hs _ hb.measured)
  simp only [hbelow, Int.neg_lt_neg_iff]

/-- What a pass over these records keeps: the highlight of the first best one, or nothing if no
record counts. -/
def Keeps (key : Highlight → Int) (value : Record → Option Binary64) (records : List Record) :
    Option Highlight → Prop
  | none => ∀ r ∈ records, ∀ h : Highlight, ¬ h.Names value r
  | some h => ∃ r, FirstBest key value records h r

/-- A later highlight takes the place of an earlier one if there is none, or if it beats it. -/
def Outdone (beats : Highlight → Highlight → Prop) (first second : Option Highlight) : Prop :=
  first = none ∨ ∃ a ∈ first, ∃ b ∈ second, beats b a

theorem Keeps.unique {records : List Record} {a b : Option Highlight}
    (ha : Keeps key value records a) (hb : Keeps key value records b) : a = b := by
  cases a with
  | none =>
    cases b with
    | none => rfl
    | some h =>
      obtain ⟨r, hr⟩ := hb
      exact absurd hr.1 (ha r hr.mem h)
  | some h =>
    obtain ⟨r, hr⟩ := ha
    cases b with
    | none => exact absurd hr.1 (hb r hr.mem h)
    | some other =>
      obtain ⟨s, hs⟩ := hb
      rw [(hr.unique hs).1]

/-- **Records after others**: what is kept from the latter stays unless it is outdone. -/
theorem Keeps.append {first second : List Record} {a b : Option Highlight}
    (ha : Keeps key value first a) (hb : Keeps key value second b) :
    (Outdone (fun b a => key a < key b) a b → Keeps key value (first ++ second) b) ∧
      (¬ Outdone (fun b a => key a < key b) a b → Keeps key value (first ++ second) a) := by
  cases a with
  | none =>
    refine ⟨fun _ => ?_, fun hnot => absurd (.inl rfl) hnot⟩
    cases b with
    | none => exact List.forall_mem_append.2 ⟨ha, hb⟩
    | some y =>
      obtain ⟨s, hs⟩ := hb
      exact ⟨s, hs.prepend fun r hr other hother => absurd hother (ha r hr other)⟩
  | some x =>
    obtain ⟨r, hr⟩ := ha
    cases b with
    | none =>
      refine ⟨fun hout => by simp [Outdone] at hout,
        fun _ => ⟨r, hr.append fun s hs other hother => ?_⟩⟩
      exact absurd hother (hb s hs other)
    | some y =>
      obtain ⟨s, hs⟩ := hb
      refine ⟨fun hout => ⟨s, hs.prepend fun q hq other hother => ?_⟩,
        fun hnot => ⟨r, hr.append fun q hq other hother => ?_⟩⟩
      · have hlt : key x < key y := by simpa [Outdone] using hout
        exact Int.lt_of_le_of_lt (hr.le hq hother) hlt
      · have hle : key y ≤ key x := by simpa [Outdone] using hnot
        exact Int.le_trans (hs.le hq hother) hle

/-- A record more that does not count. -/
theorem Keeps.skip {records : List Record} {best : Option Highlight}
    (hbest : Keeps key value records best) {s : Record} (hs : ∀ h : Highlight, ¬ h.Names value s) :
    Keeps key value (records ++ [s]) best := by
  have hnone : Keeps key value [s] none := List.forall_mem_singleton.2 hs
  cases best with
  | none => exact (hbest.append hnone).1 (.inl rfl)
  | some h => exact (hbest.append hnone).2 (by simp [Outdone])

/-- A record more that counts. -/
theorem Keeps.pick {records : List Record} {best : Option Highlight}
    (hbest : Keeps key value records best) {s : Record} {next : Highlight}
    (hnext : next.Names value s) (horders : Orders key better value (records ++ [s])) :
    Keeps key value (records ++ [s]) (Highlight.pick better best next) := by
  have hsome : Keeps key value [s] (some next) := ⟨s, firstBest_singleton hnext⟩
  have hjoin := hbest.append hsome
  cases best with
  | none => exact hjoin.1 (.inl rfl)
  | some h =>
    obtain ⟨r, hr⟩ := hbest
    have hbetter := horders s (by simp) r (by simp [hr.mem]) next h hnext hr.1
    unfold Highlight.pick
    dsimp only
    rw [hbetter]
    by_cases hlt : key h < key next
    · rw [if_pos (decide_eq_true hlt)]
      exact hjoin.1 (.inr ⟨h, rfl, next, rfl, hlt⟩)
    · rw [if_neg (by simpa using hlt)]
      exact hjoin.2 (by simpa [Outdone] using hlt)

/-- **The pass ends with the first best record**, if any record counts. -/
theorem keeps_best? {records : List Record} (horders : Orders key better value records) :
    Keeps key value records (best? better value records) := by
  induction records using List.reverseRecOn with
  | nil => exact List.forall_mem_nil _
  | append_singleton records s ih =>
    have hrest := ih (horders.mono fun _ => List.mem_append_left _)
    rw [best?_snoc]
    cases hs : ofRecord? value s with
    | none =>
      refine hrest.skip fun h hh => ?_
      rw [ofRecord?_eq_some.2 hh] at hs
      cases hs
    | some next => exact hrest.pick (ofRecord?_eq_some.1 hs) horders

variable {records : List Record} (horders : Orders key better value records)
include horders

theorem best?_eq_some_iff {h : Highlight} :
    best? better value records = some h ↔ ∃ r, FirstBest key value records h r := by
  have hpass := keeps_best? horders
  constructor
  · intro hbest
    rw [hbest] at hpass
    exact hpass
  · intro hfirst
    exact hpass.unique (b := some h) hfirst

theorem best?_eq_none_iff :
    best? better value records = none ↔ ∀ r ∈ records, ∀ h : Highlight, ¬ h.Names value r := by
  have hpass := keeps_best? horders
  constructor
  · intro hbest
    rw [hbest] at hpass
    exact hpass
  · intro hnone
    exact hpass.unique (b := none) hnone

end

/-! ## The first one of the best -/

/-- The record has a batch size and a value, and no record has a better one. -/
def Optimal (atMost : Binary64 → Binary64 → Prop) (value : Record → Option Binary64)
    (records : List Record) (r : Record) : Prop :=
  ∃ h : Highlight, h.Names value r ∧
    ∀ s ∈ records, ∀ other : Highlight, other.Names value s → atMost other.value h.value

/-- `h` names the first one of the optimal records. -/
def FirstOptimum (atMost : Binary64 → Binary64 → Prop) (value : Record → Option Binary64)
    (records : List Record) (h : Highlight) : Prop :=
  ∃ before r after, records = before ++ r :: after ∧ h.Names value r ∧
    Optimal atMost value records r ∧ ∀ s ∈ before, ¬ Optimal atMost value records s

section
variable {key : Highlight → Int} {atMost : Binary64 → Binary64 → Prop}
  {value : Record → Option Binary64} {records : List Record}

/-- With a key that orders the values of the records, the first best record is the first one of the
best. -/
theorem firstBest_iff (hkey : ∀ r ∈ records, ∀ s ∈ records, ∀ a b : Highlight,
      a.Names value r → b.Names value s → (atMost a.value b.value ↔ key a ≤ key b))
    {h : Highlight} :
    (∃ r, FirstBest key value records h r) ↔ FirstOptimum atMost value records h := by
  constructor
  · rintro ⟨r, hbest⟩
    obtain ⟨hnames, before, after, heq, hbefore, -⟩ := id hbest
    refine ⟨before, r, after, heq, hnames, ⟨h, hnames, fun s hs other hother => ?_⟩, ?_⟩
    · exact (hkey s hs r hbest.mem other h hother hnames).2 (hbest.le hs hother)
    · rintro s hs ⟨other, hother, hmost⟩
      have hmem : s ∈ records := by simp [heq, hs]
      have hle := (hkey r hbest.mem s hmem h other hnames hother).1
        (hmost r hbest.mem h hnames)
      exact absurd (hbefore s hs other hother) (Int.not_lt.2 hle)
  · rintro ⟨before, r, after, heq, hnames, ⟨best, hbest, hmost⟩, hbefore⟩
    obtain rfl := hbest.eq hnames
    have hr : r ∈ records := by simp [heq]
    have hle : ∀ s ∈ records, ∀ other : Highlight, other.Names value s → key other ≤ key best :=
      fun s hs other hother => (hkey s hs r hr other best hother hnames).1 (hmost s hs other hother)
    refine ⟨r, hnames, before, after, heq, fun s hs other hother => ?_,
      fun s hs => hle s (by simp [heq, hs])⟩
    have hmem : s ∈ records := by simp [heq, hs]
    have hne : key other ≠ key best := fun hsame => hbefore s hs
      -- a record before it with the same key would be optimal, too
      ⟨other, hother, fun q hq a ha =>
        (hkey q hq s hmem a other ha hother).2 (hsame ▸ hle q hq a ha)⟩
    have hless := hle s hmem other hother
    omega

end

/-! ## The highlights of a summary -/

/-- The record has a batch size and a value. -/
def Counts (value : Record → Option Binary64) (r : Record) : Prop :=
  r.batchSize.isSome = true ∧ (value r).isSome = true

instance (value : Record → Option Binary64) : DecidablePred (Counts value) :=
  fun _ => inferInstanceAs (Decidable (_ ∧ _))

section
variable {value : Record → Option Binary64} {records : List Record}

theorem exists_names_iff {r : Record} : (∃ h : Highlight, h.Names value r) ↔ Counts value r := by
  unfold Counts
  rw [Option.isSome_iff_exists, Option.isSome_iff_exists]
  constructor
  · rintro ⟨h, hh⟩
    exact ⟨⟨_, hh.batchSize⟩, ⟨_, hh.measured⟩⟩
  · rintro ⟨⟨batch, hbatch⟩, ⟨x, hx⟩⟩
    exact ⟨⟨batch, _, x⟩, hbatch, rfl, hx⟩

theorem forall_not_names_iff :
    (∀ r ∈ records, ∀ h : Highlight, ¬ h.Names value r) ↔ ∀ r ∈ records, ¬ Counts value r := by
  simp only [← exists_names_iff, not_exists]

/-- Records that do not count can be left out. -/
theorem best?_filter (better : Binary64 → Binary64 → Bool) :
    best? better value (records.filter fun r => Counts value r) = best? better value records := by
  unfold best?
  rw [List.filterMap_filter]
  congr 1
  refine List.filterMap_congr fun r _ => ?_
  by_cases hr : Counts value r
  · rw [if_pos (decide_eq_true hr)]
  · rw [if_neg (by simpa using hr)]
    cases hname : ofRecord? value r with
    | none => rfl
    | some h => exact absurd (exists_names_iff.1 ⟨h, ofRecord?_eq_some.1 hname⟩) hr

/-- Without NaN, numbers are ordered like their values. -/
theorem atMost_iff_of_names (hnumbers : NoNaN value records) {r s : Record} (hr : r ∈ records)
    (hs : s ∈ records) {a b : Highlight} (ha : a.Names value r) (hb : b.Names value s) :
    a.value.AtMost b.value ↔ a.value.scaled ≤ b.value.scaled :=
  ⟨fun hle => hle.2.2,
    fun hle => ⟨hnumbers r hr _ ha.measured, hnumbers s hs _ hb.measured, hle⟩⟩

end

/-- **A summary highlights the first optimum**, if no value is a NaN: the first record whose
throughput no other one exceeds, and the first one whose latency is not above that of another. Only
records with a batch size and the value count, and without one there is no highlight. -/
theorem highlights_are_first_optimum {records : List Record}
    (hthroughput : NoNaN Record.throughputMsgSec records) (hp99 : NoNaN Record.p99Ms records) :
    let s := Summary.ofRecords records
    ((s.bestThroughput = none ↔ ∀ r ∈ records, ¬ Counts Record.throughputMsgSec r) ∧
      (∀ h, s.bestThroughput = some h ↔
        FirstOptimum Binary64.AtMost Record.throughputMsgSec records h) ∧
      (Summary.ofRecords
        (records.filter fun r => Counts Record.throughputMsgSec r)).bestThroughput =
          s.bestThroughput) ∧
    (s.lowestP99 = none ↔ ∀ r ∈ records, ¬ Counts Record.p99Ms r) ∧
      (∀ h, s.lowestP99 = some h ↔
        FirstOptimum (fun x y => y.AtMost x) Record.p99Ms records h) ∧
      (Summary.ofRecords (records.filter fun r => Counts Record.p99Ms r)).lowestP99 =
        s.lowestP99 := by
  intro s
  have hlarger := orders_larger hthroughput
  have hsmaller := orders_smaller hp99
  refine ⟨⟨?_, fun h => ?_, best?_filter _⟩, ?_, fun h => ?_, best?_filter _⟩
  · exact (best?_eq_none_iff hlarger).trans forall_not_names_iff
  · refine (best?_eq_some_iff hlarger).trans (firstBest_iff fun r hr s hs a b ha hb => ?_)
    exact atMost_iff_of_names hthroughput hr hs ha hb
  · exact (best?_eq_none_iff hsmaller).trans forall_not_names_iff
  · refine (best?_eq_some_iff hsmaller).trans (firstBest_iff fun r hr s hs a b ha hb => ?_)
    rw [atMost_iff_of_names hp99 hs hr hb ha, Int.neg_le_neg_iff]

/-- The two zeros are a draw, and the record without a batch size does not count. -/
theorem highlights_are_first_optimum_zeros :
    let zero : Binary64 := .ofInt 0
    let minusZero : Binary64 := .ofMagnitudeBits true 0
    let records : List Record :=
      [{ origin := ⟨"in.csv", 2⟩, throughputMsgSec := some (.ofInt 9),
         p99Ms := some (.ofInt (-9)) },
       { origin := ⟨"in.csv", 3⟩, batchSize := some 2, throughputMsgSec := some minusZero,
         p99Ms := some zero },
       { origin := ⟨"in.csv", 4⟩, batchSize := some 8, flushIntervalMs := some 5,
         throughputMsgSec := some zero, p99Ms := some minusZero }]
    NoNaN Record.throughputMsgSec records ∧ NoNaN Record.p99Ms records ∧
      FirstOptimum Binary64.AtMost Record.throughputMsgSec records ⟨2, 0, minusZero⟩ ∧
      FirstOptimum (fun x y => y.AtMost x) Record.p99Ms records ⟨2, 0, zero⟩ := by
  intro zero minusZero records
  have hthroughput : NoNaN Record.throughputMsgSec records := by
    unfold NoNaN
    decide +kernel
  have hp99 : NoNaN Record.p99Ms records := by
    unfold NoNaN
    decide +kernel
  obtain ⟨⟨-, hbest, -⟩, -, hlowest, -⟩ := highlights_are_first_optimum hthroughput hp99
  exact ⟨hthroughput, hp99, (hbest _).1 (by decide +kernel), (hlowest _).1 (by decide +kernel)⟩

end SweepCharts.Highlight
