import Mathlib.Data.List.Forall2
import SweepCharts.Sweep.Configuration

set_option autoImplicit false

/-! # The order by configuration

* `arranged_sortByConfiguration`: sorting keeps every record, ascends, and is stable.
* `forall₂_sortByConfiguration`: only configurations decide where a record goes.
-/

namespace SweepCharts

namespace Configuration

theorem le_iff {a b : Configuration} :
    a.le b = true ↔ a.flushInterval < b.flushInterval ∨
      a.flushInterval = b.flushInterval ∧ a.batchSize ≤ b.batchSize := by
  simp [le]

theorem le_trans (a b c : Configuration) (hab : a.le b = true) (hbc : b.le c = true) :
    a.le c = true := by
  rw [le_iff] at hab hbc ⊢
  omega

theorem le_total (a b : Configuration) : (a.le b || b.le a) = true := by
  rw [Bool.or_eq_true, le_iff, le_iff]
  omega

end Configuration

namespace Record

/-! ## A stable order -/

/-- The records in ascending order of flush interval, then of batch size, missing values read as 0;
records of one configuration follow each other as before. -/
structure Arranged (records sorted : List Record) : Prop where
  perm : sorted.Perm records
  ascending : sorted.Pairwise fun a b => a.flushInterval < b.flushInterval ∨
    a.flushInterval = b.flushInterval ∧ a.batchSize.getD 0 ≤ b.batchSize.getD 0
  stable : ∀ flushInterval batchSize : Int,
    (sorted.filter fun r => r.flushInterval = flushInterval ∧ r.batchSize.getD 0 = batchSize) =
      records.filter fun r => r.flushInterval = flushInterval ∧ r.batchSize.getD 0 = batchSize

/-- The order of records as a test. -/
def precedes (a b : Record) : Bool := a.configuration.le b.configuration

theorem precedes_trans (a b c : Record) (hab : a.precedes b = true) (hbc : b.precedes c = true) :
    a.precedes c = true := Configuration.le_trans _ _ _ hab hbc

theorem precedes_total (a b : Record) : (a.precedes b || b.precedes a) = true :=
  Configuration.le_total _ _

theorem sortByConfiguration_eq (records : List Record) :
    sortByConfiguration records = records.mergeSort precedes := rfl

/-- Records of one configuration are in order already, so sorting does not move them past each
other. -/
theorem filter_sortByConfiguration {p : Record → Bool} (records : List Record)
    (hp : ∀ a b, p a = true → p b = true → a.precedes b = true) :
    (sortByConfiguration records).filter p = records.filter p := by
  have hperm : (sortByConfiguration records).Perm records := List.mergeSort_perm _ _
  have hordered : (records.filter p).Pairwise fun a b => a.precedes b = true :=
    List.pairwise_of_forall_mem_list fun a ha b hb =>
      hp a b (List.mem_filter.1 ha).2 (List.mem_filter.1 hb).2
  have hsublist : (records.filter p).Sublist (sortByConfiguration records) :=
    List.sublist_mergeSort precedes_trans precedes_total hordered List.filter_sublist
  have hfilter := hsublist.filter p
  simp only [List.filter_filter, Bool.and_self] at hfilter
  exact (hfilter.eq_of_length (hperm.filter p).length_eq.symm).symm

theorem arranged_sortByConfiguration (records : List Record) :
    Arranged records (sortByConfiguration records) where
  perm := List.mergeSort_perm _ _
  ascending := (List.pairwise_mergeSort precedes_trans precedes_total records).imp
    Configuration.le_iff.1
  stable flushInterval batchSize := filter_sortByConfiguration records fun a b ha hb => by
    obtain ⟨ha, ha'⟩ := of_decide_eq_true ha
    obtain ⟨hb, hb'⟩ := of_decide_eq_true hb
    exact Configuration.le_iff.2 (.inr ⟨ha.trans hb.symm, Int.le_of_eq (ha'.trans hb'.symm)⟩)

/-! ## Two lists sorted alike -/

/-- Lists that are alike position by position stay so, if alike records have one configuration. -/
theorem forall₂_sortByConfiguration {R : Record → Record → Prop} {rs ss : List Record}
    (h : List.Forall₂ R rs ss) (hR : ∀ r s, R r s → r.configuration = s.configuration) :
    List.Forall₂ R (sortByConfiguration rs) (sortByConfiguration ss) := by
  -- the list of pairs, sorted by either side
  obtain ⟨hlength, hpairs⟩ := List.forall₂_iff_zip.1 h
  let pairs := (rs.zip ss).mergeSort fun p q => p.1.precedes q.1
  have hmem : ∀ p ∈ pairs, R p.1 p.2 := fun p hp => hpairs (List.mem_mergeSort.1 hp)
  have hleft : pairs.map Prod.fst = sortByConfiguration rs := by
    have hmap : pairs.map Prod.fst = ((rs.zip ss).map Prod.fst).mergeSort precedes :=
      List.map_mergeSort fun p _ q _ => rfl
    rw [hmap, List.map_fst_zip (Nat.le_of_eq hlength), sortByConfiguration_eq]
  have hright : pairs.map Prod.snd = sortByConfiguration ss := by
    have hmap : pairs.map Prod.snd = ((rs.zip ss).map Prod.snd).mergeSort precedes :=
      List.map_mergeSort fun p hp q hq => by
        rw [precedes, precedes, hR _ _ (hpairs hp), hR _ _ (hpairs hq)]
    rw [hmap, List.map_snd_zip (Nat.le_of_eq hlength.symm), sortByConfiguration_eq]
  rw [← hleft, ← hright, List.forall₂_map_left_iff, List.forall₂_map_right_iff,
    List.forall₂_same]
  exact hmem

end Record

end SweepCharts
