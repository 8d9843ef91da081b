set_option autoImplicit false

/-! # The values of an axis

`distinct` lists the different values of a list in ascending order, each once.

* `mem_distinct`: it has the same members as the list.
* `ascending_distinct`: it ascends strictly.
-/

namespace SweepCharts

/-- A value at its place in an ascending list, unless it is there. -/
def insertDistinct (n : Int) : List Int → List Int
  | [] => [n]
  | m :: rest =>
    if n < m then n :: m :: rest
    else if m < n then m :: insertDistinct n rest
    else m :: rest

/-- The different values in ascending order. -/
def distinct (values : List Int) : List Int := values.foldl (fun axis n => insertDistinct n axis) []

/-! ## Members -/

theorem mem_insertDistinct {k n : Int} {axis : List Int} :
    k ∈ insertDistinct n axis ↔ k = n ∨ k ∈ axis := by
  induction axis with
  | nil => exact List.mem_cons
  | cons m rest ih =>
    unfold insertDistinct
    split
    · exact List.mem_cons
    · split
      · rw [List.mem_cons, ih, List.mem_cons]
        exact or_left_comm
      · have heq : n = m := by omega
        rw [heq, List.mem_cons]
        exact ⟨.inr, fun h => h.elim .inl id⟩

theorem mem_foldl_insertDistinct {k : Int} (values axis : List Int) :
    k ∈ values.foldl (fun axis n => insertDistinct n axis) axis ↔ k ∈ values ∨ k ∈ axis := by
  induction values generalizing axis with
  | nil => exact ⟨.inr, fun h => h.elim (fun h => nomatch h) id⟩
  | cons n rest ih =>
    rw [List.foldl_cons, ih, mem_insertDistinct, List.mem_cons, or_assoc]
    exact or_left_comm

theorem mem_distinct {k : Int} {values : List Int} : k ∈ distinct values ↔ k ∈ values :=
  (mem_foldl_insertDistinct values []).trans ⟨fun h => h.elim id (fun h => nomatch h), .inl⟩

/-! ## Order -/

theorem ascending_insertDistinct (n : Int) {axis : List Int} (h : axis.Pairwise (· < ·)) :
    (insertDistinct n axis).Pairwise (· < ·) := by
  induction axis with
  | nil => exact List.pairwise_singleton _ _
  | cons m rest ih =>
    obtain ⟨hfirst, hrest⟩ := List.pairwise_cons.1 h
    unfold insertDistinct
    split
    · rename_i hlt
      refine List.pairwise_cons.2 ⟨fun k hk => ?_, h⟩
      rcases List.mem_cons.1 hk with rfl | hk
      · exact hlt
      · exact Int.lt_trans hlt (hfirst k hk)
    · split
      · rename_i hgt
        refine List.pairwise_cons.2 ⟨fun k hk => ?_, ih hrest⟩
        rcases mem_insertDistinct.1 hk with rfl | hk
        · exact hgt
        · exact hfirst k hk
      · exact h

theorem ascending_distinct (values : List Int) : (distinct values).Pairwise (· < ·) := by
  have h (axis : List Int) (haxis : axis.Pairwise (· < ·)) :
      (values.foldl (fun axis n => insertDistinct n axis) axis).Pairwise (· < ·) := by
    induction values generalizing axis with
    | nil => exact haxis
    | cons n rest ih => exact ih _ (ascending_insertDistinct n haxis)
  exact h [] .nil

end SweepCharts
