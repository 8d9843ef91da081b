import Mathlib.Data.List.Nodup
import Mathlib.Data.List.Perm.Basic
import SweepCharts.Columns

set_option autoImplicit false

/-! # Columns are known by their values

* `mem_entries_iff`: the entries are the names with a value.
* `ext_get?`: two collections with the same values are equal.
* `ofList_perm`: entries of different names may come in any order.
-/

namespace SweepCharts.Columns

variable {α : Type}

theorem lookupEntry_append (name : String) (entries others : List (String × α)) :
    lookupEntry name (entries ++ others) =
      (lookupEntry name entries).or (lookupEntry name others) := by
  induction entries with
  | nil => rfl
  | cons e rest ih =>
    simp only [List.cons_append, lookupEntry, ih]
    split <;> rfl

theorem lookupEntry_eq_none {name : String} {entries : List (String × α)}
    (h : name ∉ entries.map Prod.fst) : lookupEntry name entries = none := by
  induction entries with
  | nil => rfl
  | cons e rest ih =>
    rw [List.map_cons, List.mem_cons, not_or] at h
    rw [lookupEntry, if_neg h.1, ih h.2]

theorem lookupEntry_eq_some_iff {entries : List (String × α)} {e : String × α}
    (h : (entries.map Prod.fst).Nodup) : lookupEntry e.1 entries = some e.2 ↔ e ∈ entries := by
  induction entries with
  | nil => simp [lookupEntry]
  | cons d rest ih =>
    simp only [List.map_cons, List.nodup_cons] at h
    simp only [lookupEntry, List.mem_cons]
    split
    · rename_i hname
      constructor
      · intro hvalue
        exact .inl (Prod.ext hname (Option.some.inj hvalue).symm)
      · rintro (rfl | hmem)
        · rfl
        · exact absurd (hname ▸ List.mem_map_of_mem hmem) h.1
    · rename_i hname
      rw [ih h.2]
      constructor
      · exact .inr
      · rintro (rfl | hmem)
        · exact absurd rfl hname
        · exact hmem

theorem nodup_names (columns : Columns α) : (columns.entries.map Prod.fst).Nodup :=
  List.pairwise_map.2 (columns.ascending.imp fun h => String.ne_of_lt h)

theorem mem_entries_iff {columns : Columns α} {e : String × α} :
    e ∈ columns.entries ↔ columns.get? e.1 = some e.2 :=
  (lookupEntry_eq_some_iff columns.nodup_names).symm

/-- Two collections with the same values are equal. -/
theorem ext_get? {a b : Columns α} (h : ∀ name, a.get? name = b.get? name) : a = b := by
  have hperm : a.entries.Perm b.entries := by
    refine (List.perm_ext_iff_of_nodup (List.Nodup.of_map _ a.nodup_names)
      (List.Nodup.of_map _ b.nodup_names)).2 ?_
    intro e
    rw [mem_entries_iff, mem_entries_iff, h]
  have hentries : a.entries = b.entries := by
    apply hperm.eq_of_pairwise _ a.ascending b.ascending
    intro d e _ _ hde hed
    exact absurd hde (String.lt_asymm hed)
  cases a
  cases b
  cases hentries
  rfl

/-- The value of a name is that of its only entry. -/
theorem get?_ofList_eq_lookupEntry {entries : List (String × α)}
    (h : (entries.map Prod.fst).Nodup) (name : String) :
    (ofList entries).get? name = lookupEntry name entries := by
  induction entries with
  | nil => rfl
  | cons e rest ih =>
    simp only [List.map_cons, List.nodup_cons] at h
    have hrest := ih h.2
    rw [get?_ofList] at hrest ⊢
    by_cases he : e.1 = name
    · have hnone : (rest.filter fun d => d.1 = name) = [] := by
        apply List.filter_eq_nil_iff.2
        intro d hd
        simp only [decide_eq_true_eq]
        rintro rfl
        exact h.1 (he ▸ List.mem_map_of_mem hd)
      simp [lookupEntry, he, hnone]
    · rw [List.filter_cons_of_neg (by simpa using he), hrest, lookupEntry, if_neg (Ne.symm he)]

/-- Entries of different names may come in any order. -/
theorem ofList_perm {entries others : List (String × α)} (h : (entries.map Prod.fst).Nodup)
    (hperm : others.Perm entries) : ofList others = ofList entries := by
  have hothers : (others.map Prod.fst).Nodup := (hperm.map Prod.fst).nodup_iff.2 h
  apply ext_get?
  intro name
  rw [get?_ofList_eq_lookupEntry hothers, get?_ofList_eq_lookupEntry h]
  apply Option.ext
  intro value
  have hiff := hperm.mem_iff (a := (name, value))
  rwa [← lookupEntry_eq_some_iff hothers, ← lookupEntry_eq_some_iff h] at hiff

end SweepCharts.Columns
