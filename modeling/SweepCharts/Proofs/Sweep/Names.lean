import Mathlib.Data.List.Basic
import SweepCharts.Proofs.Sweep.Taking

set_option autoImplicit false

/-! # Names of statistics

The name of a buffering statistic is that of its side with more after it. No plain name starts with
a side, and no name starts with both, so a name is split in one way at most.

* `Side.suffix?_eq_some`: what is found after a side.
* `hasValue_column`: a name that starts with a side stands for a statistic of that side, whatever
  follows.
* `hasValue_eq`: looking a name up by its parts is looking it up in the header.
-/

namespace SweepCharts

namespace Side

theorem suffix?_eq_some {side : Side} {name suffix : String} :
    side.suffix? name = some suffix ↔ name = side.column suffix := by
  unfold suffix? column
  rw [Option.map_eq_some_iff]
  constructor
  · rintro ⟨rest, hrest, rfl⟩
    rw [List.isPrefixOf?_eq_some_iff_append_eq] at hrest
    rw [← String.toList_inj, String.toList_append, String.toList_ofList, hrest]
  · rintro rfl
    refine ⟨suffix.toList, ?_, String.ofList_toList⟩
    rw [List.isPrefixOf?_eq_some_iff_append_eq, String.toList_append]

theorem suffix?_column (side : Side) (suffix : String) :
    side.suffix? (side.column suffix) = some suffix :=
  suffix?_eq_some.2 rfl

/-- No name starts with both sides. -/
theorem suffix?_client_server (suffix : String) :
    client.suffix? (server.column suffix) = none := by
  unfold suffix? column
  rw [String.toList_append]
  rfl

end Side

/-- No plain name starts with a side. -/
theorem Column.suffix?_plain : ∀ c ∈ plain, ∀ side : Side, side.suffix? c.name = none := by
  intro c hc side
  cases side <;> revert c <;> decide

theorem Stat.ofSuffix?_eq_some {suffix : String} {stat : Stat} :
    ofSuffix? suffix = some stat ↔ stat.suffix = suffix := by
  refine ⟨fun h => by simpa using List.find?_some h, ?_⟩
  rintro rfl
  cases stat <;> decide

/-! ## Whether a record has a value -/

theorem find?_plain_eq_none {name : String} {side : Side} {suffix : String}
    (h : side.suffix? name = some suffix) :
    (Column.plain.find? fun c => c.name = name) = none := by
  rw [List.find?_eq_none]
  intro c hc heq
  rw [decide_eq_true_eq] at heq
  rw [← heq, Column.suffix?_plain c hc side] at h
  cases h

/-- **A name that starts with a side** stands for a statistic of that side. -/
theorem hasValue_column (r : Record) (side : Side) (suffix : String) :
    r.hasValue (side.column suffix) = (r.side side).hasValue suffix := by
  unfold Record.hasValue
  rw [find?_plain_eq_none (side.suffix?_column suffix)]
  cases side with
  | client =>
    rw [Side.suffix?_column]
    rfl
  | server =>
    rw [Side.suffix?_client_server, Side.suffix?_column]
    rfl

theorem hasValue_suffix (s : Stats) (stat : Stat) :
    s.hasValue stat.suffix = (s.value? stat).isSome := by
  rw [Stats.hasValue, Stat.ofSuffix?_eq_some.2 rfl]
  rfl

theorem hasValue_name (r : Record) (c : Column) : r.hasValue c.name = (r.value? c).isSome := by
  have hplain (hc : (Column.plain.find? fun d => d.name = c.name) = some c) :
      r.hasValue c.name = (r.value? c).isSome := by
    rw [Record.hasValue, hc]
  cases c with
  | buffering side stat => exact (hasValue_column r side stat.suffix).trans (hasValue_suffix _ stat)
  | _ => exact hplain (by decide)

/-- What follows a side is no statistic unless both together are the name of a column. -/
theorem hasValue_eq_false {s : Stats} {side : Side} {suffix : String}
    (h : Column.ofName? (side.column suffix) = none) : s.hasValue suffix = false := by
  cases hstat : Stat.ofSuffix? suffix with
  | none =>
    rw [Stats.hasValue, hstat]
    rfl
  | some stat =>
    have hname : (Column.buffering side stat).name = side.column suffix :=
      congrArg side.column (Stat.ofSuffix?_eq_some.1 hstat)
    rw [Column.ofName?_eq_some.2 hname] at h
    cases h

/-- **Only columns of the header have a value**, and each has that of its field. -/
theorem hasValue_eq (r : Record) (name : String) :
    r.hasValue name = ((Column.ofName? name).bind r.value?).isSome := by
  cases hname : Column.ofName? name with
  | some c =>
    obtain rfl := Column.ofName?_eq_some.1 hname
    exact hasValue_name r c
  | none =>
    unfold Record.hasValue
    split
    · rename_i c hc
      have hcname : c.name = name := by simpa using List.find?_some hc
      rw [Column.ofName?_eq_some.2 hcname] at hname
      cases hname
    · split
      · rename_i suffix hclient
        exact hasValue_eq_false (Side.suffix?_eq_some.1 hclient ▸ hname)
      · split
        · rename_i suffix hserver
          exact hasValue_eq_false (Side.suffix?_eq_some.1 hserver ▸ hname)
        · rfl

/-- A side before another side is the name of nothing. -/
example (r : Record) : r.hasValue "clientserverFlushes" = false := rfl

end SweepCharts
