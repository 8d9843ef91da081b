import SweepCharts.Proofs.Run.WriteOrder
import SweepCharts.Proofs.Sweep.Usability

set_option autoImplicit false

/-! # Announcements

A run announces the pages of its sweep in its last messages. No other message looks like an
announcement, so once a page is announced all files are written.

* `Starts.not_starts`: a text cannot start in two ways.
* `AnnouncesLast`: the shape of scripts (`exists_announcesLast_script`), and what follows from it
  (`AnnouncesLast.leaves`).
-/

namespace SweepCharts

/-! ## Messages -/

/-- A text starts with another. -/
def Starts (start text : String) : Prop := start.toList <+: text.toList

theorem Starts.append {start text : String} (h : Starts start text) (more : String) :
    Starts start (text ++ more) := by
  rw [Starts, String.toList_append]
  exact h.trans (List.prefix_append _ _)

theorem Starts.not_starts {start other text : String} (h : Starts start text)
    (hfirst : ¬ Starts start other) (hsecond : ¬ Starts other start) : ¬ Starts other text :=
  fun h' => (List.prefix_or_prefix_of_prefix h h').elim hfirst hsecond

instance (start text : String) : Decidable (Starts start text) := by
  unfold Starts
  infer_instance

/-- A message that a page of a sweep was written. -/
def LogLine.Announces (line : LogLine) : Prop := Starts "Generated plot at: " line.text

/-- A colored text starts with a terminal code, one that is not colored as it did. -/
theorem Starts.paint {start text : String} (h : Starts start text) (color : Color)
    (colored : Bool) :
    Starts "\x1b" (color.paint colored text) ∨ Starts start (color.paint colored text) := by
  cases colored with
  | false => exact .inr h
  | true =>
    have hchars := @String.toList_ofList (color.start ++ color.reopen text.toList ++ Color.reset)
    rw [Color.paint, if_pos rfl]
    refine .inl ?_
    rw [Starts, hchars]
    exact ⟨_, rfl⟩

theorem not_announces (start : String) {line : LogLine}
    (h : Starts "\x1b" line.text ∨ Starts start line.text)
    (hfirst : ¬ Starts start "Generated plot at: ")
    (hsecond : ¬ Starts "Generated plot at: " start) : ¬ line.Announces := by
  rcases h with h | h
  · exact h.not_starts (by decide) (by decide)
  · exact h.not_starts hfirst hsecond

theorem not_announces_warnings (records : List Record) :
    ∀ line ∈ NamedChart.warnings records, ¬ line.Announces := by
  have hskip {σ : Type} (needs : Needs) (kind : ChartKind) (take : σ → Record → σ) (s : σ)
      (records : List Record) : ∀ line ∈ (needs.loop kind take s records).2,
        Starts "Skipping record at " line.text := by
    intro line hline
    rw [Needs.loop_eq] at hline
    obtain ⟨r, -, rfl⟩ := List.mem_map.1 hline
    simp only [skipWarning, LogLine.warn, Starts, String.toList_append, List.append_assoc]
    exact List.prefix_append _ _
  intro line hline
  simp only [NamedChart.warnings, List.mem_append] at hline
  rcases hline with ((hline | hline) | hline) | hline
  · exact (hskip _ _ _ _ _ line hline).not_starts (by decide) (by decide)
  · exact (hskip _ _ _ _ _ line hline).not_starts (by decide) (by decide)
  · exact (hskip _ _ _ _ _ line hline).not_starts (by decide) (by decide)
  · split at hline
    · obtain rfl := List.mem_singleton.1 hline
      have hstarts : Starts "Skipping " Grid.absenceWarning.text := by decide
      exact hstarts.not_starts (by decide) (by decide)
    · cases hline

theorem not_announces_report (s : Summary) (files : Nat) (colored : Bool) :
    ∀ line ∈ s.report files colored, ¬ line.Announces := by
  intro line hline
  simp only [Summary.report, List.mem_append, List.mem_singleton, List.mem_map,
    Option.mem_toList] at hline
  rcases hline with ((rfl | ⟨h, -, rfl⟩) | ⟨h, -, rfl⟩) | rfl
  · refine not_announces "Loaded " (Starts.paint ?_ _ _) (by decide) (by decide)
    simp only [Starts, String.toList_append, List.append_assoc]
    exact List.prefix_append _ _
  · refine not_announces "Best throughput" (Starts.paint ?_ _ _) (by decide) (by decide)
    simp only [Highlight.sentence, Starts, String.toList_append, List.append_assoc]
    exact List.prefix_append _ _
  · refine not_announces "Lowest p99 latency" (Starts.paint ?_ _ _) (by decide)
      (by decide)
    simp only [Highlight.sentence, Starts, String.toList_append, List.append_assoc]
    exact List.prefix_append _ _
  · refine not_announces "Received " ((Starts.paint ?_ _ _).imp
      (fun h => h.append "\n") (fun h => h.append "\n")) (by decide) (by decide)
    simp only [Starts, String.toList_append, List.append_assoc]
    exact List.prefix_append _ _

namespace Run

open SweepCharts.Tree

/-! ## Announcements come last -/

/-- Actions without an announcement. -/
def Quiet (actions : List Action) : Prop := ∀ line ∈ Actions.lines actions, ¬ line.Announces

theorem quiet_nil : Quiet [] := List.forall_mem_nil _

theorem quiet_append {actions more : List Action} :
    Quiet (actions ++ more) ↔ Quiet actions ∧ Quiet more := by
  simp only [Quiet, Actions.lines_append, List.mem_append, or_imp, forall_and]

theorem quiet_say {lines : List LogLine} (h : ∀ line ∈ lines, ¬ line.Announces) :
    Quiet [.say lines] := by
  simpa [Quiet, Actions.lines, Action.lines] using h

theorem quiet_map_save (outputs : List Output) : Quiet (outputs.map .save) := by
  rw [Quiet, Actions.lines_map_save]
  exact List.forall_mem_nil _

theorem quiet_foundActions (args : Args) (files : List String) :
    Quiet (foundActions args files) := by
  unfold foundActions
  split
  · refine quiet_say fun line hline => ?_
    rw [List.mem_singleton.1 hline]
    refine not_announces "Using CSVs from " (.inr ?_) (by decide) (by decide)
    simp only [LogLine.info, Starts, String.toList_append, List.append_assoc]
    exact List.prefix_append _ _
  · exact quiet_nil

theorem quiet_sliceActions (args : Args) (rows : List SliceRow) :
    Quiet (sliceActions args rows) := by
  refine quiet_say fun line hline => ?_
  rw [List.mem_singleton.1 hline]
  have hstarts : Starts "Generated Slice"
      ("Generated " ++ ChartKind.sliceSweep.display ++ " plot at: ") := by decide
  exact not_announces "Generated Slice"
    (.inr ((((hstarts.append _).append _).append _).append _)) (by decide) (by decide)

theorem quiet_sweepActions (args : Args) (colored : Bool) (files : List String)
    (records : List Record) : Quiet (sweepActions args colored files records) := by
  have hsaved : Quiet [.save (recordsFile records),
      .say [.info ("Saved records to: " ++ (recordsFile records).path args.outputDir)]] := by
    refine quiet_say fun line hline => ?_
    rw [List.mem_singleton.1 hline]
    refine not_announces "Saved records to: " (.inr ?_) (by decide) (by decide)
    simp only [LogLine.info, Starts, String.toList_append]
    exact List.prefix_append _ _
  simp only [sweepActions, quiet_append]
  refine ⟨⟨⟨quiet_say (not_announces_warnings records), ?_⟩, ?_⟩, quiet_map_save _⟩
  · split
    · exact quiet_nil
    · exact quiet_say (not_announces_report _ _ _)
  · split
    · exact hsaved
    · exact quiet_nil

/-- The last of these actions announce pages, and save nothing; the others do not announce. -/
def AnnouncesLast (actions : List Action) (announced : List LogLine) : Prop :=
  ∃ body last, actions = body ++ last ∧ Quiet body ∧ Actions.outputs last = [] ∧
    Actions.lines last = announced

theorem Quiet.announcesLast {actions : List Action} (h : Quiet actions) :
    AnnouncesLast actions [] := ⟨actions, [], (List.append_nil _).symm, h, rfl, rfl⟩

theorem Quiet.announcesLast_append {front actions : List Action} {announced : List LogLine}
    (hfront : Quiet front) (h : AnnouncesLast actions announced) :
    AnnouncesLast (front ++ actions) announced := by
  obtain ⟨body, last, rfl, hbody, hlast⟩ := h
  exact ⟨front ++ body, last, (List.append_assoc _ _ _).symm, quiet_append.2 ⟨hfront, hbody⟩, hlast⟩

/-- The messages about the pages of a sweep. -/
def announcements (args : Args) (records : List Record) : List LogLine :=
  (sweepPages args records).map (generatedLine args records)

theorem announcesLast_drawn (args : Args) (colored : Bool) (files : List String)
    (records : List Record) :
    AnnouncesLast (foundActions args files ++ sweepActions args colored files records ++
      [.say (announcements args records)]) (announcements args records) :=
  ⟨_, _, rfl, quiet_append.2 ⟨quiet_foundActions args files,
    quiet_sweepActions args colored files records⟩, rfl, List.append_nil _⟩

theorem exists_announcesLast_sweepScript (args : Args) (colored : Bool) (pages : List String)
    (t : Tree) :
    ∃ announced, AnnouncesLast (sweepScript args colored pages t).actions announced := by
  rcases sweepScript_cases args colored pages t with
    ⟨-, -, heq⟩ | ⟨e, actions, -, hactions, -, heq⟩ | ⟨records, -, -, -, -, heq⟩
  · rw [heq]
    exact ⟨[], quiet_nil.announcesLast⟩
  · rw [heq]
    refine ⟨[], Quiet.announcesLast ?_⟩
    rcases hactions with rfl | rfl
    · exact quiet_nil
    · exact quiet_foundActions args _
  · rw [heq]
    exact ⟨_, announcesLast_drawn args colored _ records⟩

theorem exists_announcesLast_script (args : Args) (colored : Bool) (t : Tree) :
    ∃ announced, AnnouncesLast (script args colored t).actions announced := by
  unfold script
  split
  · exact exists_announcesLast_sweepScript args colored [] t
  · split
    · exact ⟨[], quiet_nil.announcesLast⟩
    · rename_i rows _
      obtain ⟨announced, h⟩ := exists_announcesLast_sweepScript args colored
        [(slicePage args rows).path args.outputDir] (t.saved args.outputDir (slicePage args rows))
      exact ⟨announced, (quiet_sliceActions args rows).announcesLast_append h⟩

/-- Once a page is announced all files are written. -/
theorem AnnouncesLast.leaves {dir : String} {actions : List Action} {announced : List LogLine}
    (h : AnnouncesLast actions announced) (hdiffer : DifferInKind (Actions.outputs actions))
    {w after : Workspace} {result : Except RunError Unit}
    (hexec : (Actions.perform dir actions).exec w = (result, after)) :
    ∃ new, after.log = w.log ++ new ∧ ((∃ line ∈ new, line.Announces) →
      Leaves dir w.tree after.tree (Actions.outputs actions)) := by
  rcases Actions.perform_cases dir actions w hdiffer with
    ⟨tree, heq, hleaves⟩ | ⟨done, o, rest, tree, e, hactions, heq, -, -⟩
  · obtain ⟨-, rfl⟩ := Prod.mk.inj (heq.symm.trans hexec)
    exact ⟨_, rfl, fun _ => hleaves⟩
  · obtain ⟨-, rfl⟩ := Prod.mk.inj (heq.symm.trans hexec)
    refine ⟨_, rfl, fun ⟨line, hline, hannounces⟩ => ?_⟩
    obtain ⟨body, last, hsplit, hquiet, hlast, -⟩ := h
    -- the file that failed is none of the last actions, so all that was done is quiet
    rcases List.append_eq_append_iff.1 (hsplit.symm.trans hactions) with
      ⟨front, rfl, hrest⟩ | ⟨back, hbody, hrest⟩
    · rw [hrest, Actions.outputs_append] at hlast
      cases (List.append_eq_nil_iff.1 hlast).2
    · rw [hbody] at hquiet
      exact absurd hannounces ((quiet_append.1 hquiet).1 line hline)

end Run

end SweepCharts
