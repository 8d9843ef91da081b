import SweepCharts.Proofs.Files.Discovery
import SweepCharts.Proofs.Run.Loading
import SweepCharts.Proofs.Run.WriteOrder

set_option autoImplicit false

/-! # What a run reads again

A run reads in the tree that it leaves what it has read before, as long as it was not given one of
its own outputs to read.

* `Leaves.loadRecords_eq`, `Leaves.loadSlices_eq`: what was loaded is loaded again.
* `script_again`: the script of a run is also its script in the tree that it leaves.
-/

namespace SweepCharts

namespace Tree

section
variable {dir : String} {before after : Tree} {outputs : List Output}
  (h : Leaves dir before after outputs)
include h

theorem Leaves.loadRecords_eq {files : List String} {records : List Record}
    (hfree : ∀ path ∈ files, ∀ o ∈ outputs, ¬ after.SameFile path (o.path dir))
    (hload : before.loadRecords files = .ok records) : after.loadRecords files = .ok records := by
  obtain ⟨parts, hholds, rfl⟩ := loadRecords_eq_ok_iff.1 hload
  refine loadRecords_eq_ok_iff.2 ⟨parts, ?_, rfl⟩
  refine ((List.forall₂_and_left _ _).2 ⟨hfree, hholds⟩).imp fun path part hpath => ?_
  obtain ⟨hpath, content, rows, hopen, hrows⟩ := hpath
  exact ⟨content, rows, h.open_eq hopen hpath, hrows⟩

/-- Where a file was loaded from there is now the same text, or there was nothing before. -/
theorem Leaves.open_eq_of_loadRecords {files : List String} {records : List Record}
    (hfree : ∀ path ∈ files, ∀ o ∈ outputs, ¬ after.SameFile path (o.path dir))
    (hload : after.loadRecords files = .ok records) :
    ∀ path ∈ files, after.open path = before.open path ∨ before.open path = .error .notFound := by
  intro path hpath
  obtain ⟨parts, hholds, -⟩ := loadRecords_eq_ok_iff.1 hload
  have hopen : ∀ path ∈ files, ∃ content, after.open path = .ok (.file content) :=
    ((List.forall₂_and_left _ _).1 (hholds.imp fun path part hpath => by
      obtain ⟨content, rows, hopen, -⟩ := id hpath
      exact ⟨⟨content, hopen⟩, hpath⟩)).1
  obtain ⟨content, hafter⟩ := hopen path hpath
  cases hbefore : before.open path with
  | error e => exact .inr (congrArg Except.error (h.open_eq_error hafter hbefore))
  | ok node => exact .inl (h.open_eq hbefore (hfree path hpath))

theorem Leaves.loadSlices_eq {path : String} {rows : List SliceRow}
    (hfree : ∀ o ∈ outputs, ¬ after.SameFile path (o.path dir))
    (hload : before.loadSlices path = .ok rows) : after.loadSlices path = .ok rows := by
  rw [loadSlices, openSource] at hload ⊢
  cases hopen : before.open path with
  | error e =>
    rw [hopen] at hload
    cases hload
  | ok node =>
    rw [hopen] at hload
    rw [h.open_eq hopen hfree]
    exact hload

end

end Tree

namespace Run

open SweepCharts.Tree

section
variable {args : Args} {colored : Bool} {opener : Opener}

theorem inputs_eq {t after : Tree} {outputs : List Output}
    (h : Leaves args.outputDir t after outputs) (hne : (inputs args t).isEmpty = false) :
    inputs args after = inputs args t := by
  unfold inputs at hne ⊢
  split at hne
  · rename_i hfiles
    rw [if_pos hfiles, if_pos hfiles]
    exact h.discover_eq fun hnil => by simp [hnil] at hne
  · rename_i hfiles
    rw [if_neg hfiles, if_neg hfiles]

/-- No table of a sweep is an output, if none of those that are given is. -/
theorem not_sameFile_of_inputs {t u : Tree} {outputs : List Output}
    (hfree : ∀ path ∈ args.files, ∀ o ∈ outputs, ¬ u.SameFile path (o.path args.outputDir)) :
    ∀ path ∈ inputs args t, ∀ o ∈ outputs, ¬ u.SameFile path (o.path args.outputDir) := by
  intro path hpath o ho
  unfold inputs at hpath
  split at hpath
  · exact not_sameFile_of_discover hpath
  · exact hfree path hpath o ho

/-- The script of a sweep is also its script in the tree that it leaves. -/
theorem sweepScript_again {pages : List String} {w after : Workspace}
    {result : Except RunError Unit}
    (h : ((sweepScript args colored pages w.tree).job args.outputDir opener).exec w =
      (result, after))
    (hfree : ∀ path ∈ args.files, ∀ o ∈ sweepFiles args w.tree,
      ¬ after.tree.SameFile path (o.path args.outputDir)) :
    sweepScript args colored pages after.tree = sweepScript args colored pages w.tree := by
  have houtputs := outputs_sweepScript args colored pages w.tree
  obtain ⟨done, hdone⟩ := Script.exists_perform_of_exec h
  have hunchanged (hnil : sweepFiles args w.tree = []) : after.tree = w.tree := by
    have hsame := Actions.exec_perform_of_outputs args.outputDir (houtputs.trans hnil) w
    rw [← (Prod.mk.inj (hsame.symm.trans hdone)).2]
  rcases sweepScript_cases args colored pages w.tree with
    ⟨-, hnil, -⟩ | ⟨-, -, -, -, hnil, -⟩ | ⟨records, hplots, hinputs, hload, -, -⟩
  · rw [hunchanged hnil]
  · rw [hunchanged hnil]
  · obtain ⟨saved, hsubset, hleaves⟩ := Actions.exists_leaves_of_perform
      (differInKind_sweepScript args colored pages w.tree) hdone
    rw [houtputs] at hsubset
    have hagain := hleaves.loadRecords_eq (not_sameFile_of_inputs fun path hpath o ho =>
      hfree path hpath o (hsubset.subset ho)) hload
    have hsame := inputs_eq hleaves hinputs
    simp only [sweepScript, hplots, hsame, hload, hagain]

/-- The page of a slice sweep is saved, or the run ends. -/
theorem exec_sliceActions_cases (args : Args) (rows : List SliceRow) (w : Workspace) :
    let page := slicePage args rows
    let tree := w.tree.saved args.outputDir page
    (∃ log, (Actions.perform args.outputDir (sliceActions args rows)).exec w =
        (.ok (), ⟨tree, log⟩) ∧ Leaves args.outputDir w.tree tree [page]) ∨
    ∃ e, (Actions.perform args.outputDir (sliceActions args rows)).exec w =
        (.error e, ⟨tree, w.log⟩) ∧ tree.saved args.outputDir page = tree := by
  intro page tree
  have hsaved := Action.exec_save_snd args.outputDir page w
  rw [sliceActions, Actions.perform, Job.exec_bind]
  rcases Action.exec_save_cases args.outputDir page w with
    ⟨after, heq, hleaves⟩ | ⟨after, e, heq, -, -⟩
  · rw [heq] at hsaved ⊢
    obtain rfl : after = tree := congrArg Workspace.tree hsaved
    exact .inl ⟨_, rfl, hleaves⟩
  · rw [heq] at hsaved ⊢
    obtain rfl : after = tree := congrArg Workspace.tree hsaved
    exact .inr ⟨_, rfl, saved_saved w.tree args.outputDir page⟩

/-- What a sweep leaves has the page of the slice sweep before it. -/
theorem saved_of_sweepScript {pages : List String} {rows : List SliceRow} {before : Tree}
    {w after : Workspace} {result : Except RunError Unit}
    (hpage : Leaves args.outputDir before w.tree [slicePage args rows])
    (h : ((sweepScript args colored pages w.tree).job args.outputDir opener).exec w =
      (result, after)) :
    after.tree.saved args.outputDir (slicePage args rows) = after.tree := by
  obtain ⟨done, hdone⟩ := Script.exists_perform_of_exec h
  obtain ⟨more, hmore, hsweep⟩ :=
    Actions.exists_leaves_of_perform (differInKind_sweepScript args colored pages w.tree) hdone
  rw [outputs_sweepScript] at hmore
  refine saved_of_open ((hpage.trans hsweep fun o ho other hother hkind => ?_).written _
    List.mem_cons_self)
  rw [List.mem_singleton.1 ho] at hkind
  exact (List.nodup_cons.1 (nodup_kinds_sweepFiles args w.tree)).1
    (List.mem_map.2 ⟨other, hmore.subset hother, hkind.symm⟩)

/-- **The script of a run** is also its script in the tree that it leaves. -/
theorem script_again {w after : Workspace} {result : Except RunError Unit}
    (h : ((script args colored w.tree).job args.outputDir opener).exec w = (result, after))
    (hfree : ∀ path ∈ args.files ++ args.sliceSweep.toList, ∀ o ∈ writeOrder args w.tree,
      ¬ after.tree.SameFile path (o.path args.outputDir)) :
    script args colored after.tree = script args colored w.tree := by
  obtain ⟨done, hdone⟩ := Script.exists_perform_of_exec h
  obtain ⟨saved, hsubset, hleaves⟩ :=
    Actions.exists_leaves_of_perform (differInKind_script args colored w.tree) hdone
  rw [outputs_script] at hsubset
  have hgiven : ∀ path ∈ args.files, ∀ o ∈ writeOrder args w.tree,
      ¬ after.tree.SameFile path (o.path args.outputDir) :=
    fun path hpath => hfree path (List.mem_append_left _ hpath)
  rcases Option.eq_none_or_eq_some args.sliceSweep with hslice | ⟨path, hslice⟩
  · simp only [script, writeOrder, hslice] at h hgiven ⊢
    exact sweepScript_again h hgiven
  · cases hload : w.tree.loadSlices path with
    | error cause =>
      simp only [script, hslice, hload, Script.exec_nil] at h ⊢
      rw [← (Prod.mk.inj h).2, hload]
    | ok rows =>
      have hpath : path ∈ args.files ++ args.sliceSweep.toList := by simp [hslice]
      have hagain : after.tree.loadSlices path = .ok rows :=
        hleaves.loadSlices_eq (fun o ho => hfree path hpath o (hsubset.subset ho)) hload
      simp only [script, writeOrder, hslice, hload, hagain] at h hgiven ⊢
      rw [Script.job_append, Job.exec_bind] at h
      have hcases := exec_sliceActions_cases args rows w
      dsimp only at hcases
      generalize w.tree.saved args.outputDir (slicePage args rows) = tree at h hgiven hcases ⊢
      suffices hsweep : sweepScript args colored [(slicePage args rows).path args.outputDir]
            (after.tree.saved args.outputDir (slicePage args rows)) =
          sweepScript args colored [(slicePage args rows).path args.outputDir] tree by rw [hsweep]
      rcases hcases with ⟨log, heq, hpage⟩ | ⟨e, heq, hpage⟩
      · rw [heq] at h
        rw [saved_of_sweepScript (w := ⟨tree, log⟩) hpage h]
        exact sweepScript_again (w := ⟨tree, log⟩) h fun path hpath o ho =>
          hgiven path hpath o (List.mem_cons_of_mem _ ho)
      · rw [heq] at h
        rw [← (Prod.mk.inj h).2]
        dsimp only
        rw [hpage]

end

end Run

end SweepCharts
