import SweepCharts.Proofs.Run.Announcements
import SweepCharts.Proofs.Run.Rereading
import SweepCharts.Proofs.Sweep.Survey

set_option autoImplicit false

/-! # What a successful run leaves

A run that succeeds has written the page of its slice sweep and the files of its sweep, and has
changed nothing else.

* `DrawsSlices`, `DrawsSweep`: what is written for the two kinds of tables.
* `drawsSweep_of_ok`: a sweep that is drawn, from tables that are loaded on the way.
* `successful_run_leaves`: the whole run.
-/

namespace SweepCharts.Run

open SweepCharts.Tree

/-! ## What is drawn -/

/-- The page of the slice sweep is written if a slice sweep is given. -/
def DrawsSlices (args : Args) (t : Tree) (outputs : List Output) : Prop :=
  match args.sliceSweep with
  | none => outputs = []
  | some path => ∃ rows, t.loadSlices path = .ok rows ∧ outputs = [slicePage args rows] ∧
      outputs.map (fun o => o.kind.name) = ["slice_sweep.html"]

/-- The names of the files of a sweep. -/
def sweepNames (args : Args) (records : List Record) : List String :=
  (if args.dumpJson then ["records.json"] else []) ++
    if args.combined then ["charts.html"]
    else ["latency_throughput.html", "throughput_vs_latency.html"] ++
      if 2 ≤ ((records.filter fun r => Grid.Usable r).map Record.flushInterval).toFinset.card then
        ["backpressure_heatmap.html"]
      else []

/-- What is written and announced for the tables of a sweep. -/
structure DrawsSweep (args : Args) (before after : Tree) (files : List String)
    (records : List Record) (outputs : List Output) (announced : List LogLine) : Prop where
  files_eq : files = if args.files = [] then before.discover args.dataDir else args.files
  files_ne_nil : files ≠ []
  loaded : after.loadRecords files = .ok records
  /-- The page of a slice sweep is written before the tables are loaded. -/
  loaded_before : args.sliceSweep = none → before.loadRecords files = .ok records
  open_eq : ∀ path ∈ files, after.open path = before.open path ∨
    before.open path = .error .notFound
  outputs_eq : outputs = sweepOutputs args records
  names : outputs.map (fun o => o.kind.name) = sweepNames args records
  announced_eq : announced = (sweepPages args records).map (generatedLine args records)

theorem names_slicePage (args : Args) (rows : List SliceRow) :
    [slicePage args rows].map (fun o => o.kind.name) = ["slice_sweep.html"] := by
  have hname : (OutputKind.page .sliceSweep).name = "slice_sweep.html" := by decide
  rw [← hname]
  rfl

theorem names_sweepOutputs (args : Args) (records : List Record) :
    (sweepOutputs args records).map (fun o => o.kind.name) = sweepNames args records := by
  have hnames : (sweepOutputs args records).map (fun o => o.kind.name) =
      ((sweepOutputs args records).map Output.kind).map OutputKind.name := by
    rw [List.map_map]
    rfl
  rw [hnames, kinds_sweepOutputs, kinds_sweepPages]
  simp only [sweepNames, ← Grid.isSome_build?_iff]
  cases args.dumpJson <;> cases args.combined <;> cases (Grid.build? records).isSome <;> decide

theorem plotsSweep_iff (args : Args) :
    args.plotsSweep = true ↔ args.sliceSweep = none ∨ args.files ≠ [] := by
  simp [Args.plotsSweep]

/-- What is drawn of a sweep whose tables are loaded from a tree between the first and the last. -/
theorem drawsSweep_of_ok {args : Args} {colored : Bool} {pages : List String} {before : Tree}
    {u after : Workspace} {outputs : List Output}
    (hdone : (Actions.perform args.outputDir
      (sweepScript args colored pages u.tree).actions).exec u = (.ok (), after))
    (hending : ∃ paths, (sweepScript args colored pages u.tree).ending = .ok paths)
    (hleaves : Leaves args.outputDir before after.tree outputs)
    (hfree : ∀ path ∈ args.files, ∀ o ∈ outputs,
      ¬ after.tree.SameFile path (o.path args.outputDir))
    (hsubset : sweepFiles args u.tree ⊆ outputs)
    (hbefore : args.sliceSweep = none → u.tree = before) :
    ∃ announced, AnnouncesLast (sweepScript args colored pages u.tree).actions announced ∧
      if args.sliceSweep = none ∨ args.files ≠ [] then
        ∃ files records,
          DrawsSweep args before after.tree files records (sweepFiles args u.tree) announced
      else sweepFiles args u.tree = [] ∧ announced = [] := by
  obtain ⟨hsweep, -⟩ :=
    Actions.leaves_of_perform_ok (differInKind_sweepScript args colored pages u.tree) hdone
  rw [outputs_sweepScript] at hsweep
  rcases sweepScript_cases args colored pages u.tree with
    ⟨hplots, hfiles, heq⟩ | ⟨e, actions, -, -, -, heq⟩ |
      ⟨records, hplots, hinputs, hload, hfiles, heq⟩
  · rw [heq]
    refine ⟨[], quiet_nil.announcesLast, ?_⟩
    rw [if_neg (by rw [← plotsSweep_iff, hplots]; exact nofun)]
    exact ⟨hfiles, rfl⟩
  · obtain ⟨paths, hending⟩ := hending
    rw [heq] at hending
    cases hending
  · rw [heq]
    refine ⟨_, announcesLast_drawn args colored _ records, ?_⟩
    rw [if_pos ((plotsSweep_iff args).1 hplots)]
    refine ⟨inputs args u.tree, records, ?_⟩
    have hnone : ∀ path ∈ inputs args u.tree, ∀ o ∈ outputs,
        ¬ after.tree.SameFile path (o.path args.outputDir) := not_sameFile_of_inputs hfree
    have hafter := hsweep.loadRecords_eq
      (fun path hpath o ho => hnone path hpath o (hsubset ho)) hload
    exact
      { files_eq := by
          unfold inputs
          by_cases hgiven : args.files = []
          · have hslice := ((plotsSweep_iff args).1 hplots).resolve_right (absurd hgiven)
            rw [if_pos (by rw [hgiven]; rfl), if_pos hgiven, hbefore hslice]
          · rw [if_neg (by rw [List.isEmpty_iff]; exact hgiven), if_neg hgiven]
        files_ne_nil := fun hnil => by simp [hnil] at hinputs
        loaded := hafter
        loaded_before := fun hslice => hbefore hslice ▸ hload
        open_eq := hleaves.open_eq_of_loadRecords hnone hafter
        outputs_eq := hfiles
        names := hfiles ▸ names_sweepOutputs args records
        announced_eq := rfl }

/-- What is drawn by a script that is done. -/
theorem draws_of_ok {args : Args} {colored : Bool} {w after : Workspace}
    (hdone : (Actions.perform args.outputDir (script args colored w.tree).actions).exec w =
      (.ok (), after))
    (hending : ∃ paths, (script args colored w.tree).ending = .ok paths)
    (hleaves : Leaves args.outputDir w.tree after.tree (writeOrder args w.tree))
    (hfree : ∀ path ∈ args.files, ∀ o ∈ writeOrder args w.tree,
      ¬ after.tree.SameFile path (o.path args.outputDir)) :
    ∃ slices sweeps announced, writeOrder args w.tree = slices ++ sweeps ∧
      DrawsSlices args w.tree slices ∧
      AnnouncesLast (script args colored w.tree).actions announced ∧
      if args.sliceSweep = none ∨ args.files ≠ [] then
        ∃ files records, DrawsSweep args w.tree after.tree files records sweeps announced
      else sweeps = [] ∧ announced = [] := by
  rcases Option.eq_none_or_eq_some args.sliceSweep with hslice | ⟨path, hslice⟩
  · have hscript : script args colored w.tree = sweepScript args colored [] w.tree := by
      simp only [script, hslice]
    have horder : writeOrder args w.tree = sweepFiles args w.tree := by
      simp only [writeOrder, hslice]
    rw [hscript] at hdone hending
    obtain ⟨announced, hlast, hsweeps⟩ := drawsSweep_of_ok hdone hending hleaves hfree
      (horder ▸ List.Subset.refl _) fun _ => rfl
    exact ⟨[], _, announced, horder, by simp only [DrawsSlices, hslice], hscript ▸ hlast, hsweeps⟩
  · cases hload : w.tree.loadSlices path with
    | error cause =>
      simp only [script, hslice, hload] at hending
      obtain ⟨paths, hending⟩ := hending
      cases hending
    | ok rows =>
      simp only [script, hslice, hload, Actions.perform_append, Job.exec_bind] at hdone hending
      have horder : writeOrder args w.tree = slicePage args rows ::
          sweepFiles args (w.tree.saved args.outputDir (slicePage args rows)) := by
        simp only [writeOrder, hslice, hload]
      rcases exec_sliceActions_cases args rows w with ⟨log, heq, -⟩ | ⟨e, heq, -⟩
      · rw [heq] at hdone
        have hsubset : sweepFiles args (w.tree.saved args.outputDir (slicePage args rows)) ⊆
            writeOrder args w.tree := horder ▸ List.subset_cons_self _ _
        obtain ⟨announced, hlast, hsweeps⟩ :=
          drawsSweep_of_ok (u := ⟨_, log⟩) hdone hending hleaves hfree hsubset
            fun hnone => by cases hslice.symm.trans hnone
        refine ⟨[slicePage args rows], _, announced, horder, ?_, ?_, hsweeps⟩
        · simp only [DrawsSlices, hslice]
          exact ⟨rows, hload, rfl, names_slicePage args rows⟩
        · simp only [script, hslice, hload]
          exact (quiet_sliceActions args rows).announcesLast_append hlast
      · rw [heq] at hdone
        cases (Prod.mk.inj hdone).1

/-- **A successful run** has written the page of its slice sweep and the files of its sweep, and has
changed nothing else. It has announced the pages of the sweep, each once and in their order, and
opened all its pages if it was asked to. What any run announces is written. -/
theorem successful_run_leaves {args : Args} {colored : Bool} {opener : Opener}
    {w after : Workspace} {result : Except RunError Unit}
    (h : (run args colored opener).exec w = (result, after)) :
    (∃ new, after.log = w.log ++ new ∧ ((∃ line ∈ new, line.Announces) →
      Leaves args.outputDir w.tree after.tree (writeOrder args w.tree))) ∧
    (result = .ok () →
      (∀ path ∈ args.files ++ args.sliceSweep.toList, ∀ o ∈ writeOrder args w.tree,
        ¬ after.tree.SameFile path (o.path args.outputDir)) →
      ∃ slices sweeps earlier announced,
        Leaves args.outputDir w.tree after.tree (slices ++ sweeps) ∧
        DrawsSlices args w.tree slices ∧
        (if args.sliceSweep = none ∨ args.files ≠ [] then
          ∃ files records, DrawsSweep args w.tree after.tree files records sweeps announced
        else sweeps = [] ∧ announced = []) ∧
        after.log = w.log ++ earlier ++ announced ∧ (∀ line ∈ earlier, ¬ line.Announces) ∧
        (args.openCharts = true →
          ∀ page ∈ pagePaths args.outputDir (slices ++ sweeps), opener page = .ok ())) := by
  have houtputs := outputs_script args colored w.tree
  have hdiffer := differInKind_script args colored w.tree
  rw [exec_run] at h
  constructor
  · obtain ⟨done, hdone⟩ := Script.exists_perform_of_exec h
    obtain ⟨announced, hlast⟩ := exists_announcesLast_script args colored w.tree
    exact houtputs ▸ hlast.leaves hdiffer hdone
  · rintro rfl hfree
    obtain ⟨hdone, hresult⟩ := Script.perform_of_exec_ok h
    have hopened := opened_of_result_ok hresult
    obtain ⟨paths, hending, -⟩ := Script.result_eq_ok_iff.1 hresult
    obtain ⟨hleaves, hlog⟩ := Actions.leaves_of_perform_ok hdiffer hdone
    rw [houtputs] at hleaves
    obtain ⟨slices, sweeps, announced, horder, hslices, hannounces, hsweeps⟩ :=
      draws_of_ok hdone ⟨paths, hending⟩ hleaves fun path hpath =>
        hfree path (List.mem_append_left _ hpath)
    obtain ⟨body, last, hactions, hquiet, -, hlast⟩ := hannounces
    refine ⟨slices, sweeps, Actions.lines body, announced, horder ▸ hleaves, hslices, hsweeps, ?_,
      hquiet, horder ▸ hopened⟩
    rw [hlog, hactions, Actions.lines_append, hlast, List.append_assoc]

/-- A slice sweep without rows and a sweep, both drawn into the directory of the second and shown by
a program that is there. -/
theorem successful_run_leaves_beside_table :
    let args : Args :=
      { files := ["data/a.csv"], outputDir := "data", combined := true, dumpJson := true,
        openCharts := true, sliceSweep := some "slices.csv" }
    let opener : Opener := fun _ => .ok ()
    let t : Tree := ⟨[(["data"], .directory),
      (["data", "a.csv"], .file (Utf8.encode "batchSize\n1\n")),
      (["slices.csv"],
        .file (Utf8.encode "mode,slice_size,throughput_msg_s,gc_ms,p99_delay_ms\n"))], [],
      by decide⟩
    let out := (run args false opener).exec ⟨t, []⟩
    out.1 = .ok () ∧ ∃ outputs, Leaves "data" t out.2.tree outputs ∧
      outputs.map (fun o => o.kind.name) = ["slice_sweep.html", "records.json", "charts.html"] := by
  intro args opener t out
  have hrun : (run args false opener).exec ⟨t, []⟩ = (out.1, out.2) := rfl
  have hok : out.1 = .ok () := by decide +kernel
  have hfree : ∀ path ∈ args.files ++ args.sliceSweep.toList, ∀ o ∈ writeOrder args t,
      ¬ out.2.tree.SameFile path (o.path args.outputDir) := by
    intro path hpath o ho
    refine not_sameFile_of_suffix ?_
    rcases List.mem_pair.1 hpath with rfl | rfl <;> decide
  obtain ⟨slices, sweeps, earlier, announced, hleaves, ⟨rows, -, -, hslices⟩, hsweeps, -⟩ :=
    (successful_run_leaves hrun).2 hok hfree
  rw [if_pos (.inr (by decide))] at hsweeps
  obtain ⟨files, records, hdraws⟩ := hsweeps
  refine ⟨hok, _, hleaves, ?_⟩
  rw [List.map_append, hdraws.names, hslices]
  rfl

end SweepCharts.Run
