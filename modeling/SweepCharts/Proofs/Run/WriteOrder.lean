import SweepCharts.Proofs.Run.Script

set_option autoImplicit false

/-! # The files of a run, in the order of writing

`writeOrder` lists the files that a run is to write with their whole texts: the page of the slice
sweep, then the records, then the pages of the sweep.

* `outputs_script`: they are the files of the script of the run.
* `ending_script_cases`: the pages among them are those that the run opens.
* `exec_run_cases`: how a run ends.
* `interrupted_run_leaves_first_files`: a run that fails has written the first of them, and has
  changed no other file.
-/

namespace SweepCharts

/-- Nothing was found to read, or something cannot be read. -/
def RunError.IsInput : RunError → Prop
  | load _ => True
  | noInputFiles _ => True
  | _ => False

theorem RunError.IsInput.ne_unopened {e : RunError} (h : e.IsInput) (failure : Unopened) :
    e ≠ .unopened failure := by
  rintro rfl
  exact h

namespace Run

open SweepCharts.Tree

/-! ## The order of writing -/

/-- The files of the sweep of a run. -/
def sweepFiles (args : Args) (t : Tree) : List Output :=
  if args.plotsSweep && !(inputs args t).isEmpty then
    match t.loadRecords (inputs args t) with
    | .ok records => sweepOutputs args records
    | .error _ => []
  else []

/-- The files of a run, as far as what they show can be loaded. -/
def writeOrder (args : Args) (t : Tree) : List Output :=
  match args.sliceSweep with
  | none => sweepFiles args t
  | some path =>
    match t.loadSlices path with
    | .ok rows =>
      slicePage args rows :: sweepFiles args (t.saved args.outputDir (slicePage args rows))
    | .error _ => []

theorem outputs_sweepActions (args : Args) (colored : Bool) (files : List String)
    (records : List Record) :
    Actions.outputs (sweepActions args colored files records) = sweepOutputs args records := by
  simp only [sweepActions, sweepOutputs, Actions.outputs_append, Actions.outputs_map_save]
  cases args.noSummary <;> cases args.dumpJson <;> rfl

/-- The script of a sweep: there is none to draw, or nothing to draw it from, or it is drawn. -/
theorem sweepScript_cases (args : Args) (colored : Bool) (pages : List String) (t : Tree) :
    (args.plotsSweep = false ∧ sweepFiles args t = [] ∧
      sweepScript args colored pages t = ⟨[], .ok (opened args pages)⟩) ∨
    (∃ e actions, e.IsInput ∧ (actions = [] ∨ actions = foundActions args (inputs args t)) ∧
      sweepFiles args t = [] ∧ sweepScript args colored pages t = ⟨actions, .error e⟩) ∨
    ∃ records, args.plotsSweep = true ∧ (inputs args t).isEmpty = false ∧
      t.loadRecords (inputs args t) = .ok records ∧ sweepFiles args t = sweepOutputs args records ∧
      sweepScript args colored pages t =
        ⟨foundActions args (inputs args t) ++
            sweepActions args colored (inputs args t) records ++
            [.say ((sweepPages args records).map (generatedLine args records))],
          .ok (opened args
            (pages ++ (sweepPages args records).map (Output.path args.outputDir)))⟩ := by
  unfold sweepScript sweepFiles
  cases args.plotsSweep with
  | false => exact .inl ⟨rfl, rfl, rfl⟩
  | true =>
    dsimp only
    cases (inputs args t).isEmpty with
    | true => exact .inr (.inl ⟨.noInputFiles args.dataDir, [], trivial, .inl rfl, rfl, rfl⟩)
    | false =>
      cases t.loadRecords (inputs args t) with
      | error e => exact .inr (.inl ⟨.load e, _, trivial, .inr rfl, rfl, rfl⟩)
      | ok records => exact .inr (.inr ⟨records, rfl, rfl, rfl, rfl, rfl⟩)

theorem outputs_sweepScript (args : Args) (colored : Bool) (pages : List String) (t : Tree) :
    Actions.outputs (sweepScript args colored pages t).actions = sweepFiles args t := by
  rcases sweepScript_cases args colored pages t with
    ⟨-, hfiles, heq⟩ | ⟨e, actions, -, hactions, hfiles, heq⟩ | ⟨records, -, -, -, hfiles, heq⟩
  · rw [hfiles, heq]
    rfl
  · rw [hfiles, heq]
    rcases hactions with rfl | rfl
    · rfl
    · exact outputs_foundActions args _
  · rw [hfiles, heq, Actions.outputs_append, Actions.outputs_append, outputs_foundActions,
      outputs_sweepActions]
    exact List.append_nil _

theorem outputs_script (args : Args) (colored : Bool) (t : Tree) :
    Actions.outputs (script args colored t).actions = writeOrder args t := by
  unfold script writeOrder
  cases args.sliceSweep with
  | none => exact outputs_sweepScript args colored [] t
  | some path =>
    dsimp only
    cases t.loadSlices path with
    | error e => rfl
    | ok rows =>
      rw [Actions.outputs_append, outputs_sweepScript]
      rfl

/-! ## Kinds -/

/-- The kinds of the pages of a sweep, with or without a heatmap. -/
theorem kinds_sweepPages (args : Args) (records : List Record) :
    (sweepPages args records).map Output.kind =
      if args.combined then [.combined]
      else [.page .latencyThroughput, .page .throughputVsLatency] ++
        if (Grid.build? records).isSome then [.page .backpressureHeatmap] else [] := by
  rw [sweepPages]
  cases args.combined with
  | true => rfl
  | false =>
    simp only [NamedChart.ofRecords, Grid.chart?]
    cases Grid.build? records <;> rfl

/-- A sweep has pages, and none of them is the file of the records. -/
theorem sweepPages_kinds (args : Args) (records : List Record) :
    sweepPages args records ≠ [] ∧
      ∀ page ∈ sweepPages args records, page.kind ≠ (recordsFile records).kind := by
  have hkinds := kinds_sweepPages args records
  refine ⟨fun hnil => ?_, fun page hpage heq => ?_⟩
  · rw [hnil] at hkinds
    cases hcombined : args.combined <;> simp [hcombined] at hkinds
  · have hmem := List.mem_map_of_mem (f := Output.kind) hpage
    rw [hkinds, heq] at hmem
    revert hmem
    cases args.combined <;> cases (Grid.build? records).isSome <;> simp [recordsFile]

theorem kinds_sweepOutputs (args : Args) (records : List Record) :
    (sweepOutputs args records).map Output.kind =
      (if args.dumpJson then [.records] else []) ++ (sweepPages args records).map Output.kind := by
  rw [sweepOutputs, List.map_append]
  cases args.dumpJson <;> rfl

/-- The files of a sweep differ in kind from each other and from the page of a slice sweep. -/
theorem nodup_kinds_sweepFiles (args : Args) (t : Tree) :
    (.page .sliceSweep :: (sweepFiles args t).map Output.kind).Nodup := by
  have houtputs (records : List Record) :
      (.page .sliceSweep :: (sweepOutputs args records).map Output.kind).Nodup := by
    rw [kinds_sweepOutputs, kinds_sweepPages]
    cases args.dumpJson <;> cases args.combined <;> cases (Grid.build? records).isSome <;> decide
  unfold sweepFiles
  split
  · split
    · exact houtputs _
    · exact List.pairwise_singleton _ _
  · exact List.pairwise_singleton _ _

theorem differInKind_sweepScript (args : Args) (colored : Bool) (pages : List String) (t : Tree) :
    DifferInKind (Actions.outputs (sweepScript args colored pages t).actions) := by
  rw [outputs_sweepScript]
  exact List.pairwise_map.1 (List.nodup_cons.1 (nodup_kinds_sweepFiles args t)).2

theorem differInKind_writeOrder (args : Args) (t : Tree) : DifferInKind (writeOrder args t) := by
  have hkinds : ((writeOrder args t).map Output.kind).Nodup := by
    unfold writeOrder
    cases args.sliceSweep with
    | none => exact (List.nodup_cons.1 (nodup_kinds_sweepFiles args t)).2
    | some path =>
      dsimp only
      cases t.loadSlices path with
      | error e => exact .nil
      | ok rows => exact nodup_kinds_sweepFiles args _
  exact List.pairwise_map.1 hkinds

theorem differInKind_script (args : Args) (colored : Bool) (t : Tree) :
    DifferInKind (Actions.outputs (script args colored t).actions) := by
  rw [outputs_script]
  exact differInKind_writeOrder args t

/-! ## Opening the pages -/

/-- The paths of the pages among some files. -/
def pagePaths (dir : String) (outputs : List Output) : List String :=
  (outputs.filter fun o => o.kind ≠ .records).map (Output.path dir)

theorem pagePaths_sweepOutputs (args : Args) (records : List Record) :
    pagePaths args.outputDir (sweepOutputs args records) =
      (sweepPages args records).map (Output.path args.outputDir) := by
  have hpages : (sweepPages args records).filter (fun o => o.kind ≠ .records) =
      sweepPages args records :=
    List.filter_eq_self.2 fun o ho => decide_eq_true ((sweepPages_kinds args records).2 o ho)
  rw [pagePaths, sweepOutputs, List.filter_append, hpages]
  cases args.dumpJson <;> rfl

/-- How the script of a sweep ends: there was nothing to save, or the pages are opened. -/
theorem ending_sweepScript_cases (args : Args) (colored : Bool) (pages : List String) (t : Tree) :
    (∃ e, e.IsInput ∧ (sweepScript args colored pages t).ending = .error e ∧
      sweepFiles args t = []) ∨
    (sweepScript args colored pages t).ending =
      .ok (opened args (pages ++ pagePaths args.outputDir (sweepFiles args t))) := by
  rcases sweepScript_cases args colored pages t with
    ⟨-, hfiles, heq⟩ | ⟨e, actions, hinput, -, hfiles, heq⟩ | ⟨records, -, -, -, hfiles, heq⟩
  · have hnone : pagePaths args.outputDir [] = [] := rfl
    rw [heq, hfiles, hnone, List.append_nil]
    exact .inr rfl
  · rw [heq]
    exact .inl ⟨e, hinput, rfl, hfiles⟩
  · rw [heq, hfiles, pagePaths_sweepOutputs]
    exact .inr rfl

/-- **How the script of a run ends**: something could not be read, and at most the page of the slice
sweep was to be saved, or the pages are opened in the order of writing. -/
theorem ending_script_cases (args : Args) (colored : Bool) (t : Tree) :
    (∃ e, e.IsInput ∧ (script args colored t).ending = .error e ∧
      (∀ o ∈ writeOrder args t, o.kind = .page .sliceSweep) ∧
      (args.sliceSweep = none → writeOrder args t = [])) ∨
    (script args colored t).ending =
      .ok (opened args (pagePaths args.outputDir (writeOrder args t))) := by
  unfold script writeOrder
  cases args.sliceSweep with
  | none =>
    rcases ending_sweepScript_cases args colored [] t with ⟨e, hinput, hending, hfiles⟩ | hending
    · refine .inl ⟨e, hinput, hending, ?_, fun _ => hfiles⟩
      rw [hfiles]
      exact List.forall_mem_nil _
    · exact .inr hending
  | some path =>
    dsimp only
    cases t.loadSlices path with
    | error cause => exact .inl ⟨.load cause, trivial, rfl, List.forall_mem_nil _, nofun⟩
    | ok rows =>
      rcases ending_sweepScript_cases args colored [(slicePage args rows).path args.outputDir]
        (t.saved args.outputDir (slicePage args rows)) with ⟨e, hinput, hending, hfiles⟩ | hending
      · refine .inl ⟨e, hinput, hending, ?_, nofun⟩
        dsimp only
        rw [hfiles]
        exact List.forall_mem_singleton.2 rfl
      · exact .inr hending

/-! ## Runs that fail -/

section
variable {args : Args} {colored : Bool} {opener : Opener} {t : Tree}

/-- A script that succeeds has opened its pages if it was asked to. -/
theorem opened_of_result_ok (h : (script args colored t).result opener = .ok ())
    (hopen : args.openCharts = true) :
    ∀ page ∈ pagePaths args.outputDir (writeOrder args t), opener page = .ok () := by
  obtain ⟨pages, hending, hpages⟩ := Script.result_eq_ok_iff.1 h
  rcases ending_script_cases args colored t with ⟨e, -, hfailed, -⟩ | hall
  · cases hending.symm.trans hfailed
  · rw [hending, opened, if_pos hopen] at hall
    exact Except.ok.inj hall ▸ hpages

/-- A script fails because something could not be read, or at the first page that is refused. -/
theorem result_eq_error_cases {e : RunError}
    (h : (script args colored t).result opener = .error e) :
    (e.IsInput ∧ (∀ o ∈ writeOrder args t, o.kind = .page .sliceSweep) ∧
      (args.sliceSweep = none → writeOrder args t = [])) ∨
    ∃ failure, e = .unopened failure ∧ args.openCharts = true ∧
      FirstRefused opener (pagePaths args.outputDir (writeOrder args t)) failure := by
  unfold Script.result at h
  rcases ending_script_cases args colored t with ⟨cause, hinput, hending, hfiles⟩ | hending
  · rw [hending] at h
    exact .inl ⟨Except.error.inj h ▸ hinput, hfiles⟩
  · rw [hending, Except.bind, opened] at h
    cases hopen : args.openCharts with
    | false =>
      rw [hopen] at h
      cases h
    | true =>
      rw [hopen, if_pos rfl] at h
      obtain ⟨failure, heq, hfirst⟩ := openAll_eq_error_iff.1 h
      exact .inr ⟨failure, heq, rfl, hfirst⟩

end

/-- The error of a file that cannot be saved is neither of these. -/
theorem not_isInput_of_fails {kind : OutputKind} {dir : String} {e : RunError}
    (h : kind.Fails dir e) : ¬ e.IsInput ∧ ∀ failure, e ≠ .unopened failure := by
  obtain ⟨cause, rfl | rfl⟩ := h <;> cases kind <;> exact ⟨nofun, nofun⟩

/-- **How a run ends**: the slice sweep cannot be read and nothing is done, or all actions are done,
or one of the files cannot be saved. -/
theorem exec_run_cases (args : Args) (colored : Bool) (opener : Opener) (t : Tree)
    (log : List LogLine) :
    (∃ path cause, args.sliceSweep = some path ∧ t.loadSlices path = .error cause ∧
      (run args colored opener).exec ⟨t, log⟩ = (.error (.load cause), ⟨t, log⟩)) ∨
    (∀ path cause, args.sliceSweep = some path → t.loadSlices path ≠ .error cause) ∧
      ((∃ w, (run args colored opener).exec ⟨t, log⟩ =
            ((script args colored t).result opener, w) ∧
          Leaves args.outputDir t w.tree (writeOrder args t) ∧
          (writeOrder args t = [] → w.tree = t)) ∨
        ∃ written o w e, (run args colored opener).exec ⟨t, log⟩ = (.error e, w) ∧
          written ++ [o] <+: writeOrder args t ∧ Leaves args.outputDir t w.tree written ∧
          o.kind.Fails args.outputDir e) := by
  have houtputs := outputs_script args colored t
  rw [exec_run]
  by_cases hslices : ∃ path cause, args.sliceSweep = some path ∧ t.loadSlices path = .error cause
  · obtain ⟨path, cause, hpath, hload⟩ := hslices
    have hscript : script args colored t = ⟨[], .error (.load cause)⟩ := by
      simp only [script, hpath, hload]
    rw [hscript, Script.exec_nil]
    exact .inl ⟨path, cause, hpath, hload, rfl⟩
  · refine .inr ⟨fun path cause hpath hload => hslices ⟨path, cause, hpath, hload⟩, ?_⟩
    rcases Actions.perform_cases args.outputDir _ ⟨t, log⟩ (differInKind_script args colored t) with
      ⟨tree, heq, hleaves⟩ | ⟨done, o, rest, tree, e, hactions, heq, hleaves, hfails⟩
    · rw [houtputs] at hleaves
      rw [Script.exec_job, heq]
      refine .inl ⟨_, rfl, hleaves, fun hnone => ?_⟩
      have hexec := Actions.exec_perform_of_outputs args.outputDir (houtputs.trans hnone) ⟨t, log⟩
      exact congrArg (fun out => out.2.tree) (heq.symm.trans hexec)
    · have horder : writeOrder args t = Actions.outputs done ++ o :: Actions.outputs rest := by
        rw [← houtputs, hactions, Actions.outputs_append]
        rfl
      rw [Script.exec_job, heq, horder]
      exact .inr ⟨_, o, _, e, rfl, ⟨_, (List.append_cons _ _ _).symm⟩, hleaves, hfails⟩

/-- **A run that fails** has written the first files of its order with their whole texts, and made
directories on the way to them; all else is as it was. Which files these are depends on the error:
none if the slice sweep cannot be read, at most the page of the slice sweep if no table is found or
one cannot be read, those before the file that cannot be saved, and all if a page is refused by the
opener. That page is then the first one refused, and no page is refused if the run succeeds. -/
theorem interrupted_run_leaves_first_files (args : Args) (colored : Bool) (opener : Opener)
    (t : Tree) (log : List LogLine) :
    match (run args colored opener).exec ⟨t, log⟩ with
    | (.ok (), w) => Leaves args.outputDir t w.tree (writeOrder args t) ∧
        (args.openCharts = true →
          ∀ page ∈ pagePaths args.outputDir (writeOrder args t), opener page = .ok ())
    | (.error e, w) =>
      ∃ written, written <+: writeOrder args t ∧ Leaves args.outputDir t w.tree written ∧
        (∀ path cause, args.sliceSweep = some path → t.loadSlices path = .error cause →
          e = .load cause ∧ w.tree = t) ∧
        (e.IsInput → (∀ o ∈ written, o.kind = .page .sliceSweep) ∧
          (args.sliceSweep = none → w.tree = t)) ∧
        (∀ failure, e = .unopened failure → written = writeOrder args t ∧
          args.openCharts = true ∧
          FirstRefused opener (pagePaths args.outputDir (writeOrder args t)) failure) ∧
        (¬ e.IsInput → (∀ failure, e ≠ .unopened failure) →
          ∃ o, written ++ [o] <+: writeOrder args t ∧ o.kind.Fails args.outputDir e) := by
  rcases exec_run_cases args colored opener t log with
    ⟨path, cause, hpath, hload, heq⟩ |
      ⟨hslices, ⟨w, heq, hleaves, hsame⟩ | ⟨written, o, w, e, heq, horder, hleaves, hfails⟩⟩
  · have hinput : (RunError.load cause).IsInput := trivial
    rw [heq]
    refine ⟨[], List.nil_prefix, .refl _ t, fun path' cause' hpath' hload' => ⟨?_, rfl⟩,
      fun _ => ⟨List.forall_mem_nil _, fun _ => rfl⟩,
      fun failure heq => absurd heq (hinput.ne_unopened failure), fun hnot => absurd hinput hnot⟩
    obtain rfl := Option.some.inj (hpath.symm.trans hpath')
    obtain rfl := Except.error.inj (hload.symm.trans hload')
    rfl
  · rw [heq]
    cases hresult : (script args colored t).result opener with
    | ok => exact ⟨hleaves, opened_of_result_ok hresult⟩
    | error e =>
      have hcases := result_eq_error_cases hresult
      refine ⟨_, List.prefix_refl _, hleaves,
        fun path cause hpath hload => absurd hload (hslices path cause hpath), fun hinput => ?_,
        fun failure hfailure => ?_, fun hnot hpage => ?_⟩
      · rcases hcases with ⟨-, hkinds, hnone⟩ | ⟨failure, heq, -⟩
        · exact ⟨hkinds, fun hslice => hsame (hnone hslice)⟩
        · exact absurd heq (hinput.ne_unopened failure)
      · rcases hcases with ⟨hinput, -⟩ | ⟨other, heq, hfirst⟩
        · exact absurd hfailure (hinput.ne_unopened failure)
        · obtain rfl := RunError.unopened.inj (hfailure.symm.trans heq)
          exact ⟨rfl, hfirst⟩
      · rcases hcases with ⟨hinput, -⟩ | ⟨failure, heq, -⟩
        · exact absurd hinput hnot
        · exact absurd heq (hpage failure)
  · obtain ⟨hnot, hpage⟩ := not_isInput_of_fails hfails
    rw [heq]
    exact ⟨written, (List.prefix_append _ _).trans horder, hleaves,
      fun path cause hpath hload => absurd hload (hslices path cause hpath),
      fun hinput => absurd hinput hnot, fun failure heq => absurd heq (hpage failure),
      fun _ _ => ⟨o, horder, hfails⟩⟩

/-- The second of three pages is refused when all are written. -/
theorem interrupted_run_leaves_first_files_second_refused :
    let args : Args := { files := ["data/a.csv"], outputDir := "data", openCharts := true }
    let failure : Unopened :=
      ⟨"data/throughput_vs_latency.html", .other "Permission denied (os error 13)"⟩
    let opener : Opener := fun page => if page = failure.page then .error failure.cause else .ok ()
    let t : Tree := ⟨[(["data"], .directory),
      (["data", "a.csv"], .file (Utf8.encode "batchSize,flushIntervalMs\n1,0\n1,5\n"))], [],
      by decide⟩
    let out := (run args false opener).exec ⟨t, []⟩
    out.1 = .error (.unopened failure) ∧ Leaves "data" t out.2.tree (writeOrder args t) ∧
      pagePaths "data" (writeOrder args t) = ["data/latency_throughput.html", failure.page,
        "data/backpressure_heatmap.html"] := by
  intro args failure opener t out
  have hfailed : out.1 = .error (.unopened failure) := by decide +kernel
  have hrun : (run args false opener).exec ⟨t, []⟩ = (.error (.unopened failure), out.2) := by
    rw [← hfailed]
  have hleaves := interrupted_run_leaves_first_files args false opener t []
  rw [hrun] at hleaves
  obtain ⟨written, -, hwritten, -, -, hunopened, -⟩ := hleaves
  obtain ⟨rfl, -⟩ := hunopened failure rfl
  exact ⟨hfailed, hwritten, by decide +kernel⟩

end Run

end SweepCharts
