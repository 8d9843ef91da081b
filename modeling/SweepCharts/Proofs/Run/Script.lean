import SweepCharts.Proofs.Run.Actions
import SweepCharts.Proofs.Traversal
import SweepCharts.Run.Plot

set_option autoImplicit false

/-! # The script of a run

What a run does depends on its arguments and on what it reads. `script` lists its actions in order,
and the pages that are opened when all of them are done, or the error with which the run then ends.

* `openAll_eq_ok_iff`, `openAll_eq_error_iff`: opening pages succeeds if all are opened, and fails
  at the first that is refused.
* `exec_job`: a script ends with the first of its actions that fails, or as its pages are opened.
* `exec_run`: a run performs its script.
-/

namespace SweepCharts.Run

/-! ## The files of a run -/

/-- The page of one chart. -/
def chartPage (args : Args) (named : NamedChart) : Output :=
  ⟨.page named.kind, Page.single named.kind named.chart (pageStyle args)⟩

def slicePage (args : Args) (rows : List SliceRow) : Output :=
  chartPage args ⟨.sliceSweep, SliceRow.chart rows args.dark⟩

def combinedPage (args : Args) (charts : List NamedChart) : Output :=
  ⟨.combined, Page.combined charts (pageStyle args)⟩

def recordsFile (records : List Record) : Output := ⟨.records, Record.dump records⟩

/-- The pages of a sweep. -/
def sweepPages (args : Args) (records : List Record) : List Output :=
  let charts := NamedChart.ofRecords records args.dark
  if args.combined then [combinedPage args charts] else charts.map (chartPage args)

/-- The files of a sweep. -/
def sweepOutputs (args : Args) (records : List Record) : List Output :=
  (if args.dumpJson then [recordsFile records] else []) ++ sweepPages args records

/-! ## The actions of a run -/

/-- The tables of a sweep: the given ones, or those that are found. -/
def inputs (args : Args) (t : Tree) : List String :=
  if args.files.isEmpty then t.discover args.dataDir else args.files

/-- The message about tables that were found. -/
def foundActions (args : Args) (files : List String) : List Action :=
  if args.files.isEmpty then
    [.say [.info ("Using CSVs from " ++ args.dataDir ++ ": " ++ Quoted.list files)]]
  else []

/-- What is done with the records of a sweep before its pages are announced. -/
def sweepActions (args : Args) (colored : Bool) (files : List String) (records : List Record) :
    List Action :=
  [.say (NamedChart.warnings records)] ++
    (if args.noSummary then []
      else [.say ((Summary.ofRecords records).report files.length colored)]) ++
    (if args.dumpJson then
      [.save (recordsFile records),
        .say [.info ("Saved records to: " ++ (recordsFile records).path args.outputDir)]]
      else []) ++
    (sweepPages args records).map .save

/-- The message about a page of a sweep. -/
def generatedLine (args : Args) (records : List Record) (page : Output) : LogLine :=
  .info ("Generated plot at: " ++ page.path args.outputDir ++ " (" ++ toString records.length ++
    " records)")

/-- What is done with the rows of a slice sweep. -/
def sliceActions (args : Args) (rows : List SliceRow) : List Action :=
  [.save (slicePage args rows),
   .say [.info ("Generated " ++ ChartKind.sliceSweep.display ++ " plot at: " ++
    (slicePage args rows).path args.outputDir ++ " (" ++ toString rows.length ++ " rows)")]]

theorem outputs_foundActions (args : Args) (files : List String) :
    Actions.outputs (foundActions args files) = [] := by
  unfold foundActions
  cases args.files.isEmpty <;> rfl

/-! ## Stages as actions -/

theorem saveChart_eq (args : Args) (named : NamedChart) :
    saveChart args named = (do
      (Action.save (chartPage args named)).job args.outputDir
      pure ((chartPage args named).path args.outputDir)) := by
  rw [Action.job, bind_assoc]
  rfl

theorem dump_eq (args : Args) (records : List Record) :
    dump args.outputDir records = (do
      (Action.save (recordsFile records)).job args.outputDir
      pure ((recordsFile records).path args.outputDir)) := by
  rw [Action.job, bind_assoc]
  rfl

theorem saveCharts_eq (args : Args) (records : List Record) :
    saveCharts args (NamedChart.ofRecords records args.dark) = (do
      Actions.perform args.outputDir ((sweepPages args records).map .save)
      pure ((sweepPages args records).map (Output.path args.outputDir))) := by
  rw [saveCharts, sweepPages]
  generalize NamedChart.ofRecords records args.dark = charts
  split
  · rw [List.map_singleton, Actions.perform_singleton, Action.job, bind_assoc]
    simp only [saveCombined, bind_assoc, pure_bind]
    rfl
  · induction charts with
    | nil => rfl
    | cons named rest ih =>
      rw [List.mapM_cons, ih, saveChart_eq]
      simp only [List.map_cons, Actions.perform, bind_assoc, pure_bind]

theorem plotSlices_eq (args : Args) (path : String) :
    plotSlices args path = (do
      let rows ← Job.ask fun t => t.loadSlices path
      Actions.perform args.outputDir (sliceActions args rows)
      pure ((slicePage args rows).path args.outputDir)) := by
  rw [plotSlices]
  refine bind_congr fun rows => ?_
  rw [saveChart_eq]
  simp only [sliceActions, Actions.perform, bind_assoc, pure_bind]
  rfl

theorem plotSweep_eq (args : Args) (colored : Bool) (files : List String) :
    plotSweep args colored files = (do
      let records ← Job.ask fun t => t.loadRecords files
      Actions.perform args.outputDir (sweepActions args colored files records)
      Job.say ((sweepPages args records).map (generatedLine args records))
      pure ((sweepPages args records).map (Output.path args.outputDir))) := by
  have hlines (records : List Record) :
      ((sweepPages args records).map (Output.path args.outputDir)).map (fun page =>
        .info ("Generated plot at: " ++ page ++ " (" ++ toString records.length ++ " records)")) =
        (sweepPages args records).map (generatedLine args records) := List.map_map
  rw [plotSweep]
  refine bind_congr fun records => ?_
  simp only [saveCharts_eq, dump_eq, sweepActions, Actions.perform_append]
  cases args.noSummary <;> cases args.dumpJson <;>
    simp only [Bool.false_eq_true, if_false, if_true, Bool.not_false, Bool.not_true,
      Actions.perform, Action.job_say, bind_assoc, pure_bind, hlines]

/-! ## Opening pages -/

/-- The first of some pages that is refused, with the cause. -/
def FirstRefused (opener : Opener) (pages : List String) (failure : Unopened) : Prop :=
  ∃ earlier later, pages = earlier ++ failure.page :: later ∧
    (∀ page ∈ earlier, opener page = .ok ()) ∧ opener failure.page = .error failure.cause

/-- What opening a page comes to. -/
def openOne (opener : Opener) (page : String) : Except RunError Unit :=
  (opener page).mapError fun cause => .unopened ⟨page, cause⟩

/-- What opening pages one after the other comes to. -/
def openAll (opener : Opener) (pages : List String) : Except RunError Unit :=
  (pages.mapM (openOne opener)).map fun _ => ()

theorem openAll_eq_ok_iff {opener : Opener} {pages : List String} :
    openAll opener pages = .ok () ↔ ∀ page ∈ pages, opener page = .ok () := by
  rw [openAll, map_eq_ok]
  constructor
  · intro ⟨answers, hanswers, _⟩ page hpage
    obtain ⟨answer, -, hanswer⟩ := exists_of_forall₂ (mapM_eq_ok_iff.1 hanswers) page hpage
    exact mapError_eq_ok.1 hanswer
  · intro h
    obtain ⟨answers, hanswers⟩ :=
      exists_mapM_eq_ok fun page hpage => ⟨(), mapError_eq_ok.2 (h page hpage)⟩
    exact ⟨answers, hanswers, rfl⟩

theorem openAll_eq_error_iff {opener : Opener} {pages : List String} {e : RunError} :
    openAll opener pages = .error e ↔ ∃ failure, e = .unopened failure ∧
      FirstRefused opener pages failure := by
  simp only [openAll, openOne, map_eq_error, mapM_eq_error_iff, mapError_eq_ok, mapError_eq_error]
  constructor
  · intro ⟨earlier, page, later, hpages, hearlier, cause, hcause, he⟩
    exact ⟨⟨page, cause⟩, he, earlier, later, hpages, fun p hp => (hearlier p hp).choose_spec,
      hcause⟩
  · intro ⟨failure, he, earlier, later, hpages, hearlier, hcause⟩
    exact ⟨earlier, failure.page, later, hpages, fun p hp => ⟨(), hearlier p hp⟩, failure.cause,
      hcause, he⟩

theorem openPages_eq (opener : Opener) (pages : List String) :
    openPages opener pages = MonadExcept.ofExcept (openAll opener pages) := by
  induction pages with
  | nil => rfl
  | cons page rest ih =>
    rw [openPages, openAll]
    cases hpage : opener page with
    | error cause =>
      have hone : openOne opener page = .error (.unopened ⟨page, cause⟩) :=
        mapError_eq_error.2 ⟨cause, hpage, rfl⟩
      rw [mapM_cons_of_error hone]
      rfl
    | ok =>
      have hone : openOne opener page = .ok () := mapError_eq_ok.2 hpage
      rw [mapM_cons_of_ok hone, ih, openAll]
      cases rest.mapM (openOne opener) <;> rfl

/-! ## The whole run -/

/-- The actions of a run, and the pages to open when they are all done, or the error with which the
run then ends. -/
structure Script where
  actions : List Action
  ending : Except RunError (List String)

namespace Script

/-- How a script ends if its actions are all done. -/
def result (s : Script) (opener : Opener) : Except RunError Unit := s.ending.bind (openAll opener)

/-- A script as a job. -/
def job (dir : String) (opener : Opener) (s : Script) : Job Unit := do
  Actions.perform dir s.actions
  MonadExcept.ofExcept (s.result opener)

theorem job_append (dir : String) (opener : Opener) (actions more : List Action)
    (ending : Except RunError (List String)) :
    (Script.mk (actions ++ more) ending).job dir opener =
      (do Actions.perform dir actions; (Script.mk more ending).job dir opener) := by
  rw [job, job, Actions.perform_append, bind_assoc]
  rfl

theorem exec_job (dir : String) (opener : Opener) (s : Script) (w : Workspace) :
    (s.job dir opener).exec w =
      match (Actions.perform dir s.actions).exec w with
      | (.ok (), w) => (s.result opener, w)
      | (.error e, w) => (.error e, w) := by
  rw [job, Job.exec_bind]
  cases (Actions.perform dir s.actions).exec w with
  | mk result w =>
    cases result with
    | error e => rfl
    | ok => cases s.result opener <;> rfl

theorem exists_perform_of_exec {dir : String} {opener : Opener} {s : Script} {w after : Workspace}
    {result : Except RunError Unit} (h : (s.job dir opener).exec w = (result, after)) :
    ∃ done, (Actions.perform dir s.actions).exec w = (done, after) := by
  rw [exec_job] at h
  cases hdone : (Actions.perform dir s.actions).exec w with
  | mk done u =>
    rw [hdone] at h
    refine ⟨done, ?_⟩
    cases done <;> rw [(Prod.mk.inj h).2]

theorem result_eq_ok_iff {s : Script} {opener : Opener} :
    s.result opener = .ok () ↔
      ∃ pages, s.ending = .ok pages ∧ ∀ page ∈ pages, opener page = .ok () := by
  unfold result
  cases s.ending with
  | error e => simp [Except.bind]
  | ok pages => simpa [Except.bind] using openAll_eq_ok_iff

theorem perform_of_exec_ok {dir : String} {opener : Opener} {s : Script} {w after : Workspace}
    (h : (s.job dir opener).exec w = (.ok (), after)) :
    (Actions.perform dir s.actions).exec w = (.ok (), after) ∧ s.result opener = .ok () := by
  rw [exec_job] at h
  cases hdone : (Actions.perform dir s.actions).exec w with
  | mk done u =>
    rw [hdone] at h
    cases done with
    | error e => cases (Prod.mk.inj h).1
    | ok =>
      obtain ⟨hending, rfl⟩ := Prod.mk.inj h
      exact ⟨rfl, hending⟩

theorem exec_nil (dir : String) (opener : Opener) (ending : Except RunError (List String))
    (w : Workspace) :
    ((Script.mk [] ending).job dir opener).exec w = (ending.bind (openAll opener), w) :=
  exec_job dir opener _ w

end Script

/-- The pages that a run opens of those that it wrote. -/
def opened (args : Args) (pages : List String) : List String :=
  if args.openCharts then pages else []

/-- The script of a sweep, after the pages of a slice sweep. -/
def sweepScript (args : Args) (colored : Bool) (slicePages : List String) (t : Tree) : Script :=
  if args.plotsSweep then
    let files := inputs args t
    if files.isEmpty then ⟨[], .error (.noInputFiles args.dataDir)⟩
    else
      match t.loadRecords files with
      | .error e => ⟨foundActions args files, .error (.load e)⟩
      | .ok records =>
        let pages := sweepPages args records
        ⟨foundActions args files ++ sweepActions args colored files records ++
            [.say (pages.map (generatedLine args records))],
          .ok (opened args (slicePages ++ pages.map (Output.path args.outputDir)))⟩
  else ⟨[], .ok (opened args slicePages)⟩

/-- The script of a run on a tree. -/
def script (args : Args) (colored : Bool) (t : Tree) : Script :=
  match args.sliceSweep with
  | none => sweepScript args colored [] t
  | some path =>
    match t.loadSlices path with
    | .error e => ⟨[], .error (.load e)⟩
    | .ok rows =>
      let page := slicePage args rows
      let sweep := sweepScript args colored [page.path args.outputDir]
        (t.saved args.outputDir page)
      ⟨sliceActions args rows ++ sweep.actions, sweep.ending⟩

/-- The part of a run that comes after a slice sweep. -/
def sweepStage (args : Args) (colored : Bool) (opener : Opener) (slicePages : List String) :
    Job Unit := do
  let sweepPages ←
    if args.plotsSweep then do plotSweep args colored (← resolve args.files args.dataDir)
    else pure []
  if args.openCharts then openPages opener (slicePages ++ sweepPages)

theorem openPages_opened (args : Args) (opener : Opener) (pages : List String) :
    (if args.openCharts then openPages opener pages else pure ()) =
      (MonadExcept.ofExcept (openAll opener (opened args pages)) : Job Unit) := by
  rw [← openPages_eq, opened]
  cases args.openCharts <;> rfl

theorem exec_resolve (args : Args) (w : Workspace) :
    (resolve args.files args.dataDir).exec w =
      if (inputs args w.tree).isEmpty then (.error (.noInputFiles args.dataDir), w)
      else (.ok (inputs args w.tree),
        { w with log := w.log ++ Actions.lines (foundActions args (inputs args w.tree)) }) := by
  unfold resolve inputs foundActions
  cases hfiles : args.files.isEmpty with
  | false => simp [Actions.lines, hfiles, Job.exec_pure]
  | true =>
    simp only [Bool.not_true, Bool.false_eq_true, if_false, if_true, Job.exec_bind, Job.exec_get]
    cases (w.tree.discover args.dataDir).isEmpty <;> rfl

theorem exec_sweepStage (args : Args) (colored : Bool) (opener : Opener)
    (slicePages : List String) (w : Workspace) :
    (sweepStage args colored opener slicePages).exec w =
      ((sweepScript args colored slicePages w.tree).job args.outputDir opener).exec w := by
  unfold sweepStage sweepScript
  cases args.plotsSweep with
  | false =>
    simp only [Bool.false_eq_true, if_false, pure_bind, List.append_nil, openPages_opened]
    rfl
  | true =>
    simp only [if_true, plotSweep_eq, bind_assoc, pure_bind, openPages_opened]
    rw [Job.exec_bind, exec_resolve]
    cases (inputs args w.tree).isEmpty with
    | true => exact (Script.exec_nil args.outputDir opener (.error _) w).symm
    | false =>
      simp only [Bool.false_eq_true, if_false]
      rw [Job.exec_bind, Job.exec_ask]
      dsimp only
      cases w.tree.loadRecords (inputs args w.tree) with
      | error e =>
        rw [Script.exec_job, Actions.exec_perform_of_outputs _ (outputs_foundActions args _)]
        rfl
      | ok records =>
        dsimp only
        rw [List.append_assoc, Script.job_append, Script.job_append]
        symm
        rw [Job.exec_bind, Actions.exec_perform_of_outputs _ (outputs_foundActions args _)]
        rfl

theorem run_eq (args : Args) (colored : Bool) (opener : Opener) :
    run args colored opener =
      match args.sliceSweep with
      | none => sweepStage args colored opener []
      | some path => (do
        let page ← plotSlices args path
        sweepStage args colored opener [page]) := by
  unfold run
  cases args.sliceSweep with
  | none => rfl
  | some path => simp only [pure_bind]; rfl

/-- **A run performs its script.** -/
theorem exec_run (args : Args) (colored : Bool) (opener : Opener) (w : Workspace) :
    (run args colored opener).exec w =
      ((script args colored w.tree).job args.outputDir opener).exec w := by
  rw [run_eq, script]
  cases args.sliceSweep with
  | none => exact exec_sweepStage args colored opener [] w
  | some path =>
    simp only [plotSlices_eq, Job.exec_bind, Job.exec_ask]
    cases w.tree.loadSlices path with
    | error e => rfl
    | ok rows =>
      have hsaved := Action.exec_save_snd args.outputDir (slicePage args rows) w
      simp only [Script.job_append, sliceActions, Actions.perform, bind_assoc, pure_bind]
      rw [Job.exec_bind, Job.exec_bind]
      cases hsave : ((Action.save (slicePage args rows)).job args.outputDir).exec w with
      | mk result after =>
        cases result with
        | error e => rfl
        | ok =>
          obtain rfl : after = _ := (congrArg Prod.snd hsave).symm.trans hsaved
          exact exec_sweepStage args colored opener _ _

end SweepCharts.Run
