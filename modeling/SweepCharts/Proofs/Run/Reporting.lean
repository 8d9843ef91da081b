import SweepCharts.Proofs.Files.OneFile
import SweepCharts.Proofs.Run.WriteOrder

set_option autoImplicit false

/-! # Reporting

A run reports beside its charts: it prints a summary, opens the pages and dumps the records. What is
left in the tree is what saving the files of the run leaves, so printing and opening are of no
account (`exec_run_saves`). The dump is one of these files. It is saved after all has been read, in
the directory of the pages, and in the way of none of them (`saveAll_after_save`).

* `saveAll_apart`: files are saved alike whether another file is there or not.
* `saveAll_insert`: what one file more among those that are saved comes to.
* `writeOrder_dumping`: the files of a run with the dump and without.
* `reporting_leaves_charts`: what the three switches change.
-/

namespace SweepCharts

open SweepCharts.Tree

/-! ## Saving files -/

/-- What saving a file comes to, and the tree that it leaves. -/
def Output.save (dir : String) (o : Output) (t : Tree) : Except RunError Unit × Tree :=
  match t.ensureDirectory dir with
  | (t, .error cause) => (.error (o.kind.noDirectory dir cause), t)
  | (t, .ok ()) =>
    match t.write (o.path dir) o.bytes with
    | .error cause => (.error (o.kind.noFile dir cause), t)
    | .ok t => (.ok (), t)

theorem fails_of_save {dir : String} {o : Output} {t u : Tree} {e : RunError}
    (h : o.save dir t = (.error e, u)) : o.kind.Fails dir e := by
  unfold Output.save at h
  split at h
  · exact ⟨_, .inl (Except.error.inj (Prod.mk.inj h).1).symm⟩
  · split at h
    · exact ⟨_, .inr (Except.error.inj (Prod.mk.inj h).1).symm⟩
    · cases (Prod.mk.inj h).1

/-- Saves files one after the other, up to the first that cannot be saved. -/
def saveAll (dir : String) : List Output → Tree → Except RunError Unit × Tree
  | [], t => (.ok (), t)
  | o :: rest, t =>
    match o.save dir t with
    | (.ok (), t) => saveAll dir rest t
    | (.error e, t) => (.error e, t)

section
variable {dir : String}

theorem Action.exec_save_eq (dir : String) (o : Output) (w : Workspace) :
    ((Action.save o).job dir).exec w =
      ((o.save dir w.tree).1, { w with tree := (o.save dir w.tree).2 }) := by
  rw [Action.exec_save, Output.save]
  cases w.tree.ensureDirectory dir with
  | mk tree result =>
    cases result with
    | error cause => rfl
    | ok =>
      dsimp only
      cases tree.write (o.path dir) o.bytes <;> rfl

theorem saveAll_append (dir : String) (first rest : List Output) (t : Tree) :
    saveAll dir (first ++ rest) t =
      match saveAll dir first t with
      | (.ok (), t) => saveAll dir rest t
      | (.error e, t) => (.error e, t) := by
  induction first generalizing t with
  | nil => rfl
  | cons o more ih =>
    rw [List.cons_append, saveAll, saveAll]
    cases o.save dir t with
    | mk result after =>
      cases result with
      | error e => rfl
      | ok => exact ih after

/-- **What actions do to the tree** is what saving their files does. -/
theorem Actions.exec_perform_eq (dir : String) (actions : List Action) (w : Workspace) :
    ∃ log, (perform dir actions).exec w =
      ((saveAll dir (outputs actions) w.tree).1,
        ⟨(saveAll dir (outputs actions) w.tree).2, log⟩) := by
  induction actions generalizing w with
  | nil => exact ⟨w.log, rfl⟩
  | cons action rest ih =>
    rw [perform, Job.exec_bind]
    cases action with
    | say lines => exact ih { w with log := w.log ++ lines }
    | save o =>
      have houtputs : outputs (.save o :: rest) = o :: outputs rest := rfl
      rw [Action.exec_save_eq, houtputs, saveAll]
      cases o.save dir w.tree with
      | mk result after =>
        cases result with
        | error e => exact ⟨w.log, rfl⟩
        | ok => exact ih { w with tree := after }

/-! ## Saving files beside another -/

variable {o : Output} {loc : Location} {t u : Tree}

theorem save_apart (h : ApartFrom dir o loc t u) {page : Output} (hkind : page.kind ≠ o.kind) :
    (page.save dir t).1 = (page.save dir u).1 ∧
      ApartFrom dir o loc (page.save dir t).2 (page.save dir u).2 := by
  unfold Output.save
  rw [h.located.1.ensureDirectory, h.located.2.ensureDirectory]
  rcases h.write hkind with ⟨cause, ht, hu⟩ | ⟨t', u', ht, hu, hafter⟩
  · simpa only [ht, hu, true_and] using h
  · simpa only [ht, hu, true_and] using hafter

/-- **Files are saved alike** in trees that differ in a file of another kind. -/
theorem saveAll_apart (h : ApartFrom dir o loc t u) {pages : List Output}
    (hkinds : ∀ page ∈ pages, page.kind ≠ o.kind) :
    (saveAll dir pages t).1 = (saveAll dir pages u).1 ∧
      ApartFrom dir o loc (saveAll dir pages t).2 (saveAll dir pages u).2 := by
  induction pages generalizing t u with
  | nil => exact ⟨rfl, h⟩
  | cons page rest ih =>
    obtain ⟨hresult, hafter⟩ := save_apart h (hkinds page List.mem_cons_self)
    unfold saveAll
    revert hresult hafter
    generalize page.save dir t = first
    generalize page.save dir u = second
    obtain ⟨first, t⟩ := first
    obtain ⟨second, u⟩ := second
    rintro rfl hafter
    cases first with
    | error e => exact ⟨rfl, hafter⟩
    | ok => exact ih hafter fun page hpage => hkinds page (List.mem_cons_of_mem _ hpage)

/-- Making the directory first makes no difference to files that are saved into it. -/
theorem saveAll_of_ensureDirectory (h : t.ensureDirectory dir = (u, .ok ())) {pages : List Output}
    (hpages : pages ≠ []) : saveAll dir pages t = saveAll dir pages u := by
  obtain ⟨page, rest, rfl⟩ := List.exists_cons_of_ne_nil hpages
  have hsame : page.save dir t = page.save dir u := by
    rw [Output.save, Output.save, h, ensureDirectory_again h]
  rw [saveAll, saveAll, hsame]

/-- Files are saved alike before and after another file. -/
theorem saveAll_after_save (h : o.save dir t = (.ok (), u)) {pages : List Output}
    (hpages : pages ≠ []) (hkinds : ∀ page ∈ pages, page.kind ≠ o.kind) :
    ∃ loc, (saveAll dir pages t).1 = (saveAll dir pages u).1 ∧
      ApartFrom dir o loc (saveAll dir pages t).2 (saveAll dir pages u).2 := by
  unfold Output.save at h
  cases hmake : t.ensureDirectory dir with
  | mk made result =>
    cases result with
    | error cause =>
      rw [hmake] at h
      cases (Prod.mk.inj h).1
    | ok =>
      simp only [hmake] at h
      cases hwrite : made.write (o.path dir) o.bytes with
      | error cause =>
        rw [hwrite] at h
        cases (Prod.mk.inj h).1
      | ok written =>
        rw [hwrite] at h
        obtain rfl : written = u := (Prod.mk.inj h).2
        obtain ⟨loc, hapart⟩ := apartFrom_of_write hwrite
        rw [saveAll_of_ensureDirectory hmake hpages]
        exact ⟨loc, saveAll_apart hapart hkinds⟩

/-- **One file more** among those that are saved makes no difference, but for itself and if it
cannot be saved. -/
theorem saveAll_insert (first : List Output) (o : Output) {pages : List Output} (t : Tree)
    (hpages : pages ≠ []) (hkinds : ∀ page ∈ pages, page.kind ≠ o.kind) :
    (∃ e, (saveAll dir (first ++ o :: pages) t).1 = .error e ∧ o.kind.Fails dir e) ∨
    saveAll dir (first ++ pages) t = saveAll dir (first ++ o :: pages) t ∨
    ∃ loc,
      (saveAll dir (first ++ pages) t).1 = (saveAll dir (first ++ o :: pages) t).1 ∧
        ApartFrom dir o loc (saveAll dir (first ++ pages) t).2
          (saveAll dir (first ++ o :: pages) t).2 := by
  rw [saveAll_append, saveAll_append]
  cases saveAll dir first t with
  | mk result t =>
    cases result with
    | error e => exact .inr (.inl rfl)
    | ok =>
      dsimp only [saveAll]
      cases hsave : o.save dir t with
      | mk saved u =>
        cases saved with
        | error e => exact .inl ⟨e, rfl, fails_of_save hsave⟩
        | ok => exact .inr (.inr (saveAll_after_save hsave hpages hkinds))

end

/-- The arguments with the dump or without. -/
def Args.dumping (args : Args) (dumpJson : Bool) : Args := { args with dumpJson }

namespace Run

/-! ## The files of a run with the dump and without -/

/-- **What a run leaves** is what saving its files leaves. -/
theorem exec_run_saves (args : Args) (colored : Bool) (opener : Opener) (w : Workspace) :
    let saved := saveAll args.outputDir (writeOrder args w.tree) w.tree
    ((run args colored opener).exec w).2.tree = saved.2 ∧
      ((run args colored opener).exec w).1 =
        saved.1.bind fun _ => (script args colored w.tree).result opener := by
  obtain ⟨log, hperform⟩ := Actions.exec_perform_eq args.outputDir
    (script args colored w.tree).actions w
  rw [exec_run, Script.exec_job, hperform, outputs_script]
  cases saveAll args.outputDir (writeOrder args w.tree) w.tree with
  | mk result tree => cases result <;> exact ⟨rfl, rfl⟩

/-- The records come right before the pages of the sweep. -/
theorem sweepFiles_dumping (args : Args) (t : Tree) :
    sweepFiles (args.dumping true) t = sweepFiles (args.dumping false) t ∨
    ∃ records,
      sweepFiles (args.dumping true) t = recordsFile records :: sweepPages args records ∧
      sweepFiles (args.dumping false) t = sweepPages args records := by
  have hplots (dumpJson : Bool) : (args.dumping dumpJson).plotsSweep = args.plotsSweep := rfl
  have hinputs (dumpJson : Bool) : inputs (args.dumping dumpJson) t = inputs args t := rfl
  unfold sweepFiles
  simp only [hplots, hinputs]
  split
  · cases t.loadRecords (inputs args t) with
    | error e => exact .inl rfl
    | ok records => exact .inr ⟨records, rfl, rfl⟩
  · exact .inl rfl

/-- **The files of a run** with the dump and without. -/
theorem writeOrder_dumping (args : Args) (t : Tree) :
    writeOrder (args.dumping true) t = writeOrder (args.dumping false) t ∨
    ∃ first records,
      writeOrder (args.dumping true) t =
        first ++ recordsFile records :: sweepPages args records ∧
      writeOrder (args.dumping false) t = first ++ sweepPages args records := by
  have hslice (dumpJson : Bool) : (args.dumping dumpJson).sliceSweep = args.sliceSweep := rfl
  have hdir (dumpJson : Bool) : (args.dumping dumpJson).outputDir = args.outputDir := rfl
  have hpage (dumpJson : Bool) (rows : List SliceRow) :
      slicePage (args.dumping dumpJson) rows = slicePage args rows := rfl
  unfold writeOrder
  simp only [hslice, hdir, hpage]
  cases args.sliceSweep with
  | none =>
    rcases sweepFiles_dumping args t with hsame | ⟨records, hon, hoff⟩
    · exact .inl hsame
    · exact .inr ⟨[], records, hon, hoff⟩
  | some path =>
    dsimp only
    cases t.loadSlices path with
    | error e => exact .inl rfl
    | ok rows =>
      dsimp only
      rcases sweepFiles_dumping args (t.saved args.outputDir (slicePage args rows)) with
        hsame | ⟨records, hon, hoff⟩
      · exact .inl (congrArg (slicePage args rows :: ·) hsame)
      · exact .inr ⟨[slicePage args rows], records, congrArg (slicePage args rows :: ·) hon,
          congrArg (slicePage args rows :: ·) hoff⟩

/-- How the sweep of a run ends, if all is saved. -/
theorem ending_sweepScript (args : Args) (colored : Bool) (pages : List String) (t : Tree) :
    (sweepScript args colored pages t).ending =
      if args.plotsSweep then
        if (inputs args t).isEmpty then .error (.noInputFiles args.dataDir)
        else
          match t.loadRecords (inputs args t) with
          | .error e => .error (.load e)
          | .ok records =>
            .ok (opened args
              (pages ++ (sweepPages args records).map (Output.path args.outputDir)))
      else .ok (opened args pages) := by
  unfold sweepScript
  split
  · dsimp only
    split
    · rfl
    · cases t.loadRecords (inputs args t) <;> rfl
  · rfl

/-- How a run ends, if all is saved. -/
theorem ending_script (args : Args) (colored : Bool) (t : Tree) :
    (script args colored t).ending =
      match args.sliceSweep with
      | none => (sweepScript args colored [] t).ending
      | some path =>
        match t.loadSlices path with
        | .error e => .error (.load e)
        | .ok rows =>
          (sweepScript args colored [(slicePage args rows).path args.outputDir]
            (t.saved args.outputDir (slicePage args rows))).ending := by
  unfold script
  cases args.sliceSweep with
  | none => rfl
  | some path =>
    dsimp only
    cases t.loadSlices path <;> rfl

theorem result_dumping (args : Args) (colored : Bool) (opener : Opener) (t : Tree) :
    (script (args.dumping true) colored t).result opener =
      (script (args.dumping false) colored t).result opener := by
  simp only [Script.result, ending_script, ending_sweepScript]
  rfl

/-! ## The switches -/

/-- **Reporting leaves the charts alone.** Printing the summary and opening the pages make no
difference to the tree that a run leaves, whatever opens them. Dumping the records makes none but
for the file of the records, and a run that can write this file ends as it does without it. -/
theorem reporting_leaves_charts (args : Args) (colored : Bool) (opener : Opener)
    (w : Workspace) :
    (∀ noSummary openCharts another,
      ((run { args with noSummary, openCharts } colored another).exec w).2.tree =
        ((run args colored opener).exec w).2.tree) ∧
      ∀ result dumped other plain,
        (run (args.dumping true) colored opener).exec w = (result, dumped) →
        (run (args.dumping false) colored opener).exec w = (other, plain) →
        (∀ path cause, result ≠ .error (.undumped path cause)) →
        other = result ∧ plain.tree.start = dumped.tree.start ∧
          ∀ loc, ¬ dumped.tree.Locates (Path.join args.outputDir "records.json") loc →
            plain.tree.node? loc = dumped.tree.node? loc := by
  refine ⟨fun noSummary openCharts another => ?_,
    fun result dumped other plain hon hoff hdumped => ?_⟩
  · rw [(exec_run_saves _ colored another w).1, (exec_run_saves args colored opener w).1]
    rfl
  · obtain ⟨hontree, hresult⟩ := exec_run_saves (args.dumping true) colored opener w
    obtain ⟨hofftree, hother⟩ := exec_run_saves (args.dumping false) colored opener w
    have hdir (dumpJson : Bool) : (args.dumping dumpJson).outputDir = args.outputDir := rfl
    rw [hon, hdir] at hontree hresult
    rw [hoff, hdir] at hofftree hother
    dsimp only at hontree hresult hofftree hother
    subst hresult hother
    rw [hontree, hofftree, result_dumping]
    rcases writeOrder_dumping args w.tree with hsame | ⟨first, records, horder, hpages⟩
    · rw [hsame]
      exact ⟨rfl, rfl, fun _ _ => rfl⟩
    · obtain ⟨hne, hkinds⟩ := sweepPages_kinds args records
      rw [horder] at hdumped ⊢
      rw [hpages]
      rcases saveAll_insert first (recordsFile records) w.tree hne hkinds with
        ⟨e, hfailed, cause, rfl | rfl⟩ | hsame | ⟨loc, hresult, hapart⟩
      · rw [hfailed] at hdumped
        exact absurd rfl (hdumped args.outputDir cause)
      · rw [hfailed] at hdumped
        exact absurd rfl (hdumped _ cause)
      · rw [hsame]
        exact ⟨rfl, rfl, fun _ _ => rfl⟩
      · rw [hresult]
        refine ⟨rfl, hapart.start.symm, fun other hother => (hapart.others other ?_).symm⟩
        rintro rfl
        exact hother hapart.located.2

/-- The records are written between the table and the pages, in one directory, and the pages are
opened or not. -/
theorem reporting_leaves_charts_beside_table :
    let args : Args := { files := ["data/a.csv"], outputDir := "data", openCharts := true }
    let opener : Opener := fun _ => .ok ()
    let t : Tree := ⟨[(["data"], .directory),
      (["data", "a.csv"], .file (Utf8.encode "batchSize\n1\n"))], [], by decide⟩
    let dumped := (run (args.dumping true) false opener).exec ⟨t, []⟩
    let plain := (run (args.dumping false) false opener).exec ⟨t, []⟩
    let unopened := (run { args with openCharts := false } false opener).exec ⟨t, []⟩
    unopened.2.tree = ((run args false opener).exec ⟨t, []⟩).2.tree ∧
      dumped.1.isOk = true ∧ plain.1 = dumped.1 ∧
      plain.2.tree.node? ["data", "latency_throughput.html"] =
        dumped.2.tree.node? ["data", "latency_throughput.html"] := by
  intro args opener t dumped plain unopened
  have hdumped : (run (args.dumping true) false opener).exec ⟨t, []⟩ = (dumped.1, dumped.2) := rfl
  have hplain : (run (args.dumping false) false opener).exec ⟨t, []⟩ = (plain.1, plain.2) := rfl
  have hok : dumped.1.isOk = true := by decide +kernel
  obtain ⟨hswitches, hdumping⟩ := reporting_leaves_charts args false opener ⟨t, []⟩
  obtain ⟨hresult, -, hothers⟩ := hdumping _ _ _ _ hdumped hplain fun path cause heq => by
    rw [heq] at hok
    cases hok
  refine ⟨hswitches _ _ _, hok, hresult, hothers _ fun hloc => ?_⟩
  obtain ⟨p, folder, -, -, -, hlast⟩ := Locates.exists_folder (o := recordsFile []) hloc
  have hname := congrArg List.getLast? hlast
  rw [List.getLast?_concat] at hname
  exact absurd hname (by decide)

end Run

end SweepCharts
