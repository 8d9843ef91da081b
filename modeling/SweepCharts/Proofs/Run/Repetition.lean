import SweepCharts.Proofs.Run.Rereading

set_option autoImplicit false

/-! # Running twice

A run finds in the tree that it leaves what it found before: its inputs, since none of them is one
of its outputs, and its outputs, which it writes again as they are. So it does the same again. There
is one exception, `Action.RunsIntoFile`: an output directory that could not be made, because the
directories that were made on the way lead through a step up to a file.

* `second_run_repeats_first`: the statement.
* `second_run_fails_otherwise`: the exception is met.
-/

namespace SweepCharts.Run

open SweepCharts.Tree

/-- A directory that runs into a file only after directories were made leads up somewhere. -/
theorem up_mem_of_runsIntoFile {dir : String} {before after : Tree} {outputs : List Output}
    (h : Leaves dir before after outputs) {p : Path} (hp : Path.ofFolder dir = .ok p)
    (hbefore : before.locate p = .error .notFound) (hafter : after.locate p = .error .notDirectory)
    (hrooted : before.Rooted) : Step.up ∈ p.steps := by
  by_contra hdown
  have hnone : outputs = [] := by
    rw [List.eq_nil_iff_forall_not_mem]
    intro o ho
    obtain ⟨loc, hloc, -⟩ := h.exists_locates ho
    obtain ⟨q, folder, hq, hfolder, -⟩ := hloc.exists_folder
    obtain rfl : p = q := Except.ok.inj (hp.symm.trans hq)
    cases hfolder.symm.trans hafter
  subst hnone
  rw [locate_eq, h.keeps.origin] at hafter
  have hadded (loc : Location) :
      after.node? loc = before.node? loc ∨ after.node? loc = some .directory :=
    (h.others loc nofun).imp_right fun hnew => hnew.2.1
  cases hbefore.symm.trans (walk_of_rooted hadded hrooted hdown hafter).1

/-- **A second run repeats the first**: it leaves the tree as it is, logs the same messages, and
ends in the same way as long as the opener answers as before. The exception is a run that could not
make its output directory. -/
theorem second_run_repeats_first {args : Args} {colored : Bool} {opener : Opener}
    {w after : Workspace} {first : Except RunError Unit}
    (h : (run args colored opener).exec w = (first, after))
    (hfree : ∀ path ∈ args.files ++ args.sliceSweep.toList, ∀ o ∈ writeOrder args w.tree,
      ¬ after.tree.SameFile path (o.path args.outputDir)) :
    ∃ new, after.log = w.log ++ new ∧ ∀ log again, ∃ second,
      (run args colored again).exec ⟨after.tree, log⟩ = (second, ⟨after.tree, log ++ new⟩) ∧
        (again = opener → second = first ∨
          ∃ fault, (fault = RunError.unwritable args.outputDir ∨
              fault = RunError.undumped args.outputDir) ∧
            first = .error (fault .exists) ∧ second = .error (fault .notDirectory) ∧
            ∃ p, Path.ofFolder args.outputDir = .ok p ∧ w.tree.locate p = .error .notFound ∧
              after.tree.locate p = .error .notDirectory ∧
              (w.tree.Rooted → Step.up ∈ p.steps)) := by
  rw [exec_run] at h
  have hdiffer := differInKind_script args colored w.tree
  have hscript := script_again h hfree
  obtain ⟨done, hdone⟩ := Script.exists_perform_of_exec h
  obtain ⟨saved, -, hleaves⟩ := Actions.exists_leaves_of_perform hdiffer hdone
  obtain ⟨new, hnew, hagain⟩ := Actions.perform_again hdiffer hdone
  refine ⟨new, hnew, fun log again => ?_⟩
  obtain ⟨redone, heq, hcases⟩ := hagain log
  rw [exec_run, hscript]
  rw [Script.exec_job, hdone] at h
  rw [Script.exec_job, heq]
  rcases hcases with rfl | ⟨kind, rfl, rfl, p, hp, hbefore, hafter⟩
  · cases redone with
    | error e => exact ⟨_, rfl, fun _ => .inl (Prod.mk.inj h).1⟩
    | ok =>
      refine ⟨_, rfl, ?_⟩
      rintro rfl
      exact .inl (Prod.mk.inj h).1
  · refine ⟨_, rfl, fun _ => .inr ⟨kind.noDirectory args.outputDir, ?_, (Prod.mk.inj h).1.symm, rfl,
      p, hp, hbefore, hafter, up_mem_of_runsIntoFile hleaves hp hbefore hafter⟩⟩
    cases kind <;> simp [OutputKind.noDirectory]

/-- The pages and the records are written beside the table that they show. All pages are opened, or
the second one is refused both times. -/
theorem second_run_repeats_first_beside_table :
    let args : Args :=
      { files := ["data/a.csv"], outputDir := "data", dumpJson := true, openCharts := true }
    let t : Tree := ⟨[(["data"], .directory),
      (["data", "a.csv"], .file (Utf8.encode "batchSize\n1\n"))], [], by decide⟩
    let failure : Unopened :=
      ⟨"data/throughput_vs_latency.html", .other "Permission denied (os error 13)"⟩
    let opens : Opener := fun _ => .ok ()
    let refuses : Opener := fun page => if page = failure.page then .error failure.cause else .ok ()
    let runIn (opener : Opener) (t : Tree) := (run args false opener).exec ⟨t, []⟩
    (runIn opens t).1 = .ok () ∧ runIn opens (runIn opens t).2.tree = runIn opens t ∧
      (runIn refuses t).1 = .error (.unopened failure) ∧
      runIn refuses (runIn refuses t).2.tree = runIn refuses t := by
  intro args t failure opens refuses runIn
  have hrepeats (opener : Opener)
      (hsaved : ∀ cause, (runIn opener t).1 ≠ .error (.unwritable args.outputDir cause) ∧
        (runIn opener t).1 ≠ .error (.undumped args.outputDir cause)) :
      runIn opener (runIn opener t).2.tree = runIn opener t := by
    have hfree : ∀ path ∈ args.files ++ args.sliceSweep.toList, ∀ o ∈ writeOrder args t,
        ¬ (runIn opener t).2.tree.SameFile path (o.path args.outputDir) := by
      intro path hpath o ho
      obtain rfl : path = "data/a.csv" := List.mem_singleton.1 hpath
      exact not_sameFile_of_suffix (by decide)
    have hrun : (run args false opener).exec ⟨t, []⟩ =
        ((runIn opener t).1, (runIn opener t).2) := rfl
    obtain ⟨new, hnew, hagain⟩ := second_run_repeats_first hrun hfree
    obtain ⟨second, heq, hsecond⟩ := hagain [] opener
    rcases hsecond rfl with rfl | ⟨fault, rfl | rfl, hfirst, -⟩
    · refine heq.trans ?_
      exact congrArg (fun log => ((runIn opener t).1, Workspace.mk (runIn opener t).2.tree log))
        hnew.symm
    · exact absurd hfirst (hsaved _).1
    · exact absurd hfirst (hsaved _).2
  have hopened : (runIn opens t).1 = .ok () := by decide +kernel
  have hrefused : (runIn refuses t).1 = .error (.unopened failure) := by decide +kernel
  refine ⟨hopened, hrepeats opens fun cause => ?_, hrefused, hrepeats refuses fun cause => ?_⟩
  · rw [hopened]
    exact ⟨nofun, nofun⟩
  · rw [hrefused]
    exact ⟨nofun, nofun⟩

/-- **A second run can fail otherwise.** The directory "new" is made, and leads up to a file. -/
theorem second_run_fails_otherwise :
    let args : Args := { outputDir := "new/../file/out", noSummary := true }
    let opener : Opener := fun _ => .ok ()
    let t : Tree := ⟨[(["data"], .directory),
      (["data", "a.csv"], .file (Utf8.encode "batchSize\n1\n")), (["file"], .file [])], [],
      by decide⟩
    let out := (run args false opener).exec ⟨t, []⟩
    (∀ path ∈ args.files ++ args.sliceSweep.toList, ∀ o ∈ writeOrder args t,
      ¬ out.2.tree.SameFile path (o.path args.outputDir)) ∧
    out.1 = .error (.unwritable args.outputDir .exists) ∧
    ((run args false opener).exec out.2).1 = .error (.unwritable args.outputDir .notDirectory) := by
  intro args opener t out
  refine ⟨nofun, ?_, ?_⟩
  · decide +kernel
  · decide +kernel

end SweepCharts.Run
