import SweepCharts.Proofs.Files.Outputs
import SweepCharts.Run.Basic

set_option autoImplicit false

/-! # Actions

An action adds messages to the log, or saves a file into the output directory. `perform` does one
after the other, up to the first file that cannot be saved.

* `exec_save_cases`: how saving a file ends.
* `exec_save_again_of_error`: a file that could not be saved cannot be saved later. Only an error
  about the output directory may change its cause, from "File exists" to "Not a directory".
* `perform_cases`: what a list of actions leaves, if it is done and if it is not.
* `perform_again`: doing the same actions again leaves the tree as it is, and ends in the same way.
-/

namespace SweepCharts

/-! ## Jobs -/

namespace Job

variable {α β : Type}

/-- What a job comes to, and what it leaves. -/
def exec (job : Job α) (w : Workspace) : Except RunError α × Workspace := (ExceptT.run job).run w

theorem exec_pure (a : α) (w : Workspace) : (pure a : Job α).exec w = (.ok a, w) := rfl

theorem exec_get (w : Workspace) : (get : Job Workspace).exec w = (.ok w, w) := rfl

theorem exec_set (next w : Workspace) : (set next : Job Unit).exec w = (.ok (), next) := rfl

theorem exec_bind (job : Job α) (next : α → Job β) (w : Workspace) :
    (job >>= next).exec w =
      match job.exec w with
      | (.ok a, w) => (next a).exec w
      | (.error e, w) => (.error e, w) := by
  unfold exec ExceptT.run StateT.run
  simp only [bind, ExceptT.bind, ExceptT.mk, StateT.bind, ExceptT.bindCont]
  cases job w with
  | mk result w => cases result <;> rfl

theorem exec_say (lines : List LogLine) (w : Workspace) :
    (say lines).exec w = (.ok (), { w with log := w.log ++ lines }) := rfl

theorem exec_ask (question : Tree → Except LoadError α) (w : Workspace) :
    (ask question).exec w =
      match question w.tree with
      | .ok answer => (.ok answer, w)
      | .error e => (.error (.load e), w) := by
  simp only [ask, exec_bind, exec_get]
  cases question w.tree <;> rfl

theorem exec_makeDirectory (path : String) (fault : OsError → RunError) (w : Workspace) :
    (makeDirectory path fault).exec w =
      match w.tree.ensureDirectory path with
      | (tree, .ok ()) => (.ok (), { w with tree })
      | (tree, .error e) => (.error (fault e), { w with tree }) := by
  simp only [makeDirectory, exec_bind, exec_get, exec_set]
  cases w.tree.ensureDirectory path with
  | mk tree result => cases result <;> rfl

theorem exec_writeFile (path text : String) (fault : OsError → RunError) (w : Workspace) :
    (writeFile path text fault).exec w =
      match w.tree.write path (Utf8.encode text) with
      | .ok tree => (.ok (), { w with tree })
      | .error e => (.error (fault e), w) := by
  simp only [writeFile, exec_bind, exec_get]
  cases w.tree.write path (Utf8.encode text) <;> rfl

end Job

/-! ## Actions -/

namespace OutputKind

/-- The error of a run that cannot make the directory for a file. -/
def noDirectory (dir : String) : OutputKind → OsError → RunError
  | page _ => .unwritable dir
  | combined => .unwritable dir
  | records => .undumped dir

/-- The error of a run that cannot write a file. -/
def noFile (dir : String) : OutputKind → OsError → RunError
  | page chart => .unrendered chart
  | combined => .unwritable (Path.join dir combined.name)
  | records => .undumped (Path.join dir records.name)

/-- The error of a run that cannot save a file. -/
def Fails (kind : OutputKind) (dir : String) (e : RunError) : Prop :=
  ∃ cause, e = kind.noDirectory dir cause ∨ e = kind.noFile dir cause

end OutputKind

/-- One thing that a run does. -/
inductive Action where
  | say (lines : List LogLine)
  | save (o : Output)

namespace Action

def job (dir : String) : Action → Job Unit
  | say lines => Job.say lines
  | save o => do
    Job.makeDirectory dir (o.kind.noDirectory dir)
    Job.writeFile (o.path dir) o.text (o.kind.noFile dir)

def lines : Action → List LogLine
  | say lines => lines
  | save _ => []

def output? : Action → Option Output
  | say _ => none
  | save o => some o

end Action

theorem Action.job_say (dir : String) (lines : List LogLine) :
    (say lines).job dir = Job.say lines := rfl

namespace Actions

/-- The messages of actions. -/
def lines (actions : List Action) : List LogLine := actions.flatMap Action.lines

/-- The files of actions. -/
def outputs (actions : List Action) : List Output := actions.filterMap Action.output?

/-- Does actions in order, up to the first that fails. -/
def perform (dir : String) : List Action → Job Unit
  | [] => pure ()
  | action :: rest => do
    action.job dir
    perform dir rest

theorem lines_append (actions more : List Action) :
    lines (actions ++ more) = lines actions ++ lines more := List.flatMap_append

theorem outputs_append (actions more : List Action) :
    outputs (actions ++ more) = outputs actions ++ outputs more := List.filterMap_append

theorem lines_map_save (saved : List Output) : lines (saved.map .save) = [] := by
  induction saved with
  | nil => rfl
  | cons o rest ih => exact ih

theorem outputs_map_save (saved : List Output) : outputs (saved.map .save) = saved := by
  induction saved with
  | nil => rfl
  | cons o rest ih => exact congrArg (o :: ·) ih

theorem perform_append (dir : String) (actions more : List Action) :
    perform dir (actions ++ more) = (do perform dir actions; perform dir more) := by
  induction actions with
  | nil => exact (pure_bind _ _).symm
  | cons action rest ih => rw [List.cons_append, perform, ih, perform, bind_assoc]

theorem perform_singleton (dir : String) (action : Action) :
    perform dir [action] = action.job dir := by
  rw [perform, perform]
  exact bind_pure _

end Actions

/-! ## Saving a file -/

open SweepCharts.Tree

namespace Action

theorem exec_save (dir : String) (o : Output) (w : Workspace) :
    ((save o).job dir).exec w =
      match w.tree.ensureDirectory dir with
      | (tree, .error cause) => (.error (o.kind.noDirectory dir cause), { w with tree })
      | (tree, .ok ()) =>
        match tree.write (o.path dir) o.bytes with
        | .error cause => (.error (o.kind.noFile dir cause), { w with tree })
        | .ok tree => (.ok (), { w with tree }) := by
  rw [job, Job.exec_bind, Job.exec_makeDirectory]
  cases w.tree.ensureDirectory dir with
  | mk tree result =>
    cases result with
    | error cause => rfl
    | ok =>
      dsimp only
      rw [Job.exec_writeFile]
      change (match tree.write (o.path dir) o.bytes with | .ok tree => _ | .error cause => _) = _
      cases tree.write (o.path dir) o.bytes <;> rfl

theorem exec_save_snd (dir : String) (o : Output) (w : Workspace) :
    (((save o).job dir).exec w).2 = { w with tree := w.tree.saved dir o } := by
  rw [exec_save, saved]
  cases w.tree.ensureDirectory dir with
  | mk tree result =>
    cases result with
    | error cause => rfl
    | ok =>
      dsimp only
      cases tree.write (o.path dir) o.bytes <;> rfl

/-- How saving a file ends: with the file, or with an error and at most its directory. -/
theorem exec_save_cases (dir : String) (o : Output) (w : Workspace) :
    (∃ tree, ((save o).job dir).exec w = (.ok (), { w with tree }) ∧ Leaves dir w.tree tree [o]) ∨
    ∃ tree e, ((save o).job dir).exec w = (.error e, { w with tree }) ∧
      Leaves dir w.tree tree [] ∧ o.kind.Fails dir e := by
  have hleaves := leaves_ensureDirectory w.tree dir
  rw [exec_save]
  cases hmake : w.tree.ensureDirectory dir with
  | mk tree result =>
    rw [hmake] at hleaves
    cases result with
    | error cause => exact .inr ⟨tree, _, rfl, hleaves, cause, .inl rfl⟩
    | ok =>
      cases hwrite : tree.write (o.path dir) o.bytes with
      | error cause =>
        refine .inr ⟨tree, o.kind.noFile dir cause, ?_, hleaves, cause, .inr rfl⟩
        simp only [hwrite]
      | ok after =>
        refine .inl ⟨after, ?_, hleaves.trans (leaves_write hwrite) nofun⟩
        simp only [hwrite]

/-- A file that was saved is saved again without a change. -/
theorem exec_save_again {dir : String} {o : Output} {w : Workspace}
    (h : w.tree.open (o.path dir) = .ok (.file o.bytes)) :
    ((save o).job dir).exec w = (.ok (), w) := by
  obtain ⟨hmake, hwrite⟩ := write_again h
  simp only [exec_save, hmake, hwrite]

/-- The directory could not be made because a file is in the place of a directory. The directories
that were made lead to that file, where nothing led before, so now the file is met on the way. -/
def RunsIntoFile (dir : String) (before after : Tree) (first second : Except RunError Unit) :
    Prop :=
  ∃ kind : OutputKind, first = .error (kind.noDirectory dir .exists) ∧
    second = .error (kind.noDirectory dir .notDirectory) ∧
    ∃ p, Path.ofFolder dir = .ok p ∧ before.locate p = .error .notFound ∧
      after.locate p = .error .notDirectory

/-- A file that could not be saved cannot be saved later, and no more is changed. -/
theorem exec_save_again_of_error {dir : String} {o : Output} {w after : Workspace} {e : RunError}
    (h : ((save o).job dir).exec w = (.error e, after)) (log : List LogLine) :
    ∃ second, ((save o).job dir).exec ⟨after.tree, log⟩ = (.error second, ⟨after.tree, log⟩) ∧
      (second = e ∨ RunsIntoFile dir w.tree after.tree (.error e) (.error second)) := by
  rw [exec_save] at h
  cases hmake : w.tree.ensureDirectory dir with
  | mk tree made =>
    rw [hmake] at h
    cases made with
    | error cause =>
      obtain ⟨he, rfl⟩ := Prod.mk.inj h
      obtain rfl := Except.error.inj he
      obtain ⟨cause', hagain, hcause⟩ := ensureDirectory_error_again hmake
      refine ⟨o.kind.noDirectory dir cause', ?_, ?_⟩
      · simp only [exec_save, hagain]
      · rcases hcause with rfl | ⟨rfl, rfl, hway⟩
        · exact .inl rfl
        · exact .inr ⟨o.kind, rfl, rfl, hway⟩
    | ok =>
      have hmade := ensureDirectory_again hmake
      cases hwrite : tree.write (o.path dir) o.bytes with
      | ok written =>
        simp only [hwrite] at h
        cases (Prod.mk.inj h).1
      | error cause =>
        simp only [hwrite] at h
        obtain ⟨he, rfl⟩ := Prod.mk.inj h
        obtain rfl := Except.error.inj he
        exact ⟨_, by simp only [exec_save, hmade, hwrite], .inl rfl⟩

end Action

/-! ## Doing several actions -/

/-- No two files are of one kind. -/
def DifferInKind (outputs : List Output) : Prop := outputs.Pairwise fun o o' => o.kind ≠ o'.kind

namespace Actions

/-- **Actions are done** one after the other, all of them or those before the first file that
cannot be saved. -/
theorem perform_cases (dir : String) (actions : List Action) (w : Workspace)
    (hdiffer : DifferInKind (outputs actions)) :
    (∃ tree, (perform dir actions).exec w = (.ok (), ⟨tree, w.log ++ lines actions⟩) ∧
      Leaves dir w.tree tree (outputs actions)) ∨
    ∃ done o rest tree e, actions = done ++ .save o :: rest ∧
      (perform dir actions).exec w = (.error e, ⟨tree, w.log ++ lines done⟩) ∧
      Leaves dir w.tree tree (outputs done) ∧ o.kind.Fails dir e := by
  induction actions generalizing w with
  | nil => exact .inl ⟨w.tree, by rw [perform, Job.exec_pure]; simp [lines], .refl dir w.tree⟩
  | cons action rest ih =>
    rw [perform, Job.exec_bind]
    cases action with
    | say lines =>
      rw [Action.job, Job.exec_say]
      rcases ih { w with log := w.log ++ lines } hdiffer with
        ⟨tree, heq, hleaves⟩ | ⟨done, o, more, tree, e, rfl, heq, hleaves, hfails⟩
      · refine .inl ⟨tree, heq.trans ?_, hleaves⟩
        rw [List.append_assoc]
        rfl
      · refine .inr ⟨.say lines :: done, o, more, tree, e, rfl, heq.trans ?_, hleaves, hfails⟩
        rw [List.append_assoc]
        rfl
    | save o =>
      obtain ⟨hfirst, hrest⟩ := List.pairwise_cons.1 hdiffer
      rcases Action.exec_save_cases dir o w with
        ⟨tree, heq, hsaved⟩ | ⟨tree, e, heq, hleaves, hfails⟩
      · rw [heq]
        rcases ih { w with tree } hrest with
          ⟨after, heq, hleaves⟩ | ⟨done, o', more, after, e, rfl, heq, hleaves, hfails⟩
        · refine .inl ⟨after, heq, hsaved.trans hleaves fun o' ho' => ?_⟩
          obtain rfl := List.mem_singleton.1 ho'
          exact hfirst
        · refine .inr ⟨.save o :: done, o', more, after, e, rfl, heq, ?_, hfails⟩
          refine hsaved.trans hleaves fun o'' ho'' other hother => ?_
          obtain rfl := List.mem_singleton.1 ho''
          refine hfirst other ?_
          change other ∈ outputs (done ++ _)
          rw [outputs_append]
          exact List.mem_append_left _ hother
      · rw [heq]
        exact .inr ⟨[], o, rest, tree, e, rfl, by simp [lines], hleaves, hfails⟩

/-- Messages do not change the tree. -/
theorem exec_perform_of_outputs (dir : String) {actions : List Action}
    (h : outputs actions = []) (w : Workspace) :
    (perform dir actions).exec w = (.ok (), { w with log := w.log ++ lines actions }) := by
  induction actions generalizing w with
  | nil => rw [perform, Job.exec_pure]; simp [lines]
  | cons action rest ih =>
    cases action with
    | say lines =>
      rw [perform, Job.exec_bind, Action.job, Job.exec_say]
      dsimp only
      rw [ih h, List.append_assoc]
      rfl
    | save o => cases h

theorem leaves_of_perform_ok {dir : String} {actions : List Action} {w after : Workspace}
    (hdiffer : DifferInKind (outputs actions))
    (h : (perform dir actions).exec w = (.ok (), after)) :
    Leaves dir w.tree after.tree (outputs actions) ∧ after.log = w.log ++ lines actions := by
  rcases perform_cases dir actions w hdiffer with
    ⟨tree, heq, hleaves⟩ | ⟨done, o, rest, tree, e, rfl, heq, -, -⟩
  · obtain ⟨-, rfl⟩ := Prod.mk.inj (heq.symm.trans h)
    exact ⟨hleaves, rfl⟩
  · cases (Prod.mk.inj (heq.symm.trans h)).1

theorem exists_leaves_of_perform {dir : String} {actions : List Action} {w after : Workspace}
    {result : Except RunError Unit} (hdiffer : DifferInKind (outputs actions))
    (h : (perform dir actions).exec w = (result, after)) :
    ∃ saved, saved <+: outputs actions ∧ Leaves dir w.tree after.tree saved := by
  rcases perform_cases dir actions w hdiffer with
    ⟨tree, heq, hleaves⟩ | ⟨done, o, rest, tree, e, rfl, heq, hleaves, -⟩
  · obtain ⟨-, rfl⟩ := Prod.mk.inj (heq.symm.trans h)
    exact ⟨_, List.prefix_refl _, hleaves⟩
  · obtain ⟨-, rfl⟩ := Prod.mk.inj (heq.symm.trans h)
    rw [outputs_append]
    exact ⟨_, List.prefix_append _ _, hleaves⟩

/-- **Actions that are done again** find all that they save, and fail at the same file. -/
theorem perform_again {dir : String} {actions : List Action} {w after : Workspace}
    {result : Except RunError Unit} (hdiffer : DifferInKind (outputs actions))
    (h : (perform dir actions).exec w = (result, after)) :
    ∃ new, after.log = w.log ++ new ∧ ∀ log, ∃ second,
      (perform dir actions).exec ⟨after.tree, log⟩ = (second, ⟨after.tree, log ++ new⟩) ∧
        (second = result ∨ Action.RunsIntoFile dir w.tree after.tree result second) := by
  induction actions generalizing w with
  | nil =>
    obtain ⟨rfl, rfl⟩ := Prod.mk.inj h
    exact ⟨[], (List.append_nil _).symm, fun log =>
      ⟨.ok (), by rw [perform, Job.exec_pure, List.append_nil], .inl rfl⟩⟩
  | cons action rest ih =>
    rw [perform, Job.exec_bind] at h
    cases action with
    | say lines =>
      rw [Action.job, Job.exec_say] at h
      obtain ⟨new, hnew, hagain⟩ := ih hdiffer h
      refine ⟨lines ++ new, hnew.trans (List.append_assoc _ _ _), fun log => ?_⟩
      obtain ⟨second, heq, hsecond⟩ := hagain (log ++ lines)
      refine ⟨second, ?_, hsecond⟩
      rw [perform, Job.exec_bind, Action.job, Job.exec_say, ← List.append_assoc]
      exact heq
    | save o =>
      obtain ⟨hfirst, hrest⟩ := List.pairwise_cons.1 hdiffer
      rcases Action.exec_save_cases dir o w with
        ⟨tree, heq, hsaved⟩ | ⟨tree, e, hfailed, -, -⟩
      · rw [heq] at h
        obtain ⟨new, hnew, hagain⟩ := ih hrest h
        obtain ⟨saved, hsubset, hleaves⟩ := exists_leaves_of_perform hrest h
        have hopen : after.tree.open (o.path dir) = .ok (.file o.bytes) := by
          refine (hsaved.trans hleaves fun o' ho' other hother => ?_).written o
            List.mem_cons_self
          obtain rfl := List.mem_singleton.1 ho'
          exact hfirst other (hsubset.subset hother)
        refine ⟨new, hnew, fun log => ?_⟩
        obtain ⟨second, heq, hsecond⟩ := hagain log
        refine ⟨second, ?_, hsecond.imp_right ?_⟩
        · rw [perform, Job.exec_bind, Action.exec_save_again (w := ⟨after.tree, log⟩) hopen]
          exact heq
        -- the file that was saved is in the directory, so the directory was there
        · rintro ⟨kind, -, -, p, hp, hnotFound, -⟩
          obtain ⟨loc, hloc, -⟩ := hsaved.exists_locates (List.mem_singleton_self o)
          obtain ⟨q, folder, hq, hfolder, -⟩ := hloc.exists_folder
          obtain rfl : p = q := Except.ok.inj (hp.symm.trans hq)
          cases hfolder.symm.trans hnotFound
      · rw [hfailed] at h
        obtain ⟨rfl, rfl⟩ := Prod.mk.inj h
        refine ⟨[], (List.append_nil _).symm, fun log => ?_⟩
        obtain ⟨second, heq, hsecond⟩ := Action.exec_save_again_of_error hfailed log
        refine ⟨.error second, ?_, hsecond.imp_left (congrArg Except.error)⟩
        rw [perform, Job.exec_bind, heq, List.append_nil]

end Actions

end SweepCharts
