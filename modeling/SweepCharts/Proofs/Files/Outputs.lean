import SweepCharts.Chart.KindJson
import SweepCharts.Proofs.Files.Directories
import SweepCharts.Text.Utf8

set_option autoImplicit false

/-! # Files in an output directory

A run makes one directory and writes files into it. `Leaves` says what is then different: the files
hold their whole texts, directories on the way to the output directory may be new, and there is no
other difference.

* `Leaves.trans`: what is written one after the other adds up, as long as the kinds differ.
* `leaves_ensureDirectory`, `leaves_write`: the two operations.
* `ensureDirectory_again`, `write_again`: doing them once more changes nothing.
-/

namespace SweepCharts

/-! ## Output files -/

/-- A kind of file that a run writes. -/
inductive OutputKind where
  | page (chart : ChartKind)
  | combined
  | records
  deriving DecidableEq, Repr

namespace OutputKind

def name : OutputKind → String
  | page chart => chart.stem ++ ".html"
  | combined => "charts.html"
  | records => "records.json"

def all : List OutputKind := ChartKind.all.map page ++ [combined, records]

theorem mem_all (kind : OutputKind) : kind ∈ all := by
  cases kind with
  | page chart => cases chart <;> decide
  | combined => decide
  | records => decide

theorem isFileName (kind : OutputKind) : Path.IsFileName kind.name :=
  (by decide : ∀ kind ∈ all, Path.IsFileName kind.name) kind kind.mem_all

theorem eq_of_name_eq {kind other : OutputKind} (h : kind.name = other.name) : kind = other :=
  (by decide : ∀ kind ∈ all, ∀ other ∈ all, kind.name = other.name → kind = other)
    kind kind.mem_all other other.mem_all h

end OutputKind

/-- A file in an output directory. -/
structure Output where
  kind : OutputKind
  text : String
  deriving DecidableEq, Repr

namespace Output

def path (dir : String) (o : Output) : String := Path.join dir o.kind.name

def bytes (o : Output) : List UInt8 := Utf8.encode o.text

end Output

namespace Tree

/-- The tree after a file was saved into a directory, as far as it could be. -/
def saved (t : Tree) (dir : String) (o : Output) : Tree :=
  match t.ensureDirectory dir with
  | (t, .ok ()) => (t.write (o.path dir) o.bytes).toOption.getD t
  | (t, .error _) => t

/-! ## Where paths lead -/

/-- A path text leads to a location, whatever is there. -/
def Locates (t : Tree) (path : String) (loc : Location) : Prop :=
  ∃ p, Path.ofText path = .ok p ∧ t.locate p = .ok loc

/-- A location is on the way to a directory, or is the directory. -/
def OnTheWay (t : Tree) (dir : String) (loc : Location) : Prop :=
  ∃ p way, Path.ofFolder dir = .ok p ∧ way <+: p.steps ∧
    t.walk (t.origin p.absolute) way = .ok loc

/-- An output file is directly in the output directory. -/
theorem Locates.exists_folder {t : Tree} {dir : String} {o : Output} {loc : Location}
    (h : t.Locates (o.path dir) loc) :
    ∃ p folder, Path.ofFolder dir = .ok p ∧ t.locate p = .ok folder ∧
      t.node? folder = some .directory ∧ loc = folder ++ [o.kind.name] := by
  obtain ⟨q, hq, hloc⟩ := h
  obtain ⟨p, hp, rfl⟩ := Path.ofText_join o.kind.isFileName hq
  obtain ⟨folder, hfolder, hnode, hlast⟩ := walk_snoc_down hloc
  exact ⟨p, folder, hp, hfolder, hnode, hlast⟩

/-- Two kinds of files in one directory do not lead to one location. -/
theorem Locates.kind_eq {t : Tree} {dir : String} {o other : Output} {loc : Location}
    (h : t.Locates (o.path dir) loc) (h' : t.Locates (other.path dir) loc) :
    o.kind = other.kind := by
  obtain ⟨-, folder, -, -, -, rfl⟩ := h.exists_folder
  obtain ⟨-, folder', -, -, -, heq⟩ := h'.exists_folder
  exact OutputKind.eq_of_name_eq (List.singleton_inj.1 (List.append_inj' heq rfl).2)

theorem Keeps.locates {before after : Tree} (h : Keeps before after) {path : String}
    {loc : Location} (hloc : before.Locates path loc) : after.Locates path loc := by
  obtain ⟨p, hp, hloc⟩ := hloc
  exact ⟨p, hp, h.locate hloc⟩

theorem Keeps.onTheWay {before after : Tree} (h : Keeps before after) {dir : String}
    {loc : Location} (hloc : before.OnTheWay dir loc) : after.OnTheWay dir loc := by
  obtain ⟨p, way, hp, hway, hwalk⟩ := hloc
  exact ⟨p, way, hp, hway, by rw [h.origin]; exact h.walk hwalk⟩

/-! ## What is left in a tree -/

/-- The files are written into the directory with their whole texts. Everything else is as before,
but for new directories on the way to this one. -/
structure Leaves (dir : String) (before after : Tree) (outputs : List Output) : Prop where
  keeps : Keeps before after
  written : ∀ o ∈ outputs, after.open (o.path dir) = .ok (.file o.bytes)
  others : ∀ loc, (∀ o ∈ outputs, ¬ after.Locates (o.path dir) loc) →
    after.node? loc = before.node? loc ∨
      before.node? loc = none ∧ after.node? loc = some .directory ∧ after.OnTheWay dir loc

namespace Leaves

variable {dir : String} {before middle after : Tree}

theorem refl (dir : String) (t : Tree) : Leaves dir t t [] :=
  ⟨.refl t, nofun, fun _ _ => .inl rfl⟩

/-- The location of a file that was written. -/
theorem exists_locates {outputs : List Output} (h : Leaves dir before after outputs) {o : Output}
    (ho : o ∈ outputs) :
    ∃ loc, after.Locates (o.path dir) loc ∧ after.node? loc = some (.file o.bytes) := by
  obtain ⟨p, loc, hp, hloc, -, hnode⟩ := open_eq_ok_file_iff.1 (h.written o ho)
  exact ⟨loc, ⟨p, hp, hloc⟩, hnode⟩

theorem trans {first second : List Output} (h : Leaves dir before middle first)
    (h' : Leaves dir middle after second)
    (hdiffer : ∀ o ∈ first, ∀ o' ∈ second, o.kind ≠ o'.kind) :
    Leaves dir before after (first ++ second) where
  keeps := h.keeps.trans h'.keeps
  written o ho := by
    rcases List.mem_append.1 ho with hfirst | hsecond
    · obtain ⟨p, loc, hp, hloc, hend, hnode⟩ := open_eq_ok_file_iff.1 (h.written o hfirst)
      have hkept : after.node? loc = some (.file o.bytes) := by
        have hfree : ∀ o' ∈ second, ¬ after.Locates (o'.path dir) loc := fun o' ho' hloc' =>
          hdiffer o hfirst o' ho' (Locates.kind_eq (h'.keeps.locates ⟨p, hp, hloc⟩) hloc')
        rcases h'.others loc hfree with hsame | ⟨hnone, -⟩
        · exact hsame.trans hnode
        · cases hnone.symm.trans hnode
      exact open_eq_ok_file_iff.2 ⟨p, loc, hp, h'.keeps.locate hloc, hend, hkept⟩
    · exact h'.written o hsecond
  others loc hfree := by
    have hfirst : ∀ o ∈ first, ¬ middle.Locates (o.path dir) loc := fun o ho hloc =>
      hfree o (List.mem_append_left _ ho) (h'.keeps.locates hloc)
    have hsecond : ∀ o ∈ second, ¬ after.Locates (o.path dir) loc := fun o ho =>
      hfree o (List.mem_append_right _ ho)
    rcases h.others loc hfirst, h'.others loc hsecond with
      ⟨hsame | ⟨hnone, hdir, hway⟩, hsame' | ⟨hnone', hdir', hway'⟩⟩
    · exact .inl (hsame'.trans hsame)
    · exact .inr ⟨hsame.symm.trans hnone', hdir', hway'⟩
    · exact .inr ⟨hnone, hsame'.trans hdir, h'.keeps.onTheWay hway⟩
    · cases hnone'.symm.trans hdir

theorem of_paves {p : Path} (hp : Path.ofFolder dir = .ok p)
    (h : Paves before after p.absolute p.steps) : Leaves dir before after [] where
  keeps := h.keeps
  written := nofun
  others loc _ := (h.node? loc).imp_right fun ⟨hnone, hdir, way, hway, hwalk⟩ =>
    ⟨hnone, hdir, p, way, hp, hway, hwalk⟩

end Leaves

/-! ## The output directory -/

theorem ensureDirectory_of_ok (t : Tree) {dir : String} {p : Path}
    (h : Path.ofFolder dir = .ok p) : t.ensureDirectory dir = t.ensurePath p := by
  unfold Path.ofFolder at h
  rw [ensureDirectory]
  split at h
  · rename_i hempty
    obtain rfl := Except.ok.inj h
    rw [if_pos hempty]
    rfl
  · rename_i hempty
    rw [if_neg hempty, h]

theorem ensureDirectory_of_error (t : Tree) {dir : String} {e : OsError}
    (h : Path.ofFolder dir = .error e) : t.ensureDirectory dir = (t, .error e) := by
  unfold Path.ofFolder at h
  rw [ensureDirectory]
  split at h
  · cases h
  · rename_i hempty
    rw [if_neg hempty, h]

theorem leaves_ensureDirectory (t : Tree) (dir : String) :
    Leaves dir t (t.ensureDirectory dir).1 [] := by
  cases hp : Path.ofFolder dir with
  | error e =>
    rw [ensureDirectory_of_error t hp]
    exact .refl dir t
  | ok p =>
    rw [ensureDirectory_of_ok t hp, ensurePath]
    refine .of_paves hp ?_
    have hpaves := (paves_makeDirectories t p.absolute p.ending p.steps.reverse).1
    rwa [List.reverse_reverse] at hpaves

theorem ensureDirectory_again {t after : Tree} {dir : String}
    (h : t.ensureDirectory dir = (after, .ok ())) :
    after.ensureDirectory dir = (after, .ok ()) := by
  cases hp : Path.ofFolder dir with
  | error e => cases (ensureDirectory_of_error t hp).symm.trans h
  | ok p =>
    rw [ensureDirectory_of_ok _ hp, ensurePath] at h ⊢
    have hspec := (paves_makeDirectories t p.absolute p.ending p.steps.reverse).2
    rw [h] at hspec
    rcases hspec rfl with hnil | hdir
    · rw [hnil]
      rfl
    · exact makeDirectories_of_isDirectory hdir

/-- How an output directory that could not be made fails to be made once more. -/
theorem ensureDirectory_error_again {t after : Tree} {dir : String} {cause : OsError}
    (h : t.ensureDirectory dir = (after, .error cause)) :
    ∃ e, after.ensureDirectory dir = (after, .error e) ∧
      (e = cause ∨ cause = .exists ∧ e = .notDirectory ∧ ∃ p, Path.ofFolder dir = .ok p ∧
        t.locate p = .error .notFound ∧ after.locate p = .error .notDirectory) := by
  cases hp : Path.ofFolder dir with
  | error e =>
    obtain ⟨rfl, he⟩ := Prod.mk.inj ((ensureDirectory_of_error t hp).symm.trans h)
    exact ⟨e, ensureDirectory_of_error t hp, .inl (Except.error.inj he)⟩
  | ok p =>
    rw [ensureDirectory_of_ok _ hp, ensurePath] at h
    obtain ⟨e, hagain, hcause⟩ := makeDirectories_again h
    rw [List.reverse_reverse] at hcause
    refine ⟨e, (ensureDirectory_of_ok after hp).trans hagain, hcause.imp_right ?_⟩
    rintro ⟨hexists, hnot, hbefore, hafter⟩
    exact ⟨hexists, hnot, p, rfl, hbefore, hafter⟩

/-! ## Output files -/

theorem leaves_write {t after : Tree} {dir : String} {o : Output}
    (h : t.write (o.path dir) o.bytes = .ok after) : Leaves dir t after [o] := by
  obtain ⟨p, loc, hp, hloc, hend, hnode, rfl⟩ := write_eq_ok_iff.1 h
  have hkeeps : Keeps t (t.put loc (.file o.bytes)) := .put hnode fun _ _ => ⟨_, rfl⟩
  have hput (other : Location) : (t.put loc (.file o.bytes)).node? other =
      if other = loc then some (.file o.bytes) else t.node? other :=
    node?_put t _ (ne_root_of_node? hnode)
  refine ⟨hkeeps, fun o' ho' => ?_, fun other hfree => .inl ?_⟩
  · obtain rfl := List.mem_singleton.1 ho'
    exact open_eq_ok_file_iff.2 ⟨p, loc, hp, hkeeps.locate hloc, hend, by rw [hput, if_pos rfl]⟩
  · rw [hput, if_neg]
    rintro rfl
    exact hfree o (List.mem_singleton_self o) (hkeeps.locates ⟨p, hp, hloc⟩)

/-- The directory of a location is there, and need not be made. -/
theorem Locates.ensureDirectory {t : Tree} {dir : String} {o : Output} {loc : Location}
    (h : t.Locates (o.path dir) loc) : t.ensureDirectory dir = (t, .ok ()) := by
  obtain ⟨p, folder, hp, hfolder, hdir, -⟩ := h.exists_folder
  rw [ensureDirectory_of_ok t hp, ensurePath]
  refine makeDirectories_of_isDirectory (isDirectory_iff.2 ⟨folder, ?_, hdir⟩)
  rw [List.reverse_reverse]
  exact hfolder

/-- A file that holds the text is written without a change, in a directory that is there. -/
theorem write_again {t : Tree} {dir : String} {o : Output}
    (h : t.open (o.path dir) = .ok (.file o.bytes)) :
    t.ensureDirectory dir = (t, .ok ()) ∧ t.write (o.path dir) o.bytes = .ok t := by
  obtain ⟨p, loc, hp, hloc, hend, hnode⟩ := open_eq_ok_file_iff.1 h
  have hne : t.node? loc ≠ some .directory := by rw [hnode]; exact nofun
  exact ⟨Locates.ensureDirectory ⟨p, hp, hloc⟩, write_eq_ok_iff.2 ⟨p, loc, hp, hloc, hend, hne,
    (put_of_node? (ne_root_of_node? hne) hnode).symm⟩⟩

theorem saved_of_open {t : Tree} {dir : String} {o : Output}
    (h : t.open (o.path dir) = .ok (.file o.bytes)) : t.saved dir o = t := by
  obtain ⟨hmake, hwrite⟩ := write_again h
  simp only [saved, hmake, hwrite, Except.toOption, Option.getD_some]

/-- A file that was saved, as far as it could be, is not saved any further. -/
theorem saved_saved (t : Tree) (dir : String) (o : Output) :
    (t.saved dir o).saved dir o = t.saved dir o := by
  cases hmake : t.ensureDirectory dir with
  | mk tree result =>
    cases result with
    | error cause =>
      obtain ⟨e, hagain, -⟩ := ensureDirectory_error_again hmake
      simp only [saved, hmake, hagain]
    | ok =>
      have hagain := ensureDirectory_again hmake
      cases hwrite : tree.write (o.path dir) o.bytes with
      | error cause =>
        simp only [saved, hmake, hwrite, hagain, Except.toOption, Option.getD_none]
      | ok after =>
        have hsaved : t.saved dir o = after := by
          simp only [saved, hmake, hwrite, Except.toOption, Option.getD_some]
        rw [hsaved]
        exact saved_of_open ((leaves_write hwrite).written o (List.mem_singleton_self o))

end Tree

end SweepCharts
