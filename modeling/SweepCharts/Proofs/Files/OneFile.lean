import SweepCharts.Proofs.Files.Outputs

set_option autoImplicit false

/-! # Trees that differ in one file

An output file is in the way of no other output: the others are in the same directory under other
names, and no path to a directory leads through a file. So what is written beside it is written
alike, whether the file is there or not.

* `ApartFrom.write`: another file is written in both trees with the same result.
* `apartFrom_of_write`: a tree before and after a file was written.
-/

namespace SweepCharts.Tree

/-- The location that an output file leads to is the only one where the trees differ. -/
structure ApartFrom (dir : String) (o : Output) (loc : Location) (t u : Tree) : Prop where
  start : u.start = t.start
  others : ∀ other, other ≠ loc → u.node? other = t.node? other
  noDirectory : t.node? loc ≠ some .directory ∧ u.node? loc ≠ some .directory
  located : t.Locates (o.path dir) loc ∧ u.Locates (o.path dir) loc

/-- Another output in the directory that one output leads to. -/
theorem Locates.sibling {t : Tree} {dir : String} {o page : Output} {loc : Location}
    (h : t.Locates (o.path dir) loc) {q : Path} (hq : Path.ofText (page.path dir) = .ok q) :
    t.locate q = .ok (loc.dropLast ++ [page.kind.name]) ∧ q.ending = .name := by
  have hname : page.kind.name.utf8ByteSize ≤ 255 :=
    (by decide : ∀ kind ∈ OutputKind.all, kind.name.utf8ByteSize ≤ 255) _ page.kind.mem_all
  obtain ⟨p, folder, hp, hfolder, hdir, rfl⟩ := h.exists_folder
  obtain ⟨p', hp', rfl⟩ := Path.ofText_join page.kind.isFileName hq
  obtain rfl : p = p' := Except.ok.inj (hp.symm.trans hp')
  refine ⟨?_, rfl⟩
  rw [locate_eq, walk_append]
  change (t.locate p).bind _ = _
  rw [hfolder, List.dropLast_concat]
  exact walk_down hdir hname []

theorem write_of_locate {t : Tree} {path : String} {content : List UInt8} {q : Path}
    {loc : Location} (hq : Path.ofText path = .ok q) (hloc : t.locate q = .ok loc)
    (hend : q.ending = .name) :
    t.write path content =
      if t.node? loc = some .directory then .error .isDirectory
      else .ok (t.put loc (.file content)) := by
  unfold write
  simp only [hq, hloc, hend, bind, Except.bind]
  split <;> simp_all

namespace ApartFrom

variable {dir : String} {o page : Output} {loc : Location} {t u : Tree}

/-- Both trees get a file at another location. -/
theorem put (h : ApartFrom dir o loc t u) {other : Location} (hother : other ≠ loc)
    (hnode : t.node? other ≠ some .directory) (content : List UInt8) :
    ApartFrom dir o loc (t.put other (.file content)) (u.put other (.file content)) := by
  have hroot := ne_root_of_node? hnode
  have hkept (v : Tree) : (v.put other (.file content)).node? loc = v.node? loc := by
    rw [node?_put v _ hroot, if_neg (Ne.symm hother)]
  have hkeeps : Keeps t (t.put other (.file content)) := .put hnode fun _ _ => ⟨_, rfl⟩
  have hkeeps' : Keeps u (u.put other (.file content)) :=
    .put (h.others other hother ▸ hnode) fun _ _ => ⟨_, rfl⟩
  refine ⟨h.start, fun l hl => ?_, ?_, hkeeps.locates h.located.1, hkeeps'.locates h.located.2⟩
  · rw [node?_put t _ hroot, node?_put u _ hroot, h.others l hl]
  · rw [hkept, hkept]
    exact h.noDirectory

/-- **Another file** is written in both trees, or in neither for the same reason. -/
theorem write (h : ApartFrom dir o loc t u) (hkind : page.kind ≠ o.kind) :
    (∃ cause, t.write (page.path dir) page.bytes = .error cause ∧
      u.write (page.path dir) page.bytes = .error cause) ∨
    ∃ t' u', t.write (page.path dir) page.bytes = .ok t' ∧
      u.write (page.path dir) page.bytes = .ok u' ∧ ApartFrom dir o loc t' u' := by
  cases hq : Path.ofText (page.path dir) with
  | error cause => exact .inl ⟨cause, by rw [Tree.write, hq]; rfl, by rw [Tree.write, hq]; rfl⟩
  | ok q =>
    obtain ⟨ht, hend⟩ := h.located.1.sibling hq
    obtain ⟨hu, -⟩ := h.located.2.sibling hq
    obtain ⟨p, folder, -, -, -, hloc⟩ := h.located.1.exists_folder
    have hother : loc.dropLast ++ [page.kind.name] ≠ loc := by
      intro heq
      rw [hloc, List.dropLast_concat] at heq
      exact hkind (OutputKind.eq_of_name_eq (List.singleton_inj.1 (List.append_cancel_left heq)))
    rw [write_of_locate hq ht hend, write_of_locate hq hu hend, h.others _ hother]
    by_cases hnode : t.node? (loc.dropLast ++ [page.kind.name]) = some .directory
    · rw [if_pos hnode, if_pos hnode]
      exact .inl ⟨_, rfl, rfl⟩
    · rw [if_neg hnode, if_neg hnode]
      exact .inr ⟨_, _, rfl, rfl, h.put hother hnode page.bytes⟩

end ApartFrom

/-- A tree before and after a file was written. -/
theorem apartFrom_of_write {dir : String} {o : Output} {t u : Tree}
    (h : t.write (o.path dir) o.bytes = .ok u) : ∃ loc, ApartFrom dir o loc t u := by
  have hkeeps := (leaves_write h).keeps
  obtain ⟨p, loc, hp, hloc, -, hnode, rfl⟩ := write_eq_ok_iff.1 h
  have hput (other : Location) : (t.put loc (.file o.bytes)).node? other =
      if other = loc then some (.file o.bytes) else t.node? other :=
    node?_put t _ (ne_root_of_node? hnode)
  refine ⟨loc, rfl, fun other hother => ?_, ⟨hnode, ?_⟩, ⟨p, hp, hloc⟩,
    hkeeps.locates ⟨p, hp, hloc⟩⟩
  · rw [hput, if_neg hother]
  · rw [hput, if_pos rfl]
    exact nofun

end SweepCharts.Tree
