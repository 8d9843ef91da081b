import Mathlib.Data.List.Induction
import SweepCharts.Files.Discovery
import SweepCharts.Proofs.Files.Outputs

set_option autoImplicit false

/-! # Finding tables beside output files

Output files do not have the extension of tables, and a new directory is no table, so a run finds
the same tables in the tree that it leaves.

* `Leaves.open_eq`: a path that led to a file leads to the same text, unless it is an output.
* `Leaves.discover_eq`: the same tables are found.
* `not_sameFile_of_discover`: a table that is found is no output.
-/

namespace SweepCharts

/-! ## Extensions -/

/-- What the name of a table ends in. -/
def tableEnding : List Char := '.' :: tableExtension.toList

/-- **The extension of a name** stands after its last dot, which something stands before. -/
theorem extension?_eq_some_iff {name ext : String} (hext : '.' ∉ ext.toList) :
    Path.extension? name = some ext ↔
      ∃ stem, stem ≠ [] ∧ name.toList = stem ++ '.' :: ext.toList := by
  unfold Path.extension?
  dsimp only
  constructor
  · intro h
    have hsplit := List.takeWhile_append_dropWhile (p := (· ≠ '.')) (l := name.toList.reverse)
    split at h
    · rename_i c rest hrest
      have hafter : (name.toList.reverse.takeWhile (· ≠ '.')).reverse = ext.toList := by
        rw [← Option.some.inj h, String.toList_ofList]
      rw [hrest] at hsplit
      have hname := congrArg List.reverse hsplit
      rw [List.reverse_reverse, List.reverse_append, hafter, List.reverse_cons,
        List.append_assoc] at hname
      exact ⟨(c :: rest).reverse, by simp, hname.symm⟩
    · cases h
  · rintro ⟨stem, hstem, hname⟩
    have hreverse : name.toList.reverse = ext.toList.reverse ++ '.' :: stem.reverse := by
      rw [hname, List.reverse_append, List.reverse_cons, List.append_assoc]
      rfl
    have hnodot : ∀ c ∈ ext.toList.reverse, decide (c ≠ '.') = true := by
      intro c hc
      refine decide_eq_true ?_
      rintro rfl
      exact hext (List.mem_reverse.1 hc)
    obtain ⟨c, rest, hrest⟩ := List.exists_cons_of_ne_nil (mt List.reverse_eq_nil_iff.1 hstem)
    have htake : ('.' :: stem.reverse).takeWhile (· ≠ '.') = [] := rfl
    have hdrop : ('.' :: stem.reverse).dropWhile (· ≠ '.') = '.' :: stem.reverse := rfl
    rw [hreverse, List.takeWhile_append_of_pos hnodot, List.dropWhile_append_of_pos hnodot, htake,
      hdrop, hrest, List.append_nil, List.reverse_reverse, String.ofList_toList]
    rfl

theorem suffix_of_extension? {name : String} (h : Path.extension? name = some tableExtension) :
    tableEnding <:+ name.toList := by
  obtain ⟨stem, -, hname⟩ := (extension?_eq_some_iff (by decide)).1 h
  exact ⟨stem, hname.symm⟩

namespace Path

/-- An end without a slash is the end of the last segment. -/
theorem exists_segments_append {ending : List Char} (h : '/' ∉ ending) (text : List Char) :
    ∃ front last, segments (text ++ ending) = front ++ [last ++ ending] := by
  induction text with
  | nil => exact ⟨[], [], segments_of_not_mem h⟩
  | cons c rest ih =>
    obtain ⟨front, last, hrest⟩ := ih
    by_cases hc : c = '/'
    · refine ⟨[] :: front, last, ?_⟩
      rw [hc, List.cons_append, segments_slash, hrest, List.cons_append]
    · cases front with
      | nil => exact ⟨[], c :: last, segments_cons hc hrest⟩
      | cons first others => exact ⟨(c :: first) :: others, last, segments_cons hc hrest⟩

/-- A path text that ends as tables do has a last step that does. -/
theorem exists_steps_of_suffix {text : String} (h : tableEnding <:+ text.toList) {p : Path}
    (hp : ofText text = .ok p) :
    ∃ steps name, p.steps = steps ++ [.down name] ∧ tableEnding <:+ name.toList := by
  obtain ⟨stem, hstem⟩ := h
  obtain ⟨-, -, -, rfl⟩ := ofText_eq_ok_iff.1 hp
  obtain ⟨front, last, hsegments⟩ := exists_segments_append (by decide : '/' ∉ tableEnding) stem
  have hlong : 4 ≤ (last ++ tableEnding).length := by
    rw [List.length_append]
    exact Nat.le_add_left 4 _
  have hlast :
      step? (last ++ tableEnding) = some (.down (String.ofList (last ++ tableEnding))) := by
    have hne (short : List Char) (hshort : short.length < 4) : last ++ tableEnding ≠ short :=
      fun heq => Nat.not_lt.2 hlong (heq ▸ hshort)
    rw [step?, if_neg (not_or.2 ⟨hne [] (by decide), hne ['.'] (by decide)⟩),
      if_neg (hne ['.', '.'] (by decide))]
  refine ⟨front.filterMap step?, String.ofList (last ++ tableEnding), ?_, ?_⟩
  · rw [ofChars, ← hstem, hsegments, List.filterMap_append]
    simp [hlast]
  · rw [String.toList_ofList]
    exact List.suffix_append _ _

end Path

namespace Tree

/-! ## Outputs -/

/-- No output is named like a table. -/
theorem not_suffix_of_output (kind : OutputKind) : ¬ tableEnding <:+ kind.name.toList :=
  (by decide : ∀ kind ∈ OutputKind.all, ¬ tableEnding <:+ kind.name.toList) kind kind.mem_all

/-- A path is read from a file that another path leads to as well. -/
def SameFile (t : Tree) (path other : String) : Prop :=
  (∃ content, t.open path = .ok (.file content)) ∧ ∃ loc, t.Locates path loc ∧ t.Locates other loc

section
variable {dir : String} {before after : Tree} {outputs : List Output}
  (h : Leaves dir before after outputs)
include h

/-- What a path led to is still there, unless it was written anew. -/
theorem Leaves.open_eq {path : String} {node : Node} (hopen : before.open path = .ok node)
    (hfree : ∀ o ∈ outputs, ¬ after.SameFile path (o.path dir)) : after.open path = .ok node := by
  cases node with
  | directory =>
    obtain ⟨p, loc, hp, hloc, hnode⟩ := open_eq_ok_directory_iff.1 hopen
    exact open_eq_ok_directory_iff.2
      ⟨p, loc, hp, h.keeps.locate hloc, h.keeps.directory loc hnode⟩
  | file content =>
    obtain ⟨p, loc, hp, hloc, hend, hnode⟩ := open_eq_ok_file_iff.1 hopen
    have hafter := h.keeps.locate hloc
    have hother : ∀ o ∈ outputs, ¬ after.Locates (o.path dir) loc := by
      intro o ho hlocates
      obtain ⟨written, hfile⟩ := h.keeps.file loc content hnode
      exact hfree o ho ⟨⟨written, open_eq_ok_file_iff.2 ⟨p, loc, hp, hafter, hend, hfile⟩⟩,
        loc, ⟨p, hp, hafter⟩, hlocates⟩
    rcases h.others loc hother with hsame | ⟨hnone, -⟩
    · exact open_eq_ok_file_iff.2 ⟨p, loc, hp, hafter, hend, hsame.trans hnode⟩
    · cases hnone.symm.trans hnode

/-- A path that leads somewhere only now led to nothing before. -/
theorem Leaves.open_eq_error {path : String} {node : Node} {e : OsError}
    (hafter : after.open path = .ok node) (hbefore : before.open path = .error e) :
    e = .notFound := by
  have hpath : ∃ p loc, Path.ofText path = .ok p ∧ after.locate p = .ok loc ∧
      (p.ending = .name ∨ after.node? loc = some .directory) := by
    cases node with
    | directory =>
      obtain ⟨p, loc, hp, hloc, hnode⟩ := open_eq_ok_directory_iff.1 hafter
      exact ⟨p, loc, hp, hloc, .inr hnode⟩
    | file content =>
      obtain ⟨p, loc, hp, hloc, hend, -⟩ := open_eq_ok_file_iff.1 hafter
      exact ⟨p, loc, hp, hloc, .inl hend⟩
  obtain ⟨p, loc, hp, hloc, hfound⟩ := hpath
  rw [Tree.open, hp] at hbefore
  change before.find p = .error e at hbefore
  cases hlocate : before.locate p with
  | error x =>
    obtain rfl : x = e := Except.error.inj ((find_of_locate_error hlocate).symm.trans hbefore)
    rw [locate_eq, h.keeps.origin] at hloc
    exact h.keeps.walk_eq_error hloc hlocate
  | ok other =>
    obtain rfl : other = loc := Except.ok.inj ((h.keeps.locate hlocate).symm.trans hloc)
    cases hnode : before.node? other with
    | none => exact (Except.error.inj ((find_of_none hlocate hnode).symm.trans hbefore)).symm
    | some node =>
      cases node with
      | directory => cases (find_of_directory hlocate hnode).symm.trans hbefore
      | file content =>
        obtain ⟨content, hfile⟩ := h.keeps.file other content hnode
        rcases hfound with hend | hdir
        · have hfind := find_of_file hlocate hnode
          rw [if_pos hend] at hfind
          cases hfind.symm.trans hbefore
        · cases hdir.symm.trans hfile

end

/-! ## The names in a directory -/

theorem lookup_eq_none_iff {loc : Location} {nodes : List (Location × Node)} :
    lookup loc nodes = none ↔ loc ∉ nodes.map Prod.fst := by
  induction nodes with
  | nil => simp [lookup]
  | cons entry rest ih =>
    obtain ⟨other, node⟩ := entry
    rw [lookup]
    by_cases heq : loc = other
    · simp [heq]
    · simp [heq, ih]

theorem eq_append_of_dropLast {entry loc : Location} {name : String} :
    entry.dropLast = loc ∧ entry.getLast? = some name ↔ entry = loc ++ [name] := by
  constructor
  · rintro ⟨rfl, hlast⟩
    obtain ⟨front, rfl⟩ := List.getLast?_eq_some_iff.1 hlast
    rw [List.dropLast_concat]
  · rintro rfl
    exact ⟨List.dropLast_concat, List.getLast?_concat⟩

theorem mem_names {t : Tree} {loc : Location} {name : String} :
    name ∈ t.names loc ↔ t.node? (loc ++ [name]) ≠ none := by
  have hne : loc ++ [name] ≠ [] := List.append_ne_nil_of_right_ne_nil _ (List.cons_ne_nil _ _)
  rw [node?, if_neg hne, ne_eq, lookup_eq_none_iff, not_not, names, List.mem_filterMap,
    List.mem_map]
  refine exists_congr fun entry => and_congr_right fun _ => ?_
  rw [Option.ite_none_right_eq_some, eq_append_of_dropLast]

theorem nodup_names (t : Tree) (loc : Location) : (t.names loc).Nodup := by
  have hdistinct : t.nodes.Pairwise fun a b => a.1 ≠ b.1 := List.pairwise_map.1 t.distinct
  refine hdistinct.filterMap _ ?_
  rintro a b hne name ha _ hb rfl
  rw [Option.ite_none_right_eq_some, eq_append_of_dropLast] at ha hb
  exact hne (ha.trans hb.symm)

/-! ## The tables in a directory -/

theorem isTable_iff {t : Tree} {dir : String} {loc : Location} {name : String} :
    t.isTable dir loc name = true ↔ (∃ content, t.node? (loc ++ [name]) = some (.file content)) ∧
      Path.extension? name = some tableExtension ∧
      (Path.join dir name).utf8ByteSize ≤ Path.maxBytes := by
  rw [isTable]
  split
  · rename_i content hnode
    simp [hnode]
  · rename_i hnode
    simp only [Bool.false_eq_true, false_iff, not_and]
    rintro ⟨content, hfile⟩
    exact absurd hfile (hnode content)

theorem mem_tableNames {t : Tree} {dir : String} {loc : Location} {name : String} :
    name ∈ t.tableNames dir loc ↔ t.isTable dir loc name = true := by
  rw [tableNames, List.mem_mergeSort, List.mem_filter, mem_names, and_iff_right_iff_imp]
  intro htable
  obtain ⟨⟨content, hnode⟩, -⟩ := isTable_iff.1 htable
  rw [hnode]
  exact nofun

theorem pairwise_le_tableNames (t : Tree) (dir : String) (loc : Location) :
    (t.tableNames dir loc).Pairwise (· ≤ ·) := by
  refine (List.pairwise_mergeSort (fun a b c hab hbc => ?_) (fun a b => ?_) _).imp of_decide_eq_true
  · exact decide_eq_true (String.le_trans (of_decide_eq_true hab) (of_decide_eq_true hbc))
  · rw [Bool.or_eq_true, decide_eq_true_iff, decide_eq_true_iff]
    exact String.le_total a b

theorem nodup_tableNames (t : Tree) (dir : String) (loc : Location) :
    (t.tableNames dir loc).Nodup :=
  (List.mergeSort_perm _ _).nodup_iff.2 ((nodup_names t loc).filter _)

/-- The same tables are in a directory of both trees. -/
theorem tableNames_congr {t u : Tree} {dir : String} {loc : Location}
    (h : ∀ name, t.isTable dir loc name = u.isTable dir loc name) :
    t.tableNames dir loc = u.tableNames dir loc := by
  refine List.Perm.eq_of_pairwise (fun a b _ _ hab hba => String.le_antisymm hab hba)
    (pairwise_le_tableNames t dir loc) (pairwise_le_tableNames u dir loc) ?_
  refine (List.perm_ext_iff_of_nodup (nodup_tableNames t dir loc)
    (nodup_tableNames u dir loc)).2 fun name => ?_
  rw [mem_tableNames, mem_tableNames, h]

theorem discover_of_directory {t : Tree} {data : String} {p : Path} {loc : Location}
    (hp : Path.ofText data = .ok p) (hloc : t.locate p = .ok loc)
    (hdir : t.node? loc = some .directory) :
    t.discover data = (t.tableNames data loc).map (Path.join data) := by
  simp only [discover, hp, find_of_directory hloc hdir, hloc]

/-- Tables are found in a directory only. -/
theorem exists_directory_of_discover {t : Tree} {data : String} (h : t.discover data ≠ []) :
    ∃ p loc, Path.ofText data = .ok p ∧ t.locate p = .ok loc ∧ t.node? loc = some .directory := by
  cases hp : Path.ofText data with
  | error e => simp [discover, hp] at h
  | ok p =>
    cases hdir : t.isDirectory p with
    | true =>
      obtain ⟨loc, hloc, hnode⟩ := isDirectory_iff.1 hdir
      exact ⟨p, loc, rfl, hloc, hnode⟩
    | false =>
      refine absurd ?_ h
      simp only [discover, hp]
      split
      · rename_i hfind hloc
        rw [isDirectory, hfind] at hdir
        cases hdir
      · rfl

section
variable {dir : String} {before after : Tree} {outputs : List Output}
  (h : Leaves dir before after outputs)
include h

/-- What has the name of a table is no output, so it is as before or a new directory. -/
theorem Leaves.isTable_eq (data : String) (loc : Location) (name : String) :
    before.isTable data loc name = after.isTable data loc name := by
  rw [Bool.eq_iff_iff, isTable_iff, isTable_iff]
  refine and_congr_left fun ⟨hextension, _⟩ => ?_
  have hfree : ∀ o ∈ outputs, ¬ after.Locates (o.path dir) (loc ++ [name]) := by
    intro o ho hlocates
    obtain ⟨-, folder, -, -, -, heq⟩ := hlocates.exists_folder
    obtain rfl : name = o.kind.name := List.singleton_inj.1 (List.append_inj' heq rfl).2
    exact not_suffix_of_output o.kind (suffix_of_extension? hextension)
  rcases h.others _ hfree with hsame | ⟨hnone, hdir, -⟩
  · rw [hsame]
  · simp [hnone, hdir]

/-- A run finds the tables that it found before. -/
theorem Leaves.discover_eq {data : String} (hfound : before.discover data ≠ []) :
    after.discover data = before.discover data := by
  obtain ⟨p, loc, hp, hloc, hdir⟩ := exists_directory_of_discover hfound
  rw [discover_of_directory hp hloc hdir,
    discover_of_directory hp (h.keeps.locate hloc) (h.keeps.directory loc hdir),
    tableNames_congr (h.isTable_eq data loc)]

end

/-- A path text that ends as tables do leads to no output. -/
theorem not_sameFile_of_suffix {t : Tree} {path dir : String} {o : Output}
    (h : tableEnding <:+ path.toList) : ¬ t.SameFile path (o.path dir) := by
  rintro ⟨-, loc, ⟨p, hp, hloc⟩, hlocates⟩
  obtain ⟨steps, last, hsteps, hlast⟩ := Path.exists_steps_of_suffix h hp
  rw [locate_eq, hsteps] at hloc
  obtain ⟨parent, -, -, rfl⟩ := walk_snoc_down hloc
  obtain ⟨-, folder, -, -, -, heq⟩ := hlocates.exists_folder
  obtain rfl : last = o.kind.name := List.singleton_inj.1 (List.append_inj' heq rfl).2
  exact not_suffix_of_output o.kind hlast

/-- A table that is found is no output. -/
theorem not_sameFile_of_discover {t u : Tree} {data path dir : String} {o : Output}
    (hfound : path ∈ t.discover data) : ¬ u.SameFile path (o.path dir) := by
  obtain ⟨p, loc, hp, hloc, hdir⟩ := exists_directory_of_discover (List.ne_nil_of_mem hfound)
  rw [discover_of_directory hp hloc hdir] at hfound
  obtain ⟨name, hmem, rfl⟩ := List.mem_map.1 hfound
  have htable := (List.mem_filter.1 (List.mem_mergeSort.1 hmem)).2
  refine not_sameFile_of_suffix
    ((suffix_of_extension? (isTable_iff.1 htable).2.1).trans ?_)
  unfold Path.join
  split
  · rw [String.toList_append]
    exact List.suffix_append _ _
  · rw [String.toList_append]
    exact List.suffix_append _ _

end Tree

end SweepCharts
