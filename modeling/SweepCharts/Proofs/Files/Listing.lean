import Mathlib.Data.List.Lex
import Mathlib.Data.List.Nodup
import Mathlib.Data.String.Basic
import SweepCharts.Proofs.Files.Discovery
import SweepCharts.Proofs.Run.Actions
import SweepCharts.Run.Plot

set_option autoImplicit false

/-! # The tables that are found

The tables of a directory are the files directly in it with the extension `csv`, each once, in the
order of their paths. Nothing depends on the order in which the directory lists its names. A file
whose path text is too long to be opened is passed over.

* `Path.Below`: the order of paths, step by step.
* `Tree.discover_of_perm`: the order of a listing is of no account.
* `Tree.discover_lists_tables`: **the tables that are found**, and what a run makes of them.
* `Tree.not_every_table_found`: a table whose path text is too long.
-/

namespace SweepCharts

/-! ## The order of paths -/

/-- The order of steps: a step up comes before all names. -/
inductive Step.Below : Step → Step → Prop
  | up (name : String) : Below .up (.down name)
  | down {name other : String} (h : name < other) : Below (.down name) (.down other)

/-- The order of path texts, step by step from the front. -/
def Path.Below (path other : String) : Prop :=
  List.Lex Step.Below (Path.ofChars path.toList).steps (Path.ofChars other.toList).steps

theorem Path.below_join {dir name other : String} (hdir : dir ≠ "") (hname : IsFileName name)
    (hother : IsFileName other) (h : name < other) : Below (join dir name) (join dir other) := by
  unfold Below
  rw [ofChars_join hdir hname, ofChars_join hdir hother]
  exact List.Lex.append_left _ (.rel (.down h)) _

theorem Path.join_injective (dir : String) : Function.Injective (Path.join dir) := by
  intro a b h
  unfold Path.join at h
  split at h <;> exact String.append_right_inj _ |>.1 h

namespace Tree

/-! ## Listings -/

theorem lookup_eq_some_iff {loc : Location} {node : Node} {nodes : List (Location × Node)}
    (h : (nodes.map Prod.fst).Nodup) : lookup loc nodes = some node ↔ (loc, node) ∈ nodes := by
  induction nodes with
  | nil => exact iff_of_false nofun List.not_mem_nil
  | cons entry rest ih =>
    obtain ⟨other, old⟩ := entry
    obtain ⟨hnot, hrest⟩ := List.nodup_cons.1 h
    rw [lookup, List.mem_cons]
    split
    · rename_i heq
      subst heq
      constructor
      · rintro ⟨⟩
        exact .inl rfl
      · rintro (heq | hmem)
        · rw [(Prod.mk.inj heq).2]
        · exact absurd (List.mem_map_of_mem (f := Prod.fst) hmem) hnot
    · rename_i hne
      rw [ih hrest, or_iff_right fun heq => hne (Prod.mk.inj heq).1]

section
variable {t u : Tree}

/-- The order in which a tree holds its nodes is of no account. -/
theorem node?_of_perm (h : u.nodes.Perm t.nodes) (loc : Location) : u.node? loc = t.node? loc := by
  unfold node?
  split
  · rfl
  · refine Option.ext fun node => ?_
    rw [lookup_eq_some_iff u.distinct, lookup_eq_some_iff t.distinct, h.mem_iff]

theorem walk_of_node? (h : ∀ loc, u.node? loc = t.node? loc) (loc : Location) (steps : List Step) :
    u.walk loc steps = t.walk loc steps := by
  induction steps generalizing loc with
  | nil => rfl
  | cons step rest ih =>
    rw [walk.eq_def, walk.eq_def t]
    simp only [h, ih]

theorem discover_of_perm (hstart : u.start = t.start) (h : u.nodes.Perm t.nodes) (dir : String) :
    u.discover dir = t.discover dir := by
  have hnode := node?_of_perm h
  have hlocate (p : Path) : u.locate p = t.locate p := by
    rw [locate, locate, hstart, walk_of_node? hnode]
  have hfind (p : Path) : u.find p = t.find p := by
    unfold find
    simp only [hlocate, hnode]
  have htables (loc : Location) : u.tableNames dir loc = t.tableNames dir loc :=
    tableNames_congr fun name => by rw [isTable, isTable, hnode]
  unfold discover
  simp only [hfind, hlocate, htables]

end

/-! ## The tables in a directory -/

variable {t : Tree} {dir : String} {loc : Location}

/-- A file directly in a directory whose name ends in the extension of tables, with something before
the dot. -/
def IsTableFile (t : Tree) (loc : Location) (name : String) : Prop :=
  (∃ content, t.node? (loc ++ [name]) = some (.file content)) ∧
    ∃ stem, stem ≠ [] ∧ name.toList = stem ++ tableEnding

theorem mem_tableNames_iff {name : String} : name ∈ t.tableNames dir loc ↔
    t.IsTableFile loc name ∧ (Path.join dir name).utf8ByteSize ≤ Path.maxBytes := by
  rw [mem_tableNames, isTable_iff, extension?_eq_some_iff (by decide), ← and_assoc]
  rfl

theorem pairwise_lt_tableNames (t : Tree) (dir : String) (loc : Location) :
    (t.tableNames dir loc).Pairwise (· < ·) :=
  ((pairwise_le_tableNames t dir loc).and (nodup_tableNames t dir loc)).imp fun h =>
    lt_of_le_of_ne h.1 h.2

theorem mem_discover_iff {p : Path} (hp : Path.ofText dir = .ok p) (hloc : t.locate p = .ok loc)
    (hdir : t.node? loc = some .directory) {path : String} : path ∈ t.discover dir ↔
      ∃ name, t.IsTableFile loc name ∧ (Path.join dir name).utf8ByteSize ≤ Path.maxBytes ∧
        path = Path.join dir name := by
  rw [discover_of_directory hp hloc hdir, List.mem_map]
  simp only [mem_tableNames_iff, and_assoc, @eq_comm _ path]

theorem discover_eq_nil (h : t.open dir ≠ .ok .directory) : t.discover dir = [] := by
  by_contra hne
  exact h (open_eq_ok_directory_iff.2 (exists_directory_of_discover hne))

/-! ## The files of a run -/

theorem exec_resolve_given {files : List String} (h : files ≠ []) (dir : String) (w : Workspace) :
    (Run.resolve files dir).exec w = (.ok files, w) := by
  have hempty : files.isEmpty = false := by simpa using h
  unfold Run.resolve
  simp only [hempty, Bool.not_false, if_true, Job.exec_pure]

theorem exec_resolve_found (dir : String) (w : Workspace) :
    ((Run.resolve [] dir).exec w).1 =
      if w.tree.discover dir = [] then .error (.noInputFiles dir)
      else .ok (w.tree.discover dir) := by
  unfold Run.resolve
  simp only [List.isEmpty_nil, Bool.not_true, Bool.false_eq_true, if_false, Job.exec_bind,
    Job.exec_get]
  cases w.tree.discover dir <;> rfl

/-- **The tables that are found** in a directory are the files directly in it with the extension
`csv`, as far as their path texts are not too long: each once, and in the order of their paths. What
is no directory has none, and the order of a listing is of no account. A run that is given files
takes them as they are, whatever there is; else it takes the tables, and fails exactly if there are
none. -/
theorem discover_lists_tables (t : Tree) (dir : String) :
    (∀ p loc, Path.ofText dir = .ok p → t.locate p = .ok loc → t.node? loc = some .directory →
      (∀ path, path ∈ t.discover dir ↔ ∃ name, t.IsTableFile loc name ∧
        (Path.join dir name).utf8ByteSize ≤ Path.maxBytes ∧ path = Path.join dir name) ∧
      (t.discover dir).Nodup ∧
      (∃ names : List String, t.discover dir = names.map (Path.join dir) ∧ names.Pairwise (· < ·)) ∧
      ((∀ name ∈ t.names loc, Path.IsFileName name) → (t.discover dir).Pairwise Path.Below)) ∧
    (t.open dir ≠ .ok .directory → t.discover dir = []) ∧
    (∀ u : Tree, u.start = t.start → u.nodes.Perm t.nodes → u.discover dir = t.discover dir) ∧
    (∀ (files : List String) (w : Workspace), files ≠ [] →
      (Run.resolve files dir).exec w = (.ok files, w)) ∧
    ∀ w : Workspace, w.tree = t →
      (((Run.resolve [] dir).exec w).1 = .error (.noInputFiles dir) ↔ t.discover dir = []) ∧
      (t.discover dir ≠ [] → ((Run.resolve [] dir).exec w).1 = .ok (t.discover dir)) := by
  refine ⟨fun p loc hp hloc hdir => ?_, discover_eq_nil,
    fun u hstart hperm => discover_of_perm hstart hperm dir,
    fun files w hfiles => exec_resolve_given hfiles dir w, ?_⟩
  · have hnames := discover_of_directory hp hloc hdir
    refine ⟨fun path => mem_discover_iff hp hloc hdir, ?_,
      ⟨_, hnames, pairwise_lt_tableNames t dir loc⟩, fun hvalid => ?_⟩
    · rw [hnames]
      exact List.Nodup.map (Path.join_injective dir) (nodup_tableNames t dir loc)
    · obtain ⟨-, hne, -⟩ := Path.ofText_eq_ok_iff.1 hp
      have hname : ∀ name ∈ t.tableNames dir loc, Path.IsFileName name := by
        intro name hmem
        refine hvalid name (mem_names.2 ?_)
        obtain ⟨⟨⟨content, hnode⟩, -⟩, -⟩ := mem_tableNames_iff.1 hmem
        rw [hnode]
        exact nofun
      rw [hnames, List.pairwise_map]
      exact (pairwise_lt_tableNames t dir loc).imp_of_mem fun ha hb hlt =>
        Path.below_join hne (hname _ ha) (hname _ hb) hlt
  · rintro w rfl
    rw [exec_resolve_found]
    split
    · rename_i hnone
      exact ⟨iff_of_true rfl hnone, fun hne => absurd hnone hne⟩
    · rename_i hsome
      exact ⟨iff_of_false nofun hsome, fun _ => rfl⟩

/-- Of six entries two are tables: a directory, a name without a stem, a capital extension and
another extension are not. -/
theorem discover_lists_tables_mixed :
    let nodes : List (Location × Node) := [(["d"], .directory), (["d", "b.csv"], .file []),
      (["d", "dir.csv"], .directory), (["d", ".csv"], .file []), (["d", "c.CSV"], .file []),
      (["d", "a.x.csv"], .file []), (["d", "b.csv.txt"], .file [])]
    let t : Tree := ⟨nodes, [], by decide⟩
    let u : Tree := ⟨nodes.reverse, [], by decide⟩
    (t.discover "./d/").Pairwise Path.Below ∧ "./d/a.x.csv" ∈ t.discover "./d/" ∧
      "./d/.csv" ∉ t.discover "./d/" ∧ t.discover "none" = [] ∧
      u.discover "./d/" = t.discover "./d/" ∧
      (Run.resolve ["x"] "none").exec ⟨t, []⟩ = (.ok ["x"], ⟨t, []⟩) ∧
      ((Run.resolve [] "none").exec ⟨t, []⟩).1 = .error (.noInputFiles "none") := by
  intro nodes t u
  have hnone : t.open "none" ≠ .ok .directory := by decide +kernel
  obtain ⟨hfound, -, hperm, -⟩ := discover_lists_tables t "./d/"
  obtain ⟨-, hnot, -, hgiven, hrun⟩ := discover_lists_tables t "none"
  obtain ⟨hmem, -, -, hsorted⟩ := hfound (Path.ofChars "./d/".toList) ["d"] (by decide +kernel)
    (by decide +kernel) (by decide +kernel)
  refine ⟨hsorted (by decide +kernel), (hmem _).2 ⟨"a.x.csv", ⟨⟨[], by decide +kernel⟩,
    "a.x".toList, by decide, by decide⟩, by decide +kernel, by decide +kernel⟩, fun hcsv => ?_,
    hnot hnone, hperm u rfl (List.reverse_perm nodes), hgiven ["x"] _ (List.cons_ne_nil _ _),
    (hrun ⟨t, []⟩ rfl).1.2 (hnot hnone)⟩
  obtain ⟨name, ⟨-, stem, hstem, hname⟩, -, hpath⟩ := (hmem _).1 hcsv
  have hjoin : Path.join "./d/" ".csv" = "./d/.csv" := by decide +kernel
  obtain rfl : ".csv" = name := Path.join_injective "./d/" (hjoin.trans hpath)
  have hlength := congrArg List.length hname
  rw [List.length_append] at hlength
  have hpos := List.length_pos_iff.2 hstem
  change 4 = stem.length + 4 at hlength
  omega

/-! ## Path texts that are too long -/

theorem filterMap_step?_slashes (n : Nat) :
    (Path.segments (List.replicate n '/')).filterMap Path.step? = [] := by
  induction n with
  | zero => rfl
  | succ n ih => rw [List.replicate_succ, Path.segments_slash, List.filterMap_cons, ih]; rfl

theorem utf8ByteSize_slashes (n : Nat) :
    (String.ofList (List.replicate n '/')).utf8ByteSize = n := by
  induction n with
  | zero => rfl
  | succ n ih =>
    rw [List.replicate_succ, ← List.singleton_append, String.ofList_append,
      String.utf8ByteSize_append, ih, Nat.add_comm]
    rfl

/-- Slashes at the end of a path do not change where it leads. -/
theorem ofText_append_slashes {text : String} {p : Path} (h : Path.ofText text = .ok p) {n : Nat}
    (hn : text.utf8ByteSize + n ≤ Path.maxBytes) :
    ∃ q, Path.ofText (text ++ String.ofList (List.replicate n '/')) = .ok q ∧
      q.absolute = p.absolute ∧ q.steps = p.steps := by
  obtain ⟨hnul, hne, -, rfl⟩ := Path.ofText_eq_ok_iff.1 h
  have hlist : (text ++ String.ofList (List.replicate n '/')).toList =
      text.toList ++ List.replicate n '/' := by
    rw [String.toList_append, String.toList_ofList]
  obtain ⟨c, rest, htext⟩ := List.exists_cons_of_ne_nil fun hnil =>
    hne (String.toList_eq_nil_iff.1 hnil)
  refine ⟨_, Path.ofText_eq_ok_iff.2 ⟨?_, ?_, ?_, rfl⟩, ?_, ?_⟩
  · rw [hlist, List.mem_append, List.mem_replicate, not_or]
    exact ⟨hnul, fun hslash => absurd hslash.2 (by decide)⟩
  · intro hempty
    rw [← String.toList_eq_nil_iff, hlist] at hempty
    exact hne (String.toList_eq_nil_iff.1 (List.append_eq_nil_iff.1 hempty).1)
  · rwa [String.utf8ByteSize_append, utf8ByteSize_slashes]
  · rw [hlist, htext]
    rfl
  · rw [hlist]
    cases n with
    | zero => rw [List.replicate_zero, List.append_nil]
    | succ n =>
      simp only [Path.ofChars, List.replicate_succ, Path.segments_append_slash,
        List.filterMap_append, filterMap_step?_slashes, List.append_nil]

/-- A file whose path text is too long is not found. -/
theorem not_mem_discover {p : Path} (hp : Path.ofText dir = .ok p) (hloc : t.locate p = .ok loc)
    (hdir : t.node? loc = some .directory) {name : String}
    (hlong : Path.maxBytes < dir.utf8ByteSize + name.utf8ByteSize) :
    Path.join dir name ∉ t.discover dir := by
  intro hfound
  obtain ⟨other, -, hshort, hjoin⟩ := (mem_discover_iff hp hloc hdir).1 hfound
  obtain rfl := Path.join_injective dir hjoin
  have hle := Path.utf8ByteSize_le_join dir name
  omega

/-- **Not every table is found.** A directory may be given with so many slashes that the path text
of a file in it is too long, though its own is not. -/
theorem not_every_table_found :
    let dir := "d" ++ String.ofList (List.replicate 4090 '/')
    let t : Tree := ⟨[(["d"], .directory), (["d", "table.csv"], .file [])], [], by decide⟩
    t.open dir = .ok .directory ∧ (∃ p, Path.ofText dir = .ok p ∧ t.locate p = .ok ["d"]) ∧
      t.IsTableFile ["d"] "table.csv" ∧ Path.join dir "table.csv" ∉ t.discover dir := by
  intro dir t
  have hshort : Path.ofText "d" = .ok ⟨false, [.down "d"], .name⟩ := by decide +kernel
  have hdir : t.node? ["d"] = some .directory := by decide +kernel
  obtain ⟨p, hp, habsolute, hsteps⟩ := ofText_append_slashes hshort (n := 4090) (by decide +kernel)
  have hloc : t.locate p = .ok ["d"] := by
    rw [locate, habsolute, hsteps]
    decide +kernel
  refine ⟨open_eq_ok_directory_iff.2 ⟨p, _, hp, hloc, hdir⟩, ⟨p, hp, hloc⟩,
    ⟨⟨[], by decide +kernel⟩, "table".toList, by decide, by decide⟩,
    not_mem_discover hp hloc hdir ?_⟩
  rw [String.utf8ByteSize_append, utf8ByteSize_slashes]
  decide +kernel

end Tree

end SweepCharts
