import SweepCharts.Files.Access
import SweepCharts.Proofs.Files.Path

set_option autoImplicit false

/-! # Access to a tree that grows

Making directories and writing files add to a tree: what was there keeps its kind (`Keeps`).

* `walk_append`: a path is walked step by step.
* `Keeps.walk`: steps that led somewhere still lead there. Steps that led nowhere may lead somewhere
  later, but only if something was missing (`Keeps.walk_eq_error`).
* `open_eq_ok_file_iff`, `write_eq_ok_iff`: a file is read and written where its path leads.
-/

namespace SweepCharts.Tree

/-! ## Nodes -/

theorem putNode_of_lookup {loc : Location} {node : Node} {nodes : List (Location × Node)}
    (h : lookup loc nodes = some node) : putNode loc node nodes = nodes := by
  induction nodes with
  | nil => cases h
  | cons head rest ih =>
    rw [lookup] at h
    rw [putNode]
    split
    · rename_i heq
      rw [if_pos heq] at h
      rw [← Option.some.inj h, heq]
    · rename_i hne
      rw [if_neg hne] at h
      rw [ih h]

theorem node?_root (t : Tree) : t.node? [] = some .directory := rfl

theorem ne_root_of_node? {t : Tree} {loc : Location} (h : t.node? loc ≠ some .directory) :
    loc ≠ [] := fun hroot => h (hroot ▸ t.node?_root)

/-- Putting what is there changes nothing. -/
theorem put_of_node? {t : Tree} {loc : Location} {node : Node} (hne : loc ≠ [])
    (h : t.node? loc = some node) : t.put loc node = t := by
  rw [node?, if_neg hne] at h
  obtain ⟨nodes, start, distinct⟩ := t
  simp only [put, putNode_of_lookup h]

/-! ## Walking -/

/-- Where the steps of a path start. -/
def origin (t : Tree) (absolute : Bool) : Location := if absolute then [] else t.start

theorem locate_eq (t : Tree) (p : Path) : t.locate p = t.walk (t.origin p.absolute) p.steps := rfl

section
variable {t : Tree} {loc : Location}

theorem walk_of_none (h : t.node? loc = none) (step : Step) (rest : List Step) :
    t.walk loc (step :: rest) = .error .notFound := by
  simp only [walk, h]

theorem walk_of_file {content : List UInt8} (h : t.node? loc = some (.file content)) (step : Step)
    (rest : List Step) : t.walk loc (step :: rest) = .error .notDirectory := by
  simp only [walk, h]

theorem walk_up (h : t.node? loc = some .directory) (rest : List Step) :
    t.walk loc (.up :: rest) = t.walk loc.dropLast rest := by
  simp only [walk, h]

theorem walk_down (h : t.node? loc = some .directory) {name : String}
    (hname : name.utf8ByteSize ≤ 255) (rest : List Step) :
    t.walk loc (.down name :: rest) = t.walk (loc ++ [name]) rest := by
  simp only [walk, h]
  exact if_neg (Nat.not_lt.2 hname)

theorem walk_long (h : t.node? loc = some .directory) {name : String}
    (hname : ¬ name.utf8ByteSize ≤ 255) (rest : List Step) :
    t.walk loc (.down name :: rest) = .error .nameTooLong := by
  simp only [walk, h]
  exact if_pos (Nat.not_le.1 hname)

/-- The first step of a walk. -/
theorem walk_cons_cases (t : Tree) (loc : Location) (step : Step) (rest : List Step) :
    (t.node? loc = none ∧ t.walk loc (step :: rest) = .error .notFound) ∨
    ((∃ content, t.node? loc = some (.file content)) ∧
      t.walk loc (step :: rest) = .error .notDirectory) ∨
    (t.node? loc = some .directory ∧
      ((step = .up ∧ t.walk loc (step :: rest) = t.walk loc.dropLast rest) ∨
        ∃ name, step = .down name ∧
          (name.utf8ByteSize ≤ 255 ∧ t.walk loc (step :: rest) = t.walk (loc ++ [name]) rest ∨
            ¬ name.utf8ByteSize ≤ 255 ∧ t.walk loc (step :: rest) = .error .nameTooLong))) := by
  cases hnode : t.node? loc with
  | none => exact .inl ⟨rfl, walk_of_none hnode step rest⟩
  | some node =>
    cases node with
    | file content => exact .inr (.inl ⟨⟨content, rfl⟩, walk_of_file hnode step rest⟩)
    | directory =>
      refine .inr (.inr ⟨rfl, ?_⟩)
      cases step with
      | up => exact .inl ⟨rfl, walk_up hnode rest⟩
      | down name =>
        refine .inr ⟨name, rfl, ?_⟩
        by_cases hname : name.utf8ByteSize ≤ 255
        · exact .inl ⟨hname, walk_down hnode hname rest⟩
        · exact .inr ⟨hname, walk_long hnode hname rest⟩

end

theorem walk_append (t : Tree) (loc : Location) (steps more : List Step) :
    t.walk loc (steps ++ more) = (t.walk loc steps).bind fun out => t.walk out more := by
  induction steps generalizing loc with
  | nil => rfl
  | cons step rest ih =>
    rw [List.cons_append]
    cases hnode : t.node? loc with
    | none => rw [walk_of_none hnode, walk_of_none hnode]; rfl
    | some node =>
      cases node with
      | file content => rw [walk_of_file hnode, walk_of_file hnode]; rfl
      | directory =>
        cases step with
        | up => rw [walk_up hnode, walk_up hnode, ih]
        | down name =>
          by_cases hname : name.utf8ByteSize ≤ 255
          · rw [walk_down hnode hname, walk_down hnode hname, ih]
          · rw [walk_long hnode hname, walk_long hnode hname]; rfl

/-- A last step downwards leads below a directory. -/
theorem walk_snoc_down {t : Tree} {loc out : Location} {steps : List Step} {name : String}
    (h : t.walk loc (steps ++ [.down name]) = .ok out) :
    ∃ folder, t.walk loc steps = .ok folder ∧ t.node? folder = some .directory ∧
      out = folder ++ [name] := by
  rw [walk_append] at h
  cases hfolder : t.walk loc steps with
  | error e =>
    rw [hfolder] at h
    cases h
  | ok folder =>
    rw [hfolder] at h
    rcases t.walk_cons_cases folder (.down name) [] with
      ⟨-, heq⟩ | ⟨-, heq⟩ | ⟨hnode, ⟨hup, -⟩ | ⟨other, hdown, ⟨-, heq⟩ | ⟨-, heq⟩⟩⟩
    · cases heq.symm.trans h
    · cases heq.symm.trans h
    · cases hup
    · obtain rfl := Step.down.inj hdown
      exact ⟨folder, rfl, hnode, (Except.ok.inj (heq.symm.trans h)).symm⟩
    · cases heq.symm.trans h

/-! ## Trees that keep what was there -/

/-- What was there keeps its kind. -/
structure Keeps (before after : Tree) : Prop where
  start : after.start = before.start
  directory : ∀ loc, before.node? loc = some .directory → after.node? loc = some .directory
  file : ∀ loc content, before.node? loc = some (.file content) →
    ∃ content, after.node? loc = some (.file content)

namespace Keeps

variable {before after : Tree}

theorem refl (t : Tree) : Keeps t t := ⟨rfl, fun _ h => h, fun _ content h => ⟨content, h⟩⟩

theorem trans {middle : Tree} (h : Keeps before middle) (h' : Keeps middle after) :
    Keeps before after where
  start := h'.start.trans h.start
  directory loc hloc := h'.directory loc (h.directory loc hloc)
  file loc content hloc := by
    obtain ⟨content, hcontent⟩ := h.file loc content hloc
    exact h'.file loc content hcontent

theorem put {t : Tree} {loc : Location} {node : Node} (hnode : t.node? loc ≠ some .directory)
    (hfile : ∀ content, t.node? loc = some (.file content) → ∃ content, node = .file content) :
    Keeps t (t.put loc node) where
  start := rfl
  directory other h := by
    rw [node?_put t node (ne_root_of_node? hnode)]
    split
    · rename_i heq
      exact absurd (heq ▸ h) hnode
    · exact h
  file other content h := by
    rw [node?_put t node (ne_root_of_node? hnode)]
    split
    · rename_i heq
      obtain ⟨content, rfl⟩ := hfile content (heq ▸ h)
      exact ⟨content, rfl⟩
    · exact ⟨content, h⟩

theorem origin (h : Keeps before after) (absolute : Bool) :
    after.origin absolute = before.origin absolute := by
  rw [Tree.origin, Tree.origin, h.start]

/-- Steps that led somewhere lead there. -/
theorem walk (h : Keeps before after) {steps : List Step} {loc out : Location}
    (hwalk : before.walk loc steps = .ok out) : after.walk loc steps = .ok out := by
  induction steps generalizing loc with
  | nil => exact hwalk
  | cons step rest ih =>
    rcases before.walk_cons_cases loc step rest with
      ⟨-, heq⟩ | ⟨-, heq⟩ | ⟨hnode, ⟨rfl, heq⟩ | ⟨name, rfl, ⟨hname, heq⟩ | ⟨-, heq⟩⟩⟩
    · cases hwalk.symm.trans heq
    · cases hwalk.symm.trans heq
    · rw [walk_up (h.directory loc hnode)]
      exact ih (heq.symm.trans hwalk)
    · rw [walk_down (h.directory loc hnode) hname]
      exact ih (heq.symm.trans hwalk)
    · cases hwalk.symm.trans heq

theorem locate (h : Keeps before after) {p : Path} {loc : Location}
    (hloc : before.locate p = .ok loc) : after.locate p = .ok loc := by
  rw [locate_eq, h.origin]
  exact h.walk hloc

/-- Steps that lead somewhere now, and did not before, led to nothing. -/
theorem walk_eq_error (h : Keeps before after) {steps : List Step} {loc out : Location}
    {e : OsError} (hafter : after.walk loc steps = .ok out)
    (hbefore : before.walk loc steps = .error e) : e = .notFound := by
  induction steps generalizing loc with
  | nil => cases hbefore
  | cons step rest ih =>
    rcases before.walk_cons_cases loc step rest with
      ⟨-, heq⟩ | ⟨⟨content, hnode⟩, -⟩ |
        ⟨hnode, ⟨rfl, heq⟩ | ⟨name, rfl, ⟨hname, heq⟩ | ⟨hname, -⟩⟩⟩
    · exact (Except.error.inj (hbefore.symm.trans heq))
    · obtain ⟨content, hfile⟩ := h.file loc content hnode
      cases hafter.symm.trans (walk_of_file hfile step rest)
    · exact ih ((walk_up (h.directory loc hnode) rest).symm.trans hafter) (heq.symm.trans hbefore)
    · exact ih ((walk_down (h.directory loc hnode) hname rest).symm.trans hafter)
        (heq.symm.trans hbefore)
    · cases hafter.symm.trans (walk_long (h.directory loc hnode) hname rest)

end Keeps

/-! ## Opening and writing -/

section
variable {t : Tree} {p : Path} {loc : Location}

theorem find_of_locate_error {e : OsError} (h : t.locate p = .error e) : t.find p = .error e := by
  rw [find, h]
  rfl

theorem find_of_none (h : t.locate p = .ok loc) (hnode : t.node? loc = none) :
    t.find p = .error .notFound := by
  simp only [find, h, bind, Except.bind, hnode]

theorem find_of_directory (h : t.locate p = .ok loc) (hnode : t.node? loc = some .directory) :
    t.find p = .ok .directory := by
  simp only [find, h, bind, Except.bind, hnode]

theorem find_of_file {content : List UInt8} (h : t.locate p = .ok loc)
    (hnode : t.node? loc = some (.file content)) :
    t.find p = if p.ending = .name then .ok (.file content) else .error .notDirectory := by
  simp only [find, h, bind, Except.bind, hnode]

theorem isDirectory_iff :
    t.isDirectory p = true ↔ ∃ loc, t.locate p = .ok loc ∧ t.node? loc = some .directory := by
  rw [isDirectory]
  cases hloc : t.locate p with
  | error e => rw [find_of_locate_error hloc]; simp
  | ok loc =>
    cases hnode : t.node? loc with
    | none => rw [find_of_none hloc hnode]; simp [hnode]
    | some node =>
      cases node with
      | directory => rw [find_of_directory hloc hnode]; simp [hnode]
      | file content =>
        rw [find_of_file hloc hnode]
        by_cases hend : p.ending = .name <;> simp [hend, hnode]

end

theorem open_eq_ok_file_iff {t : Tree} {path : String} {content : List UInt8} :
    t.open path = .ok (.file content) ↔ ∃ p loc, Path.ofText path = .ok p ∧ t.locate p = .ok loc ∧
      p.ending = .name ∧ t.node? loc = some (.file content) := by
  rw [Tree.open]
  cases htext : Path.ofText path with
  | error e => simp [bind, Except.bind]
  | ok p =>
    simp only [bind, Except.bind]
    cases hloc : t.locate p with
    | error e => rw [find_of_locate_error hloc]; simp [hloc]
    | ok loc =>
      cases hnode : t.node? loc with
      | none => rw [find_of_none hloc hnode]; simp [hloc, hnode]
      | some node =>
        cases node with
        | directory => rw [find_of_directory hloc hnode]; simp [hloc, hnode]
        | file other =>
          rw [find_of_file hloc hnode]
          by_cases hend : p.ending = .name <;> simp [hloc, hnode, hend]

theorem open_eq_ok_directory_iff {t : Tree} {path : String} :
    t.open path = .ok .directory ↔ ∃ p loc, Path.ofText path = .ok p ∧ t.locate p = .ok loc ∧
      t.node? loc = some .directory := by
  rw [Tree.open]
  cases htext : Path.ofText path with
  | error e => simp [bind, Except.bind]
  | ok p =>
    simp only [bind, Except.bind]
    cases hloc : t.locate p with
    | error e => rw [find_of_locate_error hloc]; simp [hloc]
    | ok loc =>
      cases hnode : t.node? loc with
      | none => rw [find_of_none hloc hnode]; simp [hloc, hnode]
      | some node =>
        cases node with
        | directory => rw [find_of_directory hloc hnode]; simp [hloc, hnode]
        | file other =>
          rw [find_of_file hloc hnode]
          by_cases hend : p.ending = .name <;> simp [hloc, hnode, hend]

theorem write_eq_ok_iff {t after : Tree} {path : String} {content : List UInt8} :
    t.write path content = .ok after ↔ ∃ p loc, Path.ofText path = .ok p ∧ t.locate p = .ok loc ∧
      p.ending = .name ∧ t.node? loc ≠ some .directory ∧ after = t.put loc (.file content) := by
  rw [write]
  cases htext : Path.ofText path with
  | error e => simp [bind, Except.bind]
  | ok p =>
    simp only [bind, Except.bind]
    cases hloc : t.locate p with
    | error e => simp [hloc]
    | ok loc =>
      cases hnode : t.node? loc with
      | none => cases hend : p.ending <;> simp [hloc, hnode, hend, eq_comm]
      | some node =>
        cases node <;> cases hend : p.ending <;> simp [hloc, hnode, hend, eq_comm]

end SweepCharts.Tree
