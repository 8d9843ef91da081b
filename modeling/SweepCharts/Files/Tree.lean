set_option autoImplicit false

/-! # File trees

A tree says for each location what is there: a directory, a file with its bytes, or nothing. A
location is the list of names that lead to it from the root, and the root is a directory.

* `node?_put`: writing one location changes that location and no other.
-/

namespace SweepCharts

/-- Names from the root downwards. -/
abbrev Location := List String

inductive Node where
  | directory
  | file (content : List UInt8)
  deriving DecidableEq

/-- What lies below the root, each location once, and the location where relative paths start. -/
structure Tree where
  nodes : List (Location × Node)
  start : Location
  distinct : (nodes.map Prod.fst).Nodup
  deriving DecidableEq

namespace Tree

/-! ## Nodes -/

/-- The node at a location in a list. -/
def lookup (loc : Location) : List (Location × Node) → Option Node
  | [] => none
  | (other, node) :: rest => if loc = other then some node else lookup loc rest

/-- What is at a location. -/
def node? (t : Tree) (loc : Location) : Option Node :=
  if loc = [] then some .directory else lookup loc t.nodes

/-- The list with another node at a location, which keeps its place or comes last. -/
def putNode (loc : Location) (node : Node) : List (Location × Node) → List (Location × Node)
  | [] => [(loc, node)]
  | (other, old) :: rest =>
    if loc = other then (loc, node) :: rest else (other, old) :: putNode loc node rest

theorem mem_putNode {loc other : Location} {node : Node} {nodes : List (Location × Node)}
    (h : other ∈ (putNode loc node nodes).map Prod.fst) :
    other = loc ∨ other ∈ nodes.map Prod.fst := by
  induction nodes with
  | nil => simpa [putNode] using h
  | cons head rest ih =>
    unfold putNode at h
    split at h
    · rename_i heq
      simp only [List.map_cons, List.mem_cons] at h ⊢
      rcases h with h | h
      · exact .inl h
      · exact .inr (.inr h)
    · simp only [List.map_cons, List.mem_cons] at h ⊢
      rcases h with h | h
      · exact .inr (.inl h)
      · rcases ih h with h | h
        · exact .inl h
        · exact .inr (.inr h)

theorem nodup_putNode (loc : Location) (node : Node) {nodes : List (Location × Node)}
    (h : (nodes.map Prod.fst).Nodup) : ((putNode loc node nodes).map Prod.fst).Nodup := by
  induction nodes with
  | nil => simp [putNode]
  | cons head rest ih =>
    simp only [List.map_cons, List.nodup_cons] at h
    unfold putNode
    split
    · rename_i heq
      simp only [List.map_cons, List.nodup_cons]
      exact ⟨heq ▸ h.1, h.2⟩
    · rename_i hne
      simp only [List.map_cons, List.nodup_cons]
      refine ⟨fun hmem => ?_, ih h.2⟩
      rcases mem_putNode hmem with heq | hmem
      · exact hne heq.symm
      · exact h.1 hmem

/-- The tree with another node at a location. -/
def put (t : Tree) (loc : Location) (node : Node) : Tree :=
  ⟨putNode loc node t.nodes, t.start, nodup_putNode loc node t.distinct⟩

theorem lookup_putNode (loc other : Location) (node : Node) (nodes : List (Location × Node)) :
    lookup other (putNode loc node nodes) =
      if other = loc then some node else lookup other nodes := by
  induction nodes with
  | nil => rfl
  | cons head rest ih =>
    unfold putNode
    split
    · rename_i heq
      subst heq
      simp only [lookup]
      split <;> rfl
    · rename_i hne
      simp only [lookup, ih]
      split
      · rename_i heq
        subst heq
        simp [Ne.symm hne]
      · rfl

theorem node?_put (t : Tree) {loc other : Location} (node : Node) (h : loc ≠ []) :
    (t.put loc node).node? other = if other = loc then some node else t.node? other := by
  unfold node? put
  split
  · rename_i heq
    subst heq
    simp [Ne.symm h]
  · exact lookup_putNode loc other node t.nodes

/-- The tree without a location and all below it. -/
def remove (t : Tree) (loc : Location) : Tree :=
  ⟨t.nodes.filter fun e => !loc.isPrefixOf e.1, t.start,
   t.distinct.sublist ((List.filter_sublist).map _)⟩

/-! ## Listing -/

/-- The names directly in a directory, in the order of the tree. -/
def names (t : Tree) (loc : Location) : List String :=
  t.nodes.filterMap fun e => if e.1.dropLast = loc then e.1.getLast? else none

/-- The locations below a directory, relative to it, with their nodes. -/
def below (t : Tree) (loc : Location) : List (Location × Node) :=
  t.nodes.filterMap fun e =>
    if loc.isPrefixOf e.1 && e.1.length ≠ loc.length then some (e.1.drop loc.length, e.2)
    else none

/-- A tree without files, with the directories that lead to the start. -/
def empty (start : Location) : Tree :=
  (List.range start.length).foldl (fun t i => t.put (start.take (i + 1)) .directory)
    ⟨[], start, .nil⟩

end Tree

end SweepCharts
