import SweepCharts.Files.Path
import SweepCharts.Files.Tree

set_option autoImplicit false

/-! # Access to a file tree

What the operating system answers when a path is opened, written or made a directory.
-/

namespace SweepCharts

namespace Tree

/-! ## Looking up -/

/-- A name in a directory has at most so many bytes. -/
def maxNameBytes : Nat := 255

/-- The location that steps lead to. Every step needs a directory to start from; the last one need
not lead to anything. -/
def walk (t : Tree) (loc : Location) : List Step → Except OsError Location
  | [] => .ok loc
  | step :: rest =>
    match t.node? loc with
    | none => .error .notFound
    | some (.file _) => .error .notDirectory
    | some .directory =>
      match step with
      | .up => t.walk loc.dropLast rest
      | .down name =>
        if maxNameBytes < name.utf8ByteSize then .error .nameTooLong
        else t.walk (loc ++ [name]) rest

def locate (t : Tree) (p : Path) : Except OsError Location :=
  t.walk (if p.absolute then [] else t.start) p.steps

/-- What is at a path. A path that asks for a directory finds no file. -/
def find (t : Tree) (p : Path) : Except OsError Node := do
  match t.node? (← t.locate p) with
  | none => .error .notFound
  | some .directory => .ok .directory
  | some (.file content) =>
    if p.ending = .name then .ok (.file content) else .error .notDirectory

/-- What is at a path text. -/
def «open» (t : Tree) (path : String) : Except OsError Node := do
  t.find (← Path.ofText path)

def isDirectory (t : Tree) (p : Path) : Bool :=
  match t.find p with
  | .ok .directory => true
  | _ => false

/-! ## Writing -/

/-- Writes a file, a new one or in place of an old one. -/
def write (t : Tree) (path : String) (content : List UInt8) : Except OsError Tree := do
  let p ← Path.ofText path
  let loc ← t.locate p
  match t.node? loc, p.ending with
  | some .directory, _ => .error .isDirectory
  | _, .slash => .error .isDirectory
  | some (.file _), .dot => .error .notDirectory
  | none, .dot => .error .notFound
  | _, .name => .ok (t.put loc (.file content))

/-- Makes one directory. -/
def makeDirectory (t : Tree) (p : Path) : Except OsError Tree := do
  let loc ← t.locate p
  match t.node? loc, p.ending with
  | some (.file _), .dot => .error .notDirectory
  | some _, _ => .error .exists
  | none, .dot => .error .notFound
  | none, _ => .ok (t.put loc .directory)

/-- The tree after an operation, and how it went. -/
abbrev Outcome := Tree × Except OsError Unit

/-- Makes one directory; it does not matter if it is there. -/
def settleDirectory (t : Tree) (p : Path) : Outcome :=
  match t.makeDirectory p with
  | .ok t => (t, .ok ())
  | .error e => (t, if t.isDirectory p then .ok () else .error e)

/-- Makes a directory and all that lead to it; the last step comes first. What was made stays, also
if a later step fails. -/
def makeDirectories (t : Tree) (absolute : Bool) (ending : PathEnd) : List Step → Outcome
  | [] => (t, .ok ())
  | step :: above =>
    let p : Path := ⟨absolute, (step :: above).reverse, ending⟩
    match t.makeDirectory p with
    | .error .notFound =>
      match t.makeDirectories absolute .name above with
      | (t, .ok ()) => t.settleDirectory p
      | (t, .error e) => (t, .error e)
    | _ => t.settleDirectory p

/-- Makes the directory of a path. -/
def ensurePath (t : Tree) (p : Path) : Outcome :=
  t.makeDirectories p.absolute p.ending p.steps.reverse

/-- Makes the directory of a path text; nothing needs to be made for the empty one. -/
def ensureDirectory (t : Tree) (path : String) : Outcome :=
  if path.isEmpty then (t, .ok ())
  else
    match Path.ofText path with
    | .ok p => t.ensurePath p
    | .error e => (t, .error e)

end Tree

end SweepCharts
