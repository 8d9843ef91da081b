import SweepCharts.Cli.Parser
import SweepCharts.Run.Plot

set_option autoImplicit false

/-! # The program

Reads what a run may look at from disk into a file tree, does the run, and writes what it changed.
-/

namespace SweepCharts.Disk

/-! ## From disk -/

/-- The text of a location on disk. -/
def pathText (loc : Location) : String := "/" ++ "/".intercalate loc

/-- Adds what is at a location on disk. -/
def loadNode (t : Tree) (loc : Location) : IO Tree := do
  let path := (← IO.currentDir) / pathText loc
  if ← path.isDir then pure (t.put loc .directory)
  else if ← path.pathExists then pure (t.put loc (.file (← IO.FS.readBinFile path).data.toList))
  else pure t

/-- Adds what steps from a location lead along. -/
def loadSteps (t : Tree) (loc : Location) : List Step → IO Tree
  | [] => pure t
  | .up :: rest => loadSteps t loc.dropLast rest
  | .down name :: rest => do
    let t ← loadNode t (loc ++ [name])
    loadSteps t (loc ++ [name]) rest

/-- Adds what a path leads along. -/
def loadPath (t : Tree) (path : String) : IO Tree :=
  match Path.ofText path with
  | .ok p => loadSteps t (if p.absolute then [] else t.start) p.steps
  | .error _ => pure t

/-- Adds a directory and the tables in it. -/
def loadTables (t : Tree) (dir : String) : IO Tree := do
  let t ← loadPath t dir
  let path := (← IO.currentDir) / dir
  if dir.isEmpty || !(← path.isDir) then return t
  let names := (← path.readDir).toList.map fun entry => entry.fileName
  let tables := names.filter fun name => Path.extension? name = some tableExtension
  tables.foldlM (fun t name => loadPath t (Path.join dir name)) t

/-- The names that a run may write in its output directory. -/
def outputNames : List String :=
  ["records.json", "charts.html"] ++ ChartKind.all.map fun kind => kind.stem ++ ".html"

/-- The tree of what a run may look at. -/
def load (args : Args) : IO Tree := do
  let start := (← IO.currentDir).components.filter fun part => !part.isEmpty && part ≠ "/"
  let inputs := args.files ++ args.sliceSweep.toList
  let outputs := args.outputDir :: outputNames.map (Path.join args.outputDir)
  let t ← (inputs ++ outputs).foldlM loadPath (Tree.empty start)
  if args.plotsSweep && args.files.isEmpty then loadTables t args.dataDir else pure t

/-! ## To disk -/

/-- Writes the nodes of a tree that differ from those of another. -/
def save (before after : Tree) : IO Unit :=
  after.nodes.forM fun (loc, node) => do
    if before.node? loc ≠ some node then
      match node with
      | .directory => IO.FS.createDirAll (pathText loc)
      | .file content => IO.FS.writeBinFile (pathText loc) ⟨content.toArray⟩

end SweepCharts.Disk

namespace SweepCharts

def usage : String :=
  "Usage: sweepcharts [OPTIONS] [FILES]...\n\n" ++
  "  --data-dir DIR      directory searched for tables when no files are given\n" ++
  "  -o, --output-dir DIR  directory for the pages\n" ++
  "  --combined          one page for all charts\n" ++
  "  --light             light instead of dark charts\n" ++
  "  --width N           width of a chart in pixels\n" ++
  "  --height N          height of a chart in pixels\n" ++
  "  --open-charts       open the pages after they were written\n" ++
  "  --dump-json         also write the records\n" ++
  "  --no-summary        do not print the summary\n" ++
  "  --slice-sweep FILE  also draw a slice sweep\n"

def ArgError.message : ArgError → String
  | helpAsked => usage
  | versionAsked => "sweepcharts 1.0"
  | unknownArgument => "unknown argument"
  | invalidValue => "a value is missing or empty"
  | badNumber => "a size is not a number"
  | unexpectedValue => "an option does not take a value"
  | repeated => "an option is given twice"

/-- Does a run and reports it. No programs are started, so no page can be shown. -/
def runOnDisk (args : Args) : IO UInt32 := do
  let before ← Disk.load args
  let (result, w) := (ExceptT.run (Run.run args false Run.Opener.missing)).run { tree := before }
  Disk.save before w.tree
  for line in w.log do
    IO.println (line.level.name ++ " " ++ line.text)
  match result with
  | .ok () => pure 0
  | .error e =>
    IO.eprintln ("ERROR " ++ e.message)
    pure 1

end SweepCharts

def main (tokens : List String) : IO UInt32 := do
  match SweepCharts.Args.parse tokens with
  | .ok args => SweepCharts.runOnDisk args
  | .error .helpAsked =>
    IO.println SweepCharts.usage
    pure 0
  | .error e =>
    IO.eprintln e.message
    pure 2
