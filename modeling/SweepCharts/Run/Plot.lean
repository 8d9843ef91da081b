import SweepCharts.Chart.Page
import SweepCharts.Chart.Slice
import SweepCharts.Cli.Args
import SweepCharts.Run.Basic
import SweepCharts.Sweep.Dump
import SweepCharts.Text.Quoted

set_option autoImplicit false

/-! # A run

A run draws a slice sweep if it is given one, and the sweep of the given or discovered tables unless
it is given a slice sweep alone. All files go into the output directory. A run that is asked to open
its charts hands the pages to an opener when all are written, one after the other, and ends at the
first that is refused.
-/

namespace SweepCharts.Run

def pageStyle (args : Args) : PageStyle := ⟨args.width, args.height, args.dark⟩

/-- The path of a page in the output directory. -/
def pagePath (dir stem : String) : String := Path.join dir (stem ++ ".html")

/-! ## Writing -/

/-- Writes the page of one chart, and gives its path. -/
def saveChart (args : Args) (named : NamedChart) : Job String := do
  let path := pagePath args.outputDir named.kind.stem
  Job.makeDirectory args.outputDir (.unwritable args.outputDir)
  Job.writeFile path (Page.single named.kind named.chart (pageStyle args)) (.unrendered named.kind)
  pure path

/-- Writes the page of all charts, and gives its path. -/
def saveCombined (args : Args) (charts : List NamedChart) : Job String := do
  let path := pagePath args.outputDir "charts"
  Job.makeDirectory args.outputDir (.unwritable args.outputDir)
  Job.writeFile path (Page.combined charts (pageStyle args)) (.unwritable path)
  pure path

/-- Writes the pages of the charts of a sweep, and gives their paths. -/
def saveCharts (args : Args) (charts : List NamedChart) : Job (List String) :=
  if args.combined then do pure [← saveCombined args charts]
  else charts.mapM (saveChart args)

/-- Writes the records into a directory, and gives the path. -/
def dump (dir : String) (records : List Record) : Job String := do
  let path := Path.join dir "records.json"
  Job.makeDirectory dir (.undumped dir)
  Job.writeFile path (Record.dump records) (.undumped path)
  pure path

/-! ## Stages -/

/-- The tables of a sweep: the given ones, or all in the data directory. -/
def resolve (files : List String) (dataDir : String) : Job (List String) := do
  if !files.isEmpty then pure files
  else
    let found := (← get).tree.discover dataDir
    if found.isEmpty then throw (.noInputFiles dataDir)
    Job.say [.info ("Using CSVs from " ++ dataDir ++ ": " ++ Quoted.list found)]
    pure found

/-- Draws a slice sweep, and gives the path of its page. -/
def plotSlices (args : Args) (path : String) : Job String := do
  let rows ← Job.ask fun t => t.loadSlices path
  let page ← saveChart args ⟨.sliceSweep, SliceRow.chart rows args.dark⟩
  Job.say [.info ("Generated " ++ ChartKind.sliceSweep.display ++ " plot at: " ++ page ++ " (" ++
    toString rows.length ++ " rows)")]
  pure page

/-- Draws a sweep, and gives the paths of its pages. -/
def plotSweep (args : Args) (colored : Bool) (files : List String) : Job (List String) := do
  let records ← Job.ask fun t => t.loadRecords files
  let charts := NamedChart.ofRecords records args.dark
  Job.say (NamedChart.warnings records)
  if !args.noSummary then
    Job.say ((Summary.ofRecords records).report files.length colored)
  if args.dumpJson then
    let path ← dump args.outputDir records
    Job.say [.info ("Saved records to: " ++ path)]
  let pages ← saveCharts args charts
  Job.say (pages.map fun page => .info ("Generated plot at: " ++ page ++ " (" ++
    toString records.length ++ " records)"))
  pure pages

/-- What the system answers when a program is to be started that shows a page. The program is not
waited for. -/
abbrev Opener : Type := String → Except OsError Unit

/-- The answer where no program that shows pages is installed. -/
def Opener.missing : Opener := fun _ => .error .notFound

/-- Opens pages one after the other, until one is refused. -/
def openPages (opener : Opener) : List String → Job Unit
  | [] => pure ()
  | page :: rest =>
    match opener page with
    | .ok () => openPages opener rest
    | .error cause => throw (.unopened ⟨page, cause⟩)

/-- The whole run, with what opens its pages. -/
def run (args : Args) (colored : Bool) (opener : Opener := Opener.missing) : Job Unit := do
  let slicePages ← match args.sliceSweep with
    | some path => do pure [← plotSlices args path]
    | none => pure []
  let sweepPages ←
    if args.plotsSweep then do plotSweep args colored (← resolve args.files args.dataDir)
    else pure []
  if args.openCharts then openPages opener (slicePages ++ sweepPages)

end SweepCharts.Run
