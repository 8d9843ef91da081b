set_option autoImplicit false

/-! # Arguments

What a run is asked to do. The defaults read tables from `./data` and write to `./charts`.
-/

namespace SweepCharts

structure Args where
  /-- The tables of the sweep, in this order; all tables of `dataDir` if there are none. -/
  files : List String := []
  dataDir : String := "./data"
  outputDir : String := "./charts"
  /-- One page for all charts. -/
  combined : Bool := false
  light : Bool := false
  width : Nat := 1600
  height : Nat := 1200
  openCharts : Bool := false
  /-- Also write the records. -/
  dumpJson : Bool := false
  noSummary : Bool := false
  /-- The table of a slice sweep. -/
  sliceSweep : Option String := none
  deriving DecidableEq, Repr

namespace Args

def dark (args : Args) : Bool := !args.light

/-- Whether the run draws a sweep; one that is given only a slice sweep does not. -/
def plotsSweep (args : Args) : Bool := args.sliceSweep.isNone || !args.files.isEmpty

end Args

end SweepCharts
