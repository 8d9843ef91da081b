import SweepCharts.Number.Count
import SweepCharts.Sweep.Summary
import SweepCharts.Text.Message

set_option autoImplicit false

/-! # The summary in words

`subtext` stands below the title of every chart of a sweep; `report` is printed after loading.
-/

namespace SweepCharts

/-- A highlight as a sentence. -/
def Highlight.sentence (h : Highlight) (what unit : String) : String :=
  what ++ ": " ++ h.value.fixed 2 ++ " " ++ unit ++ " at batch size " ++ toString h.batchSize ++
    ", flush interval " ++ toString h.flushInterval ++ " ms"

namespace Summary

/-- Parts of a line of text. -/
def joinParts (parts : List String) : String := "  •  ".intercalate parts

def joinInts (values : List Int) : String := ", ".intercalate (values.map fun n => toString n)

/-- What was varied. -/
def sweepText (s : Summary) : String :=
  let batchSizes :=
    if s.batchSizes.isEmpty then [] else ["Batch Sizes " ++ joinInts s.batchSizes]
  let payloads :=
    if s.payloadBytes.isEmpty then []
    else ["Payload " ++ ", ".intercalate (s.payloadBytes.map fun n => writeBytes n.toNat)]
  joinParts ([toString s.records ++ " Configurations"] ++ batchSizes ++
    ["Flush Intervals " ++ joinInts s.flushIntervals ++ " ms"] ++ payloads)

/-- A part that is left out for a count of zero. -/
def partOf (count : Nat) (text : String) : List String := if 0 < count then [text] else []

/-- What was sent. -/
def trafficText (s : Summary) : String :=
  joinParts (partOf s.received ("Received " ++ writeCount s.received ++ " Messages") ++
    partOf s.dropped ("Dropped " ++ writeCount s.dropped ++ " Messages") ++
    partOf s.serverBackpressure (toString s.serverBackpressure ++ " Server Backpressure Events"))

/-- The text below the title of a chart. -/
def subtext (s : Summary) : String :=
  if s.trafficText.isEmpty then s.sweepText else s.sweepText ++ "\n" ++ s.trafficText

/-- The messages about a sweep that was loaded from a number of files. -/
def report (s : Summary) (files : Nat) (colored : Bool) : List LogLine :=
  let loaded := "Loaded " ++ toString s.records ++ " benchmark records from " ++ toString files ++
    " files: " ++ s.sweepText ++ "\n"
  let highlight (what unit : String) (h : Option Highlight) : List LogLine :=
    h.toList.map fun h => .info (Color.green.paint colored (h.sentence what unit))
  let color : Color := if 0 < s.dropped ∨ 0 < s.serverBackpressure then .red else .green
  let totals := "Received " ++ writeCount s.received ++ " messages, dropped " ++
    writeCount s.dropped ++ ", client backpressure events: " ++ toString s.clientBackpressure ++
    ", server backpressure events: " ++ toString s.serverBackpressure
  [.info (Color.blue.paint colored loaded)] ++
    highlight "Best throughput" "msg/s" s.bestThroughput ++
    highlight "Lowest p99 latency" "ms" s.lowestP99 ++
    [.info (color.paint colored totals ++ "\n")]

end Summary

end SweepCharts
