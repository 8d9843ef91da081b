set_option autoImplicit false

/-! # The columns of a sweep

A sweep file has one row a configuration and up to twenty-four known columns. Twelve of them are
buffering statistics, named by the side of the transport that they were collected on.

* `mem_all`: the header has every column.
* `ofName?_name`: a column is found by its name.
-/

namespace SweepCharts

/-- The side of the transport that a statistic was collected on. -/
inductive Side where
  | client | server
  deriving DecidableEq, Repr

def Side.name : Side → String
  | client => "client"
  | server => "server"

/-- A column name for this side. -/
def Side.column (side : Side) (suffix : String) : String := side.name ++ suffix

/-- What follows the side in a name that starts with it. -/
def Side.suffix? (side : Side) (name : String) : Option String :=
  (side.name.toList.isPrefixOf? name.toList).map String.ofList

/-- A buffering statistic. -/
inductive Stat where
  | flushes | avgBuffers | maxBuffers | avgBytes | maxBytes | backpressure
  deriving DecidableEq, Repr

namespace Stat

def all : List Stat := [flushes, avgBuffers, maxBuffers, avgBytes, maxBytes, backpressure]

/-- The name inside the statistics of one side. -/
def name : Stat → String
  | flushes => "flushes"
  | avgBuffers => "avgBuffers"
  | maxBuffers => "maxBuffers"
  | avgBytes => "avgBytes"
  | maxBytes => "maxBytes"
  | backpressure => "backpressure"

/-- What follows the side in a column name. -/
def suffix : Stat → String
  | flushes => "Flushes"
  | avgBuffers => "AvgBuffers"
  | maxBuffers => "MaxBuffers"
  | avgBytes => "AvgBytes"
  | maxBytes => "MaxBytes"
  | backpressure => "Backpressure"

def ofSuffix? (suffix : String) : Option Stat := all.find? fun s => s.suffix = suffix

/-- Averages are doubles, counts are integers. -/
def isWhole : Stat → Bool
  | avgBuffers | avgBytes => false
  | _ => true

end Stat

/-- A known column. -/
inductive Column where
  | batchSize | flushIntervalMs | frames | payloadBytes | timeoutMs
  | p50Ms | p99Ms | maxMs | throughputMsgSec
  | received | dropped | outstanding
  | buffering (side : Side) (stat : Stat)
  deriving DecidableEq, Repr

namespace Column

/-- The columns that are no buffering statistics. -/
def plain : List Column :=
  [batchSize, flushIntervalMs, frames, payloadBytes, timeoutMs, p50Ms, p99Ms, maxMs,
   throughputMsgSec, received, dropped, outstanding]

/-- Every column, in the order of the header. -/
def all : List Column :=
  plain ++ Stat.all.map (buffering .client) ++ Stat.all.map (buffering .server)

/-- The name in the header. -/
def name : Column → String
  | batchSize => "batchSize"
  | flushIntervalMs => "flushIntervalMs"
  | frames => "frames"
  | payloadBytes => "payloadBytes"
  | timeoutMs => "timeoutMs"
  | p50Ms => "p50Ms"
  | p99Ms => "p99Ms"
  | maxMs => "maxMs"
  | throughputMsgSec => "throughputMsgSec"
  | received => "received"
  | dropped => "dropped"
  | outstanding => "outstanding"
  | buffering side stat => side.column stat.suffix

/-- The column of a name. -/
def ofName? (name : String) : Option Column := all.find? fun c => c.name = name

/-- The buffering events that the server could not pass on. -/
def serverBackpressure : Column := buffering .server .backpressure

/-- Whether the column holds integers, and not doubles. -/
def isWhole : Column → Bool
  | p50Ms | p99Ms | maxMs | throughputMsgSec => false
  | buffering _ stat => stat.isWhole
  | _ => true

theorem mem_all (c : Column) : c ∈ all := by
  cases c with
  | buffering side stat => cases side <;> cases stat <;> decide
  | _ => decide

theorem ofName?_name (c : Column) : ofName? c.name = some c := by
  cases c with
  | buffering side stat => cases side <;> cases stat <;> decide
  | _ => decide

end Column

end SweepCharts
