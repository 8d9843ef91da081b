import SweepCharts.Cli.Args
import SweepCharts.Number.Binary64

set_option autoImplicit false

/-! # Reading a command line

Tokens are read from left to right. The value of an option may be attached to it or be the next
token, unless that looks like an option. A value is checked when the next option or file begins, or
at the end; so a fault that shows in the next token itself is reported first.
-/

namespace SweepCharts

/-- Why a command line does not give arguments. -/
inductive ArgError where
  | helpAsked
  | versionAsked
  | unknownArgument
  /-- A missing value, or an empty path. -/
  | invalidValue
  /-- A size that is no number. -/
  | badNumber
  /-- A value for a switch. -/
  | unexpectedValue
  /-- An option given twice. -/
  | repeated
  deriving DecidableEq, Repr

/-- An option with a value. -/
inductive Setting where
  | dataDir | outputDir | width | height | sliceSweep
  deriving DecidableEq, Repr

/-- An option without a value. -/
inductive Switch where
  | combined | light | openCharts | dumpJson | noSummary
  deriving DecidableEq, Repr

inductive CliOption where
  | setting (s : Setting)
  | switch (s : Switch)
  | help
  | version
  deriving DecidableEq, Repr

namespace CliOption

/-- The option of a name after two dashes. -/
def ofName? : String → Option CliOption
  | "data-dir" => some (setting .dataDir)
  | "output-dir" => some (setting .outputDir)
  | "width" => some (setting .width)
  | "height" => some (setting .height)
  | "slice-sweep" => some (setting .sliceSweep)
  | "combined" => some (switch .combined)
  | "light" => some (switch .light)
  | "open-charts" => some (switch .openCharts)
  | "dump-json" => some (switch .dumpJson)
  | "no-summary" => some (switch .noSummary)
  | "help" => some help
  | "version" => some version
  | _ => none

/-- The option of a letter after one dash. -/
def ofLetter? : Char → Option CliOption
  | 'o' => some (setting .outputDir)
  | 'h' => some help
  | 'V' => some version
  | _ => none

end CliOption

/-! ## Tokens -/

/-- How a token looks. -/
inductive Token where
  /-- Two dashes: only files follow. -/
  | separator
  /-- An option by name, with the text after an equals sign. -/
  | long (name : String) (value : Option String)
  /-- An option by letter, with the text after it. -/
  | short (letter : Char) (rest : List Char)
  | plain
  deriving DecidableEq, Repr

namespace Token

/-- A name, and the text after the first equals sign. -/
def splitValue (text : List Char) : String × Option String :=
  let name := String.ofList (text.takeWhile (· ≠ '='))
  match text.dropWhile (· ≠ '=') with
  | [] => (name, none)
  | _ :: value => (name, some (String.ofList value))

def ofText (text : String) : Token :=
  match text.toList with
  | ['-', '-'] => separator
  | '-' :: '-' :: rest =>
    let (name, value) := splitValue rest
    long name value
  | '-' :: letter :: rest => short letter rest
  | _ => plain

/-- The value attached to a letter; an equals sign before it does not count. -/
def attached : List Char → Option String
  | [] => none
  | '=' :: value => some (String.ofList value)
  | value => some (String.ofList value)

end Token

/-! ## Values -/

/-- A size: digits with an optional plus sign, within 64 bits. -/
def readSize? (text : String) : Option Nat :=
  let digits := match text.toList with
    | '+' :: rest => rest
    | chars => chars
  if digits.isEmpty || !digits.all Char.isDigit then none
  else
    let n := digits.foldl (fun n c => 10 * n + (c.toNat - '0'.toNat)) 0
    if n < pow2 64 then some n else none

def readPath (text : String) : Except ArgError String :=
  if text.isEmpty then .error .invalidValue else .ok text

def readSize (text : String) : Except ArgError Nat :=
  match readSize? text with
  | some n => .ok n
  | none => .error .badNumber

/-- The arguments with a value for an option. -/
def Args.set (args : Args) (setting : Setting) (value : String) : Except ArgError Args :=
  match setting with
  | .dataDir => (readPath value).map fun path => { args with dataDir := path }
  | .outputDir => (readPath value).map fun path => { args with outputDir := path }
  | .width => (readSize value).map fun n => { args with width := n }
  | .height => (readSize value).map fun n => { args with height := n }
  | .sliceSweep => (readPath value).map fun path => { args with sliceSweep := some path }

/-- The arguments with an option turned on. -/
def Args.turnOn (args : Args) : Switch → Args
  | .combined => { args with combined := true }
  | .light => { args with light := true }
  | .openCharts => { args with openCharts := true }
  | .dumpJson => { args with dumpJson := true }
  | .noSummary => { args with noSummary := true }

/-! ## The parser -/

/-- What was read but not yet checked. -/
inductive Pending where
  | nothing
  /-- An option that waits for its value. -/
  | awaiting (setting : Setting)
  | value (setting : Setting) (text : String)
  | files (paths : List String)
  deriving DecidableEq, Repr

structure ParseState where
  args : Args := {}
  settings : List Setting := []
  switches : List Switch := []
  pending : Pending := .nothing
  /-- Whether only files follow. -/
  onlyFiles : Bool := false
  deriving DecidableEq, Repr

namespace ParseState

/-- Takes the value of an option. -/
def assign (s : ParseState) (setting : Setting) (value : String) : Except ArgError ParseState :=
  if setting ∈ s.settings then .error .repeated
  else
    (s.args.set setting value).map fun args =>
      { s with args, settings := setting :: s.settings }

/-- Checks what is pending. -/
def settle (s : ParseState) : Except ArgError ParseState :=
  let clear := { s with pending := .nothing }
  match s.pending with
  | .nothing => .ok clear
  | .awaiting _ => .error .invalidValue
  | .value setting text => clear.assign setting text
  | .files paths => do
    let paths ← paths.mapM readPath
    .ok { clear with args := { s.args with files := s.args.files ++ paths } }

/-- A token that is a file. -/
def addFile (s : ParseState) (path : String) : Except ArgError ParseState :=
  match s.pending with
  | .files paths => .ok { s with pending := .files (paths ++ [path]) }
  | _ => s.settle.map fun s => { s with pending := .files [path] }

/-- A token that does not look like an option: the value of the option before it, or a file. -/
def addPlain (s : ParseState) (text : String) : Except ArgError ParseState :=
  match s.pending with
  | .awaiting setting => .ok { s with pending := .value setting text }
  | _ => s.addFile text

/-- An option with the value attached to it, if there is one. -/
def addOption (s : ParseState) (option : CliOption) (value : Option String) :
    Except ArgError ParseState :=
  match option, value with
  | .setting setting, some text => do (← s.settle).assign setting text
  | .setting setting, none => s.settle.map fun s => { s with pending := .awaiting setting }
  | _, some _ => .error .unexpectedValue
  | .switch switch, none => do
    let s ← s.settle
    if switch ∈ s.switches then .error .repeated
    else .ok { s with args := s.args.turnOn switch, switches := switch :: s.switches }
  | .help, none => do
    let _ ← s.settle
    .error .helpAsked
  | .version, none => do
    let _ ← s.settle
    .error .versionAsked

/-- An option by letter. What follows the letter is the value of an option that takes one; no other
letter is reached. -/
def addShort (s : ParseState) (letter : Char) (rest : List Char) : Except ArgError ParseState :=
  match CliOption.ofLetter? letter with
  | some (.setting setting) => s.addOption (.setting setting) (Token.attached rest)
  | some option => s.addOption option none
  | none => .error .unknownArgument

/-- One more token. -/
def step (s : ParseState) (text : String) : Except ArgError ParseState :=
  if s.onlyFiles then s.addFile text
  else
    match Token.ofText text with
    | .separator => .ok { s with onlyFiles := true }
    | .plain => s.addPlain text
    | .short letter rest => s.addShort letter rest
    | .long name value =>
      match CliOption.ofName? name with
      | some option => s.addOption option value
      | none => .error .unknownArgument

/-- All tokens. -/
def run (s : ParseState) : List String → Except ArgError ParseState
  | [] => s.settle
  | text :: rest => do (← s.step text).run rest

end ParseState

/-- The arguments of a command line, without the name of the program. -/
def Args.parse (tokens : List String) : Except ArgError Args :=
  (ParseState.run {} tokens).map ParseState.args

end SweepCharts
