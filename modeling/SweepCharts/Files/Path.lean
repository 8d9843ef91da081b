set_option autoImplicit false

/-! # Path texts

A path text is a list of steps with slashes between them. Doubled slashes and steps to the same
directory mean nothing inside a path; at its end they ask for a directory. Nothing else is
simplified, because a step up from a directory needs that directory.

`OsError` lists what the operating system answers when it refuses a path.
-/

namespace SweepCharts

/-- Why the operating system refuses an operation. -/
inductive OsError where
  | notFound
  | exists
  | notDirectory
  | isDirectory
  /-- A name in a path, or the path itself, is too long. -/
  | nameTooLong
  /-- A path text holds a NUL character. -/
  | nulInPath
  /-- Any other error, by its message. No operation on a file tree ends in one. -/
  | other (message : String)
  deriving DecidableEq, Repr

def OsError.message : OsError → String
  | notFound => "No such file or directory (os error 2)"
  | .exists => "File exists (os error 17)"
  | notDirectory => "Not a directory (os error 20)"
  | isDirectory => "Is a directory (os error 21)"
  | nameTooLong => "File name too long (os error 36)"
  | nulInPath => "file name contained an unexpected NUL byte"
  | other message => message

/-- One step of a path. -/
inductive Step where
  | up
  | down (name : String)
  deriving DecidableEq, Repr

/-- What a path text ends in. -/
inductive PathEnd where
  | name
  | slash
  | dot
  deriving DecidableEq, Repr

structure Path where
  absolute : Bool
  steps : List Step
  ending : PathEnd
  deriving DecidableEq, Repr

namespace Path

/-- The parts of a text between slashes. -/
def segments : List Char → List (List Char)
  | [] => [[]]
  | '/' :: rest => [] :: segments rest
  | c :: rest =>
    match segments rest with
    | [] => [[c]]
    | first :: others => (c :: first) :: others

/-- The step of a part, if it is one. -/
def step? (segment : List Char) : Option Step :=
  if segment = [] ∨ segment = ['.'] then none
  else if segment = ['.', '.'] then some .up
  else some (.down (String.ofList segment))

def endOf (text : List Char) : PathEnd :=
  let named := (segments text).filter (· ≠ [])
  if named.getLast? = some ['.'] then .dot
  else if text.getLast? = some '/' then .slash
  else .name

/-- The steps of a text, and what it ends in. -/
def ofChars (text : List Char) : Path :=
  ⟨text.head? = some '/', (segments text).filterMap step?, endOf text⟩

/-- A path text has at most so many bytes. -/
def maxBytes : Nat := 4095

/-- The path of a text. The empty text leads nowhere. -/
def ofText (text : String) : Except OsError Path :=
  if text.toList.contains '\x00' then .error .nulInPath
  else if text.isEmpty then .error .notFound
  else if maxBytes < text.utf8ByteSize then .error .nameTooLong
  else .ok (ofChars text.toList)

/-- The path without its last step. -/
def parent (p : Path) : Path := ⟨p.absolute, p.steps.dropLast, .name⟩

/-! ## Texts -/

/-- The path text of a name in a directory. -/
def join (dir name : String) : String :=
  if dir.isEmpty ∨ dir.endsWith "/" then dir ++ name else dir ++ "/" ++ name

/-- The part of a file name after its last dot, unless nothing stands before the dot. -/
def extension? (name : String) : Option String :=
  let reversed := name.toList.reverse
  let afterDot := (reversed.takeWhile (· ≠ '.')).reverse
  match reversed.dropWhile (· ≠ '.') with
  | '.' :: _ :: _ => some (String.ofList afterDot)
  | _ => none

end Path

end SweepCharts
