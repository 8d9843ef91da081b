set_option autoImplicit false

/-! # Program text in charts

A chart may hold program text where a value is expected. In its JSON text this is a string that
starts and ends with a mark. `release` takes the marks and their quotes away and undoes the escapes
between them. A name that holds a mark is treated in the same way, and all is program text up to the
next closing mark, even where that stands in another string.
-/

namespace SweepCharts.Script

/-- What program text starts and ends with. -/
def mark : String := "#*#*#*#"

/-- A string that holds program text. -/
def enclose (text : String) : String := mark ++ text ++ mark

/-- The character that an escape stands for, by the character after the backslash. -/
def unescape : Char → Char
  | 'n' => '\n'
  | 'r' => '\r'
  | 't' => '\t'
  | 'b' => '\x08'
  | 'f' => '\x0c'
  | c => c

mutual

/-- The characters of a JSON text, from a place outside of program text. -/
def releaseOutside : List Char → List Char
  | '"' :: '#' :: '*' :: '#' :: '*' :: '#' :: '*' :: '#' :: rest => releaseInside rest
  | c :: rest => c :: releaseOutside rest
  | [] => []

/-- The characters of a JSON text, from a place inside program text. -/
def releaseInside : List Char → List Char
  | '#' :: '*' :: '#' :: '*' :: '#' :: '*' :: '#' :: '"' :: rest => releaseOutside rest
  | '\\' :: c :: rest => unescape c :: releaseInside rest
  | c :: rest => c :: releaseInside rest
  | [] => []

end

/-- A JSON text with its program text released. -/
def release (text : String) : String := String.ofList (releaseOutside text.toList)

end SweepCharts.Script
