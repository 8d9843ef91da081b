set_option autoImplicit false

/-! # Messages of a run

A message has a level and a text. A color wraps a text in terminal codes, unless colors are off.
Where the text itself ends all colors, its own color starts again.
-/

namespace SweepCharts

/-! ## Messages -/

inductive Level where
  | info | warn
  deriving DecidableEq, Repr

def Level.name : Level → String
  | info => "INFO"
  | warn => "WARN"

/-- A message for the person who runs the program. -/
structure LogLine where
  level : Level
  text : String
  deriving DecidableEq, Repr

namespace LogLine

def info (text : String) : LogLine := ⟨.info, text⟩
def warn (text : String) : LogLine := ⟨.warn, text⟩

end LogLine

/-! ## Colors -/

inductive Color where
  | black | red | green | yellow | blue | magenta | cyan | white
  deriving DecidableEq, Repr

namespace Color

/-- The terminal code that starts a color. -/
def code : Color → Nat
  | black => 30
  | red => 31
  | green => 32
  | yellow => 33
  | blue => 34
  | magenta => 35
  | cyan => 36
  | white => 37

/-- The color of a name. -/
def ofName? : String → Option Color
  | "black" => some black
  | "red" => some red
  | "green" => some green
  | "yellow" => some yellow
  | "blue" => some blue
  | "magenta" => some magenta
  | "cyan" => some cyan
  | "white" => some white
  | _ => none

/-- The characters that start a color. -/
def start (color : Color) : List Char := ['\x1b', '['] ++ Nat.toDigits 10 color.code ++ ['m']

/-- The characters that end all colors. -/
def reset : List Char := ['\x1b', '[', '0', 'm']

/-- A text in which a color starts again after each end of all colors. -/
def reopen (color : Color) : List Char → List Char
  | '\x1b' :: '[' :: '0' :: 'm' :: rest => reset ++ color.start ++ reopen color rest
  | c :: rest => c :: reopen color rest
  | [] => []

/-- A text in this color, or as it is if colors are off. -/
def paint (color : Color) (colored : Bool) (text : String) : String :=
  if colored then String.ofList (color.start ++ color.reopen text.toList ++ reset) else text

end Color

end SweepCharts
