import SweepCharts.Text.Shown

set_option autoImplicit false

/-! # Quoted lists

A list of texts in brackets, each in quotes. Double quotes, backslashes and characters that do not
show by themselves are escaped.
-/

namespace SweepCharts.Quoted

/-- An escape by number: the code point in hexadecimal, without leading zeros. -/
def codePoint (c : Char) : List Char :=
  ['\\', 'u', '\x7b'] ++ Nat.toDigits 16 c.toNat ++ ['\x7d']

/-- One character inside quotes. -/
def escape (c : Char) : List Char :=
  if c = '"' ∨ c = '\\' then ['\\', c]
  else if c = '\n' then ['\\', 'n']
  else if c = '\r' then ['\\', 'r']
  else if c = '\t' then ['\\', 't']
  else if c.toNat = 0 then ['\\', '0']
  else if isShown c then [c]
  else codePoint c

/-- A text in quotes. -/
def quote (text : String) : String :=
  "\"" ++ String.ofList (text.toList.flatMap escape) ++ "\""

/-- The texts in brackets. -/
def list (texts : List String) : String :=
  "[" ++ ", ".intercalate (texts.map quote) ++ "]"

end SweepCharts.Quoted
