import SweepCharts.Json.Printer
import SweepCharts.Proofs.Json.Numeral

set_option autoImplicit false

/-! # One layout for both printers

A JSON text is laid out by what stands before each item or member of a nested value, after the colon
of a member, and before a closing bracket. All of it is blank. `Json.compact` has nothing there, and
`Json.pretty` new lines and spaces.

* `toList_compact`, `toList_prettyAt`: the two printers by their spacing.
-/

namespace SweepCharts.Json

/-- The blanks of a layout. -/
structure Spacing where
  /-- What stands before an item at a level of nesting, and before the end of one. -/
  gap : Nat → List Char
  /-- What stands after a colon. -/
  colon : List Char
  gap_blank : ∀ level, ∀ c ∈ gap level, isBlank c = true
  colon_blank : ∀ c ∈ colon, isBlank c = true

namespace Spacing

def dense : Spacing where
  gap _ := []
  colon := []
  gap_blank _ := by simp
  colon_blank := by simp

def lines : Spacing where
  gap level := '\n' :: List.replicate (2 * level) ' '
  colon := [' ']
  gap_blank level := by
    rw [List.forall_mem_cons]
    refine ⟨by decide, fun c hc => ?_⟩
    obtain rfl := List.eq_of_mem_replicate hc
    decide
  colon_blank := List.forall_mem_singleton.2 (by decide)

end Spacing

/-- The characters of a JSON string between its quotes. -/
def escaped (text : String) : List Char := text.toList.flatMap escape

mutual

/-- A value in a layout. -/
def layOut (s : Spacing) (level : Nat) : Json → List Char
  | null => "null".toList
  | bool b => if b then "true".toList else "false".toList
  | int n => (toString n).toList
  | float x => (number x).toList
  | string text => '"' :: (escaped text ++ ['"'])
  | array items =>
    if items.isEmpty then ['[', ']']
    else '[' :: (layOutItems s (level + 1) items ++ (s.gap level ++ [']']))
  | object members =>
    if members.isEmpty then ['\x7b', '\x7d']
    else '\x7b' :: (layOutMembers s (level + 1) members ++ (s.gap level ++ ['\x7d']))

def layOutItems (s : Spacing) (level : Nat) : List Json → List Char
  | [] => []
  | item :: rest =>
    s.gap level ++ (layOut s level item ++
      if rest.isEmpty then [] else ',' :: layOutItems s level rest)

def layOutMembers (s : Spacing) (level : Nat) : List (String × Json) → List Char
  | [] => []
  | (key, value) :: rest =>
    s.gap level ++ ('"' :: (escaped key ++ '"' :: ':' :: (s.colon ++ (layOut s level value ++
      if rest.isEmpty then [] else ',' :: layOutMembers s level rest))))

end

theorem toList_quote (text : String) : (quote text).toList = '"' :: (escaped text ++ ['"']) := by
  simp [quote, escaped]

theorem toList_intercalate_cons (separator part : String) (rest : List String) :
    (separator.intercalate (part :: rest)).toList = part.toList ++
      if rest.isEmpty then [] else separator.toList ++ (separator.intercalate rest).toList := by
  cases rest with
  | nil => simp
  | cons next rest => simp [String.toList_intercalate]

/-! ## Without blanks -/

theorem isEmpty_compactItems (items : List Json) :
    (compactItems items).isEmpty = items.isEmpty := by
  cases items <;> rfl

theorem isEmpty_compactMembers (members : List (String × Json)) :
    (compactMembers members).isEmpty = members.isEmpty := by
  rcases members with _ | ⟨⟨key, value⟩, rest⟩ <;> rfl

mutual

theorem toList_compact (level : Nat) :
    (value : Json) → value.compact.toList = layOut .dense level value
  | null => by rw [compact, layOut]
  | bool b => by rw [compact, layOut]; cases b <;> rfl
  | int n => by rw [compact, layOut]
  | float x => by rw [compact, layOut]
  | string s => by rw [compact, layOut, toList_quote]
  | array items => by
    rw [compact, layOut, String.toList_append, String.toList_append,
      toList_compactItems (level + 1) items]
    cases items with
    | nil => rfl
    | cons item rest => rfl
  | object members => by
    rw [compact, layOut, String.toList_append, String.toList_append,
      toList_compactMembers (level + 1) members]
    cases members with
    | nil => rfl
    | cons member rest => rfl

theorem toList_compactItems (level : Nat) : (items : List Json) →
    (",".intercalate (compactItems items)).toList = layOutItems .dense level items
  | [] => by rw [compactItems, layOutItems]; rfl
  | item :: rest => by
    rw [compactItems, layOutItems, toList_intercalate_cons, isEmpty_compactItems,
      toList_compact level item, toList_compactItems level rest]
    rfl

theorem toList_compactMembers (level : Nat) : (members : List (String × Json)) →
    (",".intercalate (compactMembers members)).toList = layOutMembers .dense level members
  | [] => by rw [compactMembers, layOutMembers]; rfl
  | (key, value) :: rest => by
    rw [compactMembers, layOutMembers, toList_intercalate_cons, isEmpty_compactMembers,
      String.toList_append, String.toList_append, toList_compact level value,
      toList_compactMembers level rest, toList_quote]
    simp [Spacing.dense]

end

/-! ## Over several lines -/

theorem toList_newline (level : Nat) : (newline level).toList = Spacing.lines.gap level := by
  simp [newline, Spacing.lines]

theorem isEmpty_prettyItems (level : Nat) (items : List Json) :
    (prettyItems level items).isEmpty = items.isEmpty := by
  cases items <;> rfl

theorem isEmpty_prettyMembers (level : Nat) (members : List (String × Json)) :
    (prettyMembers level members).isEmpty = members.isEmpty := by
  rcases members with _ | ⟨⟨key, value⟩, rest⟩ <;> rfl

/-- The lines of a nested value, each after a new line. -/
theorem toList_block (level : Nat) (opening closing : String) (lines : List String) :
    (block level opening closing lines).toList =
      if lines.isEmpty then opening.toList ++ closing.toList
      else opening.toList ++ (Spacing.lines.gap (level + 1) ++
        ((("," ++ newline (level + 1)).intercalate lines).toList ++
          (Spacing.lines.gap level ++ closing.toList))) := by
  unfold block
  split <;> simp [toList_newline]

mutual

theorem toList_prettyAt (level : Nat) :
    (value : Json) → (prettyAt level value).toList = layOut .lines level value
  | null => by rw [prettyAt, layOut]
  | bool b => by rw [prettyAt, layOut]; cases b <;> rfl
  | int n => by rw [prettyAt, layOut]
  | float x => by rw [prettyAt, layOut]
  | string s => by rw [prettyAt, layOut, toList_quote]
  | array items => by
    have hitems := toList_prettyItems (level + 1) items
    rw [prettyAt, layOut, toList_block, isEmpty_prettyItems]
    split
    · rfl
    · rename_i hne
      rw [← hitems hne]
      simp
  | object members => by
    have hmembers := toList_prettyMembers (level + 1) members
    rw [prettyAt, layOut, toList_block, isEmpty_prettyMembers]
    split
    · rfl
    · rename_i hne
      rw [← hmembers hne]
      simp

theorem toList_prettyItems (level : Nat) : (items : List Json) → ¬ items.isEmpty →
    Spacing.lines.gap level ++
        (("," ++ newline level).intercalate (prettyItems level items)).toList =
      layOutItems .lines level items
  | [], h => absurd rfl h
  | item :: rest, _ => by
    have hrest := toList_prettyItems level rest
    rw [prettyItems, layOutItems, toList_intercalate_cons, isEmpty_prettyItems,
      toList_prettyAt level item]
    split
    · rfl
    · rename_i hne
      rw [← hrest hne, String.toList_append, toList_newline]
      simp

theorem toList_prettyMembers (level : Nat) : (members : List (String × Json)) → ¬ members.isEmpty →
    Spacing.lines.gap level ++
        (("," ++ newline level).intercalate (prettyMembers level members)).toList =
      layOutMembers .lines level members
  | [], h => absurd rfl h
  | (key, value) :: rest, _ => by
    have hrest := toList_prettyMembers level rest
    rw [prettyMembers, layOutMembers, toList_intercalate_cons, isEmpty_prettyMembers,
      String.toList_append, String.toList_append, toList_prettyAt level value, toList_quote]
    split
    · simp [Spacing.lines]
    · rename_i hne
      rw [← hrest hne, String.toList_append, toList_newline]
      simp [Spacing.lines]

end

end SweepCharts.Json
