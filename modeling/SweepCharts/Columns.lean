set_option autoImplicit false

/-! # Columns by name

`Columns α` holds one value a name. The names ascend strictly, so two collections with the same
values are equal, in whatever order they were filled. The order of texts is the order of their code
points, which is also that of their UTF-8 bytes.

* `get?_insert`, `get?_ofList`, `get?_map`, `get?_erase`: what these operations do to the values.
-/

namespace SweepCharts

/-- Values by name, the names in ascending order. -/
structure Columns (α : Type) where
  entries : List (String × α)
  ascending : entries.Pairwise fun a b => a.1 < b.1
  deriving DecidableEq

namespace Columns

variable {α β : Type}

def empty : Columns α := ⟨[], .nil⟩

/-! ## Insertion -/

/-- Adds an entry at its place, or replaces the value of its name. -/
def insertEntry (name : String) (value : α) : List (String × α) → List (String × α)
  | [] => [(name, value)]
  | (other, old) :: rest =>
    if name < other then (name, value) :: (other, old) :: rest
    else if other < name then (other, old) :: insertEntry name value rest
    else (name, value) :: rest

theorem fst_mem_insertEntry {name : String} {value : α} {e : String × α}
    {entries : List (String × α)} (h : e ∈ insertEntry name value entries) :
    e.1 = name ∨ ∃ d ∈ entries, d.1 = e.1 := by
  induction entries with
  | nil => simp_all [insertEntry]
  | cons head rest ih =>
    unfold insertEntry at h
    split at h
    · rcases List.mem_cons.1 h with rfl | h
      · exact .inl rfl
      · exact .inr ⟨e, h, rfl⟩
    · split at h
      · rcases List.mem_cons.1 h with rfl | h
        · exact .inr ⟨_, .head _, rfl⟩
        · rcases ih h with h | ⟨d, hd, he⟩
          · exact .inl h
          · exact .inr ⟨d, .tail _ hd, he⟩
      · rcases List.mem_cons.1 h with rfl | h
        · exact .inl rfl
        · exact .inr ⟨e, .tail _ h, rfl⟩

theorem ascending_insertEntry (name : String) (value : α) {entries : List (String × α)}
    (h : entries.Pairwise fun a b => a.1 < b.1) :
    (insertEntry name value entries).Pairwise fun a b => a.1 < b.1 := by
  induction entries with
  | nil => exact List.pairwise_singleton _ _
  | cons head rest ih =>
    obtain ⟨hhead, hrest⟩ := List.pairwise_cons.1 h
    unfold insertEntry
    split
    · rename_i hlt
      refine List.pairwise_cons.2 ⟨fun e he => ?_, h⟩
      rcases List.mem_cons.1 he with rfl | he
      · exact hlt
      · exact String.lt_trans hlt (hhead e he)
    · rename_i hge
      split
      · rename_i hlt
        refine List.pairwise_cons.2 ⟨fun e he => ?_, ih hrest⟩
        rcases fst_mem_insertEntry he with he | ⟨d, hd, he⟩
        · exact he ▸ hlt
        · exact he ▸ hhead d hd
      · rename_i hle
        have heq : head.1 = name := String.le_antisymm (String.not_lt.1 hge) (String.not_lt.1 hle)
        exact List.pairwise_cons.2 ⟨fun e he => heq ▸ hhead e he, hrest⟩

/-- Sets the value of a name. -/
def insert (columns : Columns α) (name : String) (value : α) : Columns α :=
  ⟨insertEntry name value columns.entries, ascending_insertEntry name value columns.ascending⟩

/-- The columns of a list of entries; of several values for one name the last one stays. -/
def ofList (entries : List (String × α)) : Columns α :=
  entries.foldl (fun columns e => columns.insert e.1 e.2) empty

/-! ## Look-up, map and filter -/

/-- The value of a name in a list of entries. -/
def lookupEntry (name : String) : List (String × α) → Option α
  | [] => none
  | (other, value) :: rest => if name = other then some value else lookupEntry name rest

/-- The value of a name. -/
def get? (columns : Columns α) (name : String) : Option α := lookupEntry name columns.entries

/-- The same names with other values. -/
def map (f : α → β) (columns : Columns α) : Columns β :=
  ⟨columns.entries.map fun e => (e.1, f e.2),
   List.pairwise_map.2 (columns.ascending.imp fun h => h)⟩

/-- The entries that pass a test. -/
def filter (keep : String → α → Bool) (columns : Columns α) : Columns α :=
  ⟨columns.entries.filter fun e => keep e.1 e.2, columns.ascending.filter _⟩

/-- The other names. -/
def erase (columns : Columns α) (name : String) : Columns α :=
  columns.filter fun other _ => other ≠ name

def isEmpty (columns : Columns α) : Bool := columns.entries.isEmpty

/-- Whether there is a value for a name. -/
def contains (columns : Columns α) (name : String) : Bool := (columns.get? name).isSome

/-! ## What the operations do to the values -/

theorem lookupEntry_insertEntry (name other : String) (value : α) (entries : List (String × α)) :
    lookupEntry other (insertEntry name value entries) =
      if other = name then some value else lookupEntry other entries := by
  induction entries with
  | nil => rfl
  | cons head rest ih =>
    obtain ⟨key, old⟩ := head
    unfold insertEntry
    split
    · rfl
    · rename_i hge
      split
      · rename_i hlt
        have hne : key ≠ name := fun h => String.lt_irrefl name (h ▸ hlt)
        simp only [lookupEntry, ih]
        by_cases h : other = key <;> grind
      · rename_i hle
        have heq : key = name := String.le_antisymm (String.not_lt.1 hge) (String.not_lt.1 hle)
        subst heq
        by_cases h : other = key <;> simp [lookupEntry, h]

theorem get?_insert (columns : Columns α) (name other : String) (value : α) :
    (columns.insert name value).get? other =
      if other = name then some value else columns.get? other :=
  lookupEntry_insertEntry name other value columns.entries

theorem get?_foldl_insert (entries : List (String × α)) (columns : Columns α) (name : String) :
    (entries.foldl (fun columns e => columns.insert e.1 e.2) columns).get? name =
      (((entries.filter fun e => e.1 = name).getLast?).map Prod.snd).or (columns.get? name) := by
  induction entries generalizing columns with
  | nil => rfl
  | cons e rest ih =>
    rw [List.foldl_cons, ih, get?_insert]
    by_cases h : e.1 = name
    · rw [if_pos h.symm, List.filter_cons_of_pos (by simpa using h), List.getLast?_cons]
      cases (rest.filter fun e => e.1 = name).getLast? <;> rfl
    · rw [if_neg (Ne.symm h), List.filter_cons_of_neg (by simpa using h)]

/-- Of several values for one name the last one stays. -/
theorem get?_ofList (entries : List (String × α)) (name : String) :
    (ofList entries).get? name =
      ((entries.filter fun e => e.1 = name).getLast?).map Prod.snd := by
  rw [ofList, get?_foldl_insert]
  exact Option.or_none

theorem lookupEntry_map (f : α → β) (name : String) (entries : List (String × α)) :
    lookupEntry name (entries.map fun e => (e.1, f e.2)) = (lookupEntry name entries).map f := by
  induction entries with
  | nil => rfl
  | cons e rest ih =>
    simp only [List.map_cons, lookupEntry, ih]
    split <;> rfl

theorem get?_map (f : α → β) (columns : Columns α) (name : String) :
    (columns.map f).get? name = (columns.get? name).map f :=
  lookupEntry_map f name columns.entries

theorem lookupEntry_erase (name other : String) (entries : List (String × α)) :
    lookupEntry other (entries.filter fun e => e.1 ≠ name) =
      if other = name then none else lookupEntry other entries := by
  induction entries with
  | nil => simp [lookupEntry]
  | cons e rest ih =>
    by_cases he : e.1 = name
    · rw [List.filter_cons_of_neg (by simpa using he), ih]
      split
      · rfl
      · rename_i hne
        simp [lookupEntry, show other ≠ e.1 from he ▸ hne]
    · rw [List.filter_cons_of_pos (by simpa using he)]
      by_cases ho : other = e.1
      · simp [lookupEntry, ho, he]
      · simp only [lookupEntry, if_neg ho, ih]

theorem get?_erase (columns : Columns α) (name other : String) :
    (columns.erase name).get? other = if other = name then none else columns.get? other :=
  lookupEntry_erase name other columns.entries

end Columns

end SweepCharts
