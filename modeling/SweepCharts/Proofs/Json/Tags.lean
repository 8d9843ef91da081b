import SweepCharts.Chart.Script
import SweepCharts.Json.Printer
import SweepCharts.Proofs.Number.Layout

set_option autoImplicit false

/-! # JSON texts without tags

A JSON text has no `<` if none of its names and strings has one: numbers and marks have none, and
escapes make none. Program text is released without making one either.

* `tagFree_pretty`: a JSON text.
* `tagFree_release`: a text with its program text released.
-/

namespace SweepCharts

/-- A text in which no tag starts. -/
abbrev TagFree (text : String) : Prop := Within (· ≠ '<') text

@[simp] theorem tagFree_append {s t : String} : TagFree (s ++ t) ↔ TagFree s ∧ TagFree t :=
  within_append

theorem tagFree_ofList {chars : List Char} :
    TagFree (String.ofList chars) ↔ ∀ c ∈ chars, c ≠ '<' := within_ofList

theorem ne_tag_of_isDigit (c : Char) (h : c.isDigit = true) : c ≠ '<' := by
  rintro rfl
  revert h
  decide

theorem tagFree_nat (n : Nat) : TagFree (toString n) := within_toString_nat ne_tag_of_isDigit n

theorem tagFree_int (n : Int) : TagFree (toString n) :=
  within_toString_int ne_tag_of_isDigit (by decide) n

theorem tagFree_writeCount (n : Nat) : TagFree (writeCount n) :=
  within_writeCount ne_tag_of_isDigit (by decide) (by decide) n

/-! ## JSON texts -/

namespace Json

mutual

/-- The names and strings of a value. -/
def texts : Json → List String
  | string s => [s]
  | array items => itemTexts items
  | object members => memberTexts members
  | _ => []

def itemTexts : List Json → List String
  | [] => []
  | item :: rest => item.texts ++ itemTexts rest

def memberTexts : List (String × Json) → List String
  | [] => []
  | (key, value) :: rest => key :: value.texts ++ memberTexts rest

end

/-- No name and no string of the value has a tag. -/
def HasNoTag (value : Json) : Prop := ∀ s ∈ value.texts, TagFree s

theorem tagFree_quote {text : String} (h : TagFree text) : TagFree (quote text) := by
  have hdigits : ∀ digit ∈ List.range 16, Nat.digitChar digit ≠ '<' := by decide
  have hhex (n : Nat) : hexDigit n ≠ '<' :=
    hdigits _ (List.mem_range.2 (Nat.mod_lt n (by decide)))
  have hescape (c : Char) (hc : c ≠ '<') : ∀ d ∈ escape c, d ≠ '<' := by
    unfold escape
    repeat' split
    all_goals simp [hc, hhex]
  unfold quote
  rw [tagFree_append, tagFree_append]
  refine ⟨⟨by decide, tagFree_ofList.2 fun d hd => ?_⟩, by decide⟩
  obtain ⟨c, hc, hd⟩ := List.mem_flatMap.1 hd
  exact hescape c (h c hc) d hd

theorem tagFree_number (x : Binary64) : TagFree (number x) := by
  unfold number
  split
  · rename_i hx
    refine (Layout.within_write_json hx).mono fun c hc => ?_
    rintro rfl
    revert hc
    decide
  · decide

theorem tagFree_newline (level : Nat) : TagFree (newline level) := by
  unfold newline
  rw [tagFree_append]
  refine ⟨by decide, tagFree_ofList.2 fun c hc => ?_⟩
  obtain rfl : c = ' ' := List.eq_of_mem_replicate hc
  decide

theorem tagFree_block {level : Nat} {opening closing : String} {lines : List String}
    (hopening : TagFree opening) (hclosing : TagFree closing) (h : ∀ line ∈ lines, TagFree line) :
    TagFree (block level opening closing lines) := by
  have hlines : TagFree (("," ++ newline (level + 1)).intercalate lines) :=
    within_intercalate (within_append.2 ⟨by decide, tagFree_newline _⟩) h
  unfold block
  split <;> simp [hopening, hclosing, hlines, tagFree_newline]

mutual

theorem tagFree_prettyAt (level : Nat) :
    (value : Json) → value.HasNoTag → TagFree (prettyAt level value)
  | null, _ => by rw [prettyAt]; decide
  | bool b, _ => by rw [prettyAt]; cases b <;> decide
  | int n, _ => by rw [prettyAt]; exact tagFree_int n
  | float x, _ => by rw [prettyAt]; exact tagFree_number x
  | string s, h => by rw [prettyAt]; exact tagFree_quote (h s (by simp [texts]))
  | array items, h => by
    rw [prettyAt]
    exact tagFree_block (by decide) (by decide)
      (tagFree_prettyItems (level + 1) items fun s hs => h s (by rwa [texts]))
  | object members, h => by
    rw [prettyAt]
    exact tagFree_block (by decide) (by decide)
      (tagFree_prettyMembers (level + 1) members fun s hs => h s (by rwa [texts]))

theorem tagFree_prettyItems (level : Nat) : (items : List Json) →
    (∀ s ∈ itemTexts items, TagFree s) → ∀ line ∈ prettyItems level items, TagFree line
  | [], _ => by simp [prettyItems]
  | item :: rest, h => by
    simp only [itemTexts, List.forall_mem_append] at h
    rw [prettyItems, List.forall_mem_cons]
    exact ⟨tagFree_prettyAt level item h.1, tagFree_prettyItems level rest h.2⟩

theorem tagFree_prettyMembers (level : Nat) : (members : List (String × Json)) →
    (∀ s ∈ memberTexts members, TagFree s) → ∀ line ∈ prettyMembers level members, TagFree line
  | [], _ => by simp [prettyMembers]
  | (key, value) :: rest, h => by
    simp only [memberTexts, List.cons_append, List.forall_mem_cons, List.forall_mem_append] at h
    rw [prettyMembers, List.forall_mem_cons, tagFree_append, tagFree_append]
    exact ⟨⟨⟨tagFree_quote h.1, by decide⟩, tagFree_prettyAt level value h.2.1⟩,
      tagFree_prettyMembers level rest h.2.2⟩

end

/-- **A JSON text has a tag only in its names and strings.** -/
theorem tagFree_pretty {value : Json} (h : value.HasNoTag) : TagFree value.pretty :=
  tagFree_prettyAt 0 value h

/-! ### Values without tags -/

@[simp] theorem hasNoTag_bool (b : Bool) : (bool b).HasNoTag := nofun

@[simp] theorem hasNoTag_int (n : Int) : (int n).HasNoTag := nofun

@[simp] theorem hasNoTag_float (x : Binary64) : (float x).HasNoTag := nofun

@[simp] theorem hasNoTag_string {s : String} : (string s).HasNoTag ↔ TagFree s := by
  simp [HasNoTag, texts]

@[simp] theorem hasNoTag_array {items : List Json} :
    (array items).HasNoTag ↔ ∀ item ∈ items, item.HasNoTag := by
  unfold HasNoTag
  rw [texts]
  induction items with
  | nil => simp [itemTexts]
  | cons item items ih => rw [itemTexts, List.forall_mem_append, List.forall_mem_cons, ih]

@[simp] theorem hasNoTag_object {members : List (String × Json)} :
    (object members).HasNoTag ↔ ∀ m ∈ members, TagFree m.1 ∧ m.2.HasNoTag := by
  unfold HasNoTag
  rw [texts]
  induction members with
  | nil => simp [memberTexts]
  | cons m members ih =>
    rw [memberTexts, List.cons_append, List.forall_mem_cons, List.forall_mem_append,
      List.forall_mem_cons, ih, and_assoc]

@[simp] theorem hasNoTag_single {key : String} {value : Json} :
    (single key value).HasNoTag ↔ TagFree key ∧ value.HasNoTag := by
  simp [single]

@[simp] theorem hasNoTag_floats (xs : List Binary64) : (floats xs).HasNoTag := by
  simp [floats]

theorem forall_mem_listMember {key : String} {items : List Json} (hkey : TagFree key)
    (h : ∀ item ∈ items, item.HasNoTag) :
    ∀ m ∈ listMember key items, TagFree m.1 ∧ m.2.HasNoTag := by
  unfold listMember
  split
  · exact nofun
  · simpa using ⟨hkey, h⟩

theorem forall_mem_listMember_map {α : Type} {key : String} {write : α → Json} {values : List α}
    (hkey : TagFree key) (h : ∀ a ∈ values, (write a).HasNoTag) :
    ∀ m ∈ listMember key (values.map write), TagFree m.1 ∧ m.2.HasNoTag :=
  forall_mem_listMember hkey (List.forall_mem_map.2 h)

end Json

/-! ## Program text -/

theorem unescape_ne_tag {c : Char} (h : c ≠ '<') : Script.unescape c ≠ '<' := by
  unfold Script.unescape
  split
  all_goals first | exact h | decide

/-- Program text is released without a tag, by induction on the two readers at once. -/
theorem tagFree_release {text : String} (h : TagFree text) : TagFree (Script.release text) := by
  have hboth := Script.releaseOutside.mutual_induct
    (fun chars => (∀ c ∈ chars, c ≠ '<') → ∀ c ∈ Script.releaseOutside chars, c ≠ '<')
    (fun chars => (∀ c ∈ chars, c ≠ '<') → ∀ c ∈ Script.releaseInside chars, c ≠ '<')
  unfold Script.release
  rw [tagFree_ofList]
  refine (hboth ?_ ?_ ?_ ?_ ?_ ?_ ?_).1 text.toList h
  · intro rest ih hrest
    rw [Script.releaseOutside]
    simp only [List.forall_mem_cons] at hrest
    exact ih hrest.2.2.2.2.2.2.2.2
  · intro c rest hmark ih hrest
    rw [Script.releaseOutside.eq_2 c rest hmark]
    rw [List.forall_mem_cons] at hrest ⊢
    exact ⟨hrest.1, ih hrest.2⟩
  · intro h
    rwa [Script.releaseOutside]
  · intro rest ih hrest
    rw [Script.releaseInside]
    simp only [List.forall_mem_cons] at hrest
    exact ih hrest.2.2.2.2.2.2.2.2
  · intro c rest ih hrest
    rw [Script.releaseInside]
    simp only [List.forall_mem_cons] at hrest ⊢
    exact ⟨unescape_ne_tag hrest.2.1, ih hrest.2.2⟩
  · intro c rest hmark hescape ih hrest
    rw [Script.releaseInside.eq_3 c rest hmark hescape]
    rw [List.forall_mem_cons] at hrest ⊢
    exact ⟨hrest.1, ih hrest.2⟩
  · intro h
    rwa [Script.releaseInside]

end SweepCharts
