import SweepCharts.Proofs.Json.Spacing

set_option autoImplicit false

/-! # Where a JSON text has a null

A string of a JSON text may hold the four letters of `null`, so a null is looked for outside the
strings. A text is passed from its start, and of a string only the two quotes are kept. Outside its
strings a printed value has an `n` in its nulls alone: numerals, marks and truth values have none.

* `Nulls.append`: the parts of a text.
* `nulls_layOut`: a value in any layout.
* `showsNull_pretty`: **a printed value shows a null iff it has one**, or a double that is not
  finite.
-/

namespace SweepCharts

/-- Where a character of a JSON text stands. -/
inductive JsonPlace where
  | outside | inString | afterBackslash

namespace Json

/-! ## Outside the strings -/

/-- The characters outside the strings of a JSON text, and the quotes of its strings. -/
def outsideStrings : JsonPlace → List Char → List Char
  | _, [] => []
  | .outside, c :: rest =>
    c :: outsideStrings (if c = '"' then .inString else .outside) rest
  | .inString, c :: rest =>
    if c = '"' then c :: outsideStrings .outside rest
    else outsideStrings (if c = '\\' then .afterBackslash else .inString) rest
  | .afterBackslash, _ :: rest => outsideStrings .inString rest

/-- A JSON text with a null outside its strings. -/
def ShowsNull (text : String) : Prop := "null".toList <:+: outsideStrings .outside text.toList

instance (text : String) : Decidable (ShowsNull text) :=
  inferInstanceAs (Decidable (_ <:+: _))

/-- A text that starts and ends outside of strings, and what is left of it without them. -/
def Bare (text bare : List Char) : Prop :=
  ∀ rest, outsideStrings .outside (text ++ rest) = bare ++ outsideStrings .outside rest

theorem Bare.append {text bare text' bare' : List Char} (h : Bare text bare)
    (h' : Bare text' bare') : Bare (text ++ text') (bare ++ bare') := by
  intro rest
  rw [List.append_assoc, h, h', List.append_assoc]

/-- A text without strings. -/
theorem bare_self {text : List Char} (h : ∀ c ∈ text, c ≠ '"') : Bare text text := by
  intro rest
  induction text with
  | nil => rfl
  | cons c text ih =>
    obtain ⟨hc, htext⟩ := List.forall_mem_cons.1 h
    rw [List.cons_append, outsideStrings, if_neg hc, ih htext, List.cons_append]

/-- An escaped character does not end a string. -/
theorem outsideStrings_escape (c : Char) (rest : List Char) :
    outsideStrings .inString (escape c ++ rest) = outsideStrings .inString rest := by
  have hpassed {d : Char} (hquote : d ≠ '"') (hbackslash : d ≠ '\\') (rest : List Char) :
      outsideStrings .inString (d :: rest) = outsideStrings .inString rest := by
    rw [outsideStrings, if_neg hquote, if_neg hbackslash]
  have hpair (d : Char) (rest : List Char) :
      outsideStrings .inString ('\\' :: d :: rest) = outsideStrings .inString rest := by
    rw [outsideStrings, if_neg (by decide), if_pos rfl, outsideStrings]
  have hhex (n : Nat) : hexDigit n ≠ '"' ∧ hexDigit n ≠ '\\' := by
    have hdigits : ∀ digit ∈ List.range 16,
        Nat.digitChar digit ≠ '"' ∧ Nat.digitChar digit ≠ '\\' := by decide
    exact hdigits _ (List.mem_range.2 (Nat.mod_lt n (by decide)))
  unfold escape
  split
  · exact hpair _ _
  split
  · exact hpair _ _
  split
  · exact hpair _ _
  split
  · exact hpair _ _
  split
  · exact hpair _ _
  split
  · exact hpair _ _
  split
  · exact hpair _ _
  rename_i hquote hbackslash _ _ _ _ _
  split
  · rw [List.cons_append, List.cons_append, hpair]
    simp only [List.cons_append, List.nil_append]
    rw [hpassed (by decide) (by decide), hpassed (by decide) (by decide),
      hpassed (hhex _).1 (hhex _).2, hpassed (hhex _).1 (hhex _).2]
  · exact hpassed hquote hbackslash rest

theorem bare_string (text : String) : Bare ('"' :: (escaped text ++ ['"'])) ['"', '"'] := by
  intro rest
  have hescaped : ∀ chars : List Char,
      outsideStrings .inString (chars.flatMap escape ++ '"' :: rest) =
        '"' :: outsideStrings .outside rest := by
    intro chars
    induction chars with
    | nil => rw [List.flatMap_nil, List.nil_append, outsideStrings, if_pos rfl]
    | cons c chars ih => rw [List.flatMap_cons, List.append_assoc, outsideStrings_escape, ih]
  rw [List.cons_append, outsideStrings, if_pos rfl, List.append_assoc]
  exact congrArg ('"' :: ·) (hescaped text.toList)

/-! ## Values with a null -/

mutual

/-- A value with a null in it, or with a double that is written as one. -/
def HasNull : Json → Prop
  | null => True
  | bool _ => False
  | int _ => False
  | float x => x.isFinite = false
  | string _ => False
  | array items => HasNullItem items
  | object members => HasNullMember members

def HasNullItem : List Json → Prop
  | [] => False
  | item :: rest => item.HasNull ∨ HasNullItem rest

def HasNullMember : List (String × Json) → Prop
  | [] => False
  | (_, value) :: rest => value.HasNull ∨ HasNullMember rest

end

theorem hasNull_array {items : List Json} :
    (array items).HasNull ↔ ∃ item ∈ items, item.HasNull := by
  rw [HasNull]
  induction items with
  | nil => simp [HasNullItem]
  | cons item rest ih => rw [HasNullItem, ih, List.exists_mem_cons_iff]

theorem hasNull_object {members : List (String × Json)} :
    (object members).HasNull ↔ ∃ m ∈ members, m.2.HasNull := by
  rw [HasNull]
  induction members with
  | nil => simp [HasNullMember]
  | cons m rest ih => rw [HasNullMember, ih, List.exists_mem_cons_iff]

/-! ## Texts with a null -/

/-- A text that starts and ends outside of strings and has a null outside of them iff `has`. Without
one it has no `n` there, so that none can arise where two texts meet. -/
def Nulls (text : List Char) (has : Prop) : Prop :=
  ∃ bare, Bare text bare ∧ (has → "null".toList <:+: bare) ∧ (¬ has → ∀ c ∈ bare, c ≠ 'n')

theorem Nulls.append {text text' : List Char} {has has' : Prop} (h : Nulls text has)
    (h' : Nulls text' has') : Nulls (text ++ text') (has ∨ has') := by
  obtain ⟨bare, hbare, hsome, hnone⟩ := h
  obtain ⟨bare', hbare', hsome', hnone'⟩ := h'
  refine ⟨bare ++ bare', hbare.append hbare', ?_, fun hno => ?_⟩
  · rintro (hhas | hhas)
    · exact (hsome hhas).trans (List.prefix_append bare bare').isInfix
    · exact (hsome' hhas).trans (List.suffix_append bare bare').isInfix
  · rw [not_or] at hno
    exact List.forall_mem_append.2 ⟨hnone hno.1, hnone' hno.2⟩

theorem Nulls.congr {text : List Char} {has has' : Prop} (h : Nulls text has) (hiff : has ↔ has') :
    Nulls text has' := by
  obtain rfl := propext hiff
  exact h

theorem Nulls.append_none {text text' : List Char} {has : Prop} (h : Nulls text has)
    (h' : Nulls text' False) : Nulls (text ++ text') has :=
  (h.append h').congr (iff_of_eq (or_false has))

/-- A text without strings and nulls. -/
theorem nulls_none {text : List Char} {has : Prop} (hhas : ¬ has)
    (h : ∀ c ∈ text, c ≠ '"' ∧ c ≠ 'n') : Nulls text has :=
  ⟨text, bare_self fun c hc => (h c hc).1, fun hyes => absurd hyes hhas, fun _ c hc => (h c hc).2⟩

/-- A mark before a text. -/
theorem Nulls.cons {c : Char} {text : List Char} {has : Prop} (h : Nulls text has)
    (hquote : c ≠ '"') (hn : c ≠ 'n') : Nulls (c :: text) has := by
  have hc : Nulls [c] False := nulls_none id (List.forall_mem_singleton.2 ⟨hquote, hn⟩)
  exact (hc.append h).congr (iff_of_eq (false_or has))

theorem nulls_null : Nulls "null".toList True :=
  ⟨"null".toList, bare_self (by simp), fun _ => List.infix_rfl, fun h => absurd trivial h⟩

theorem nulls_string (text : String) : Nulls ('"' :: (escaped text ++ ['"'])) False :=
  ⟨['"', '"'], bare_string text, False.elim, fun _ => by simp⟩

theorem nulls_blank {blanks : List Char} (h : ∀ c ∈ blanks, isBlank c = true) :
    Nulls blanks False := by
  refine nulls_none id fun c hc => ?_
  have hblank := h c hc
  constructor <;> (rintro rfl; revert hblank; decide)

theorem nulls_numeral {text : String} (h : Within IsNumeralChar text) :
    Nulls text.toList False := by
  refine nulls_none id fun c hc => ?_
  have hnumeral := h c hc
  constructor <;> (rintro rfl; revert hnumeral; decide)

theorem nulls_number (x : Binary64) : Nulls (number x).toList (x.isFinite = false) := by
  unfold number
  cases hx : x.isFinite with
  | true => exact (nulls_numeral (Layout.within_write_json hx)).congr (by simp)
  | false => exact nulls_null.congr (by simp)

/-! ## Values in a layout -/

mutual

/-- **A value in any layout.** -/
theorem nulls_layOut (s : Spacing) (level : Nat) :
    (value : Json) → Nulls (layOut s level value) value.HasNull
  | null => by
    rw [layOut, HasNull]
    exact nulls_null
  | bool b => by
    rw [layOut, HasNull]
    cases b <;> exact nulls_none id (by simp)
  | int n => by
    rw [layOut, HasNull]
    exact nulls_numeral (within_toString_int (fun _ => .inl) (by decide) n)
  | float x => by
    rw [layOut, HasNull]
    exact nulls_number x
  | string text => by
    rw [layOut, HasNull]
    exact nulls_string text
  | array items => by
    have hitems := nulls_layOutItems s (level + 1) items
    have hclosing : Nulls (s.gap level ++ [']']) False :=
      (nulls_blank (s.gap_blank level)).append_none (nulls_none id (by simp))
    rw [layOut, HasNull]
    cases items with
    | nil => exact nulls_none id (by simp)
    | cons item rest => exact (hitems.append_none hclosing).cons (by decide) (by decide)
  | object members => by
    have hmembers := nulls_layOutMembers s (level + 1) members
    have hclosing : Nulls (s.gap level ++ ['\x7d']) False :=
      (nulls_blank (s.gap_blank level)).append_none (nulls_none id (by simp))
    rw [layOut, HasNull]
    cases members with
    | nil => exact nulls_none id (by simp)
    | cons m rest => exact (hmembers.append_none hclosing).cons (by decide) (by decide)

theorem nulls_layOutItems (s : Spacing) (level : Nat) :
    (items : List Json) → Nulls (layOutItems s level items) (HasNullItem items)
  | [] => by
    rw [layOutItems, HasNullItem]
    exact nulls_none id (by simp)
  | item :: rest => by
    have hrest := nulls_layOutItems s level rest
    have hitem : Nulls (layOut s level item ++
        if rest.isEmpty then [] else ',' :: layOutItems s level rest)
          (item.HasNull ∨ HasNullItem rest) := by
      refine (nulls_layOut s level item).append ?_
      cases rest with
      | nil => exact nulls_none (by simp [HasNullItem]) (by simp)
      | cons next rest => exact hrest.cons (by decide) (by decide)
    rw [layOutItems, HasNullItem]
    exact ((nulls_blank (s.gap_blank level)).append hitem).congr (iff_of_eq (false_or _))

theorem nulls_layOutMembers (s : Spacing) (level : Nat) :
    (members : List (String × Json)) → Nulls (layOutMembers s level members) (HasNullMember members)
  | [] => by
    rw [layOutMembers, HasNullMember]
    exact nulls_none id (by simp)
  | (key, value) :: rest => by
    have hrest := nulls_layOutMembers s level rest
    have hkey : Nulls (s.gap level ++ ('"' :: (escaped key ++ ['"']) ++ ':' :: s.colon)) False :=
      (nulls_blank (s.gap_blank level)).append_none ((nulls_string key).append_none
        ((nulls_blank s.colon_blank).cons (by decide) (by decide)))
    have hvalue : Nulls (layOut s level value ++
        if rest.isEmpty then [] else ',' :: layOutMembers s level rest)
          (value.HasNull ∨ HasNullMember rest) := by
      refine (nulls_layOut s level value).append ?_
      cases rest with
      | nil => exact nulls_none (by simp [HasNullMember]) (by simp)
      | cons next rest => exact hrest.cons (by decide) (by decide)
    have hall := (hkey.append hvalue).congr (iff_of_eq (false_or _))
    rw [layOutMembers, HasNullMember]
    simpa using hall

end

/-- A text shows the nulls that it has. -/
theorem Nulls.showsNull_iff {text : String} {has : Prop} (h : Nulls text.toList has) :
    ShowsNull text ↔ has := by
  obtain ⟨bare, hbare, hsome, hnone⟩ := h
  have hwhole := hbare []
  rw [List.append_nil, outsideStrings, List.append_nil] at hwhole
  unfold ShowsNull
  rw [hwhole]
  refine ⟨fun hnull => ?_, hsome⟩
  by_contra hno
  exact hnone hno 'n' (hnull.subset (.head _)) rfl

/-- **A printed value shows a null** iff it has one, or a double that is not finite. -/
theorem showsNull_pretty (value : Json) : ShowsNull value.pretty ↔ value.HasNull := by
  refine Nulls.showsNull_iff ?_
  rw [pretty, toList_prettyAt]
  exact nulls_layOut .lines 0 value

end Json

end SweepCharts
