import SweepCharts.Files.Path

set_option autoImplicit false

/-! # The path of a file in a directory

The text of a name in a directory is read as the steps of the directory with one step more, however
the directory is written. The empty text stands for the directory where relative paths start.

* `segments_append_slash`: a slash ends a segment.
* `ofChars_join`, `ofText_join`: what the text of a name in a directory leads to.
-/

namespace SweepCharts.Path

/-! ## Segments -/

theorem segments_slash (rest : List Char) : segments ('/' :: rest) = [] :: segments rest := rfl

theorem segments_cons {c : Char} (h : c ≠ '/') {rest first : List Char}
    {others : List (List Char)} (hrest : segments rest = first :: others) :
    segments (c :: rest) = (c :: first) :: others := by
  rw [segments.eq_def]
  split
  · rename_i heq
    cases heq
  · rename_i heq
    exact absurd (List.cons.inj heq).1 h
  · rename_i heq
    obtain ⟨rfl, rfl⟩ := List.cons.inj heq
    rw [hrest]

theorem exists_segments (text : List Char) :
    ∃ first others, segments text = first :: others := by
  induction text with
  | nil => exact ⟨[], [], rfl⟩
  | cons c rest ih =>
    obtain ⟨first, others, hrest⟩ := ih
    by_cases h : c = '/'
    · exact ⟨[], segments rest, by rw [h, segments_slash]⟩
    · exact ⟨c :: first, others, segments_cons h hrest⟩

theorem segments_append_slash (text more : List Char) :
    segments (text ++ '/' :: more) = segments text ++ segments more := by
  induction text with
  | nil => rfl
  | cons c rest ih =>
    by_cases h : c = '/'
    · rw [h, List.cons_append, segments_slash, segments_slash, ih, List.cons_append]
    · obtain ⟨first, others, hrest⟩ := exists_segments rest
      rw [hrest, List.cons_append] at ih
      rw [List.cons_append, segments_cons h ih, segments_cons h hrest, List.cons_append]

theorem segments_of_not_mem {name : List Char} (h : '/' ∉ name) : segments name = [name] := by
  induction name with
  | nil => rfl
  | cons c rest ih =>
    obtain ⟨hc, hrest⟩ := not_or.1 (mt List.mem_cons.2 h)
    exact segments_cons (Ne.symm hc) (ih hrest)

/-! ## Names -/

/-- A name that a file can have in any directory. -/
structure IsFileName (name : String) : Prop where
  ne_empty : name.toList ≠ []
  ne_dot : name.toList ≠ ['.']
  ne_dots : name.toList ≠ ['.', '.']
  no_slash : '/' ∉ name.toList
  short : name.utf8ByteSize ≤ 255

theorem isFileName_iff {name : String} : IsFileName name ↔
    name.toList ≠ [] ∧ name.toList ≠ ['.'] ∧ name.toList ≠ ['.', '.'] ∧ '/' ∉ name.toList ∧
      name.utf8ByteSize ≤ 255 :=
  ⟨fun h => ⟨h.ne_empty, h.ne_dot, h.ne_dots, h.no_slash, h.short⟩,
   fun ⟨h, hdot, hdots, hslash, hshort⟩ => ⟨h, hdot, hdots, hslash, hshort⟩⟩

instance (name : String) : Decidable (IsFileName name) := decidable_of_iff' _ isFileName_iff

section
variable {name : String} (h : IsFileName name)
include h

theorem IsFileName.step?_toList : step? name.toList = some (.down name) := by
  rw [step?, if_neg (not_or.2 ⟨h.ne_empty, h.ne_dot⟩), if_neg h.ne_dots, String.ofList_toList]

theorem IsFileName.ne_slash_of_getLast? : name.toList.getLast? ≠ some '/' := fun hlast =>
  h.no_slash (List.mem_of_getLast? hlast)

theorem IsFileName.ofChars_toList : ofChars name.toList = ⟨false, [.down name], .name⟩ := by
  have hhead : ¬ name.toList.head? = some '/' := fun hhead => h.no_slash (List.mem_of_head? hhead)
  have hend : endOf name.toList = .name := by
    simp [endOf, segments_of_not_mem h.no_slash, h.ne_empty, h.ne_dot, h.ne_slash_of_getLast?]
  simp [ofChars, segments_of_not_mem h.no_slash, h.step?_toList, hhead, hend]

/-- One step more, whatever the text before the slash ends in. -/
theorem IsFileName.ofChars_append (text : List Char) :
    ofChars (text ++ '/' :: name.toList) =
      ⟨(text ++ ['/']).head? = some '/', (segments text).filterMap step? ++ [.down name],
        .name⟩ := by
  have hsegments : segments (text ++ '/' :: name.toList) = segments text ++ [name.toList] := by
    rw [segments_append_slash, segments_of_not_mem h.no_slash]
  have hhead : (text ++ '/' :: name.toList).head? = (text ++ ['/']).head? := by cases text <;> rfl
  have hlast : (text ++ '/' :: name.toList).getLast? = name.toList.getLast? := by
    obtain ⟨c, hc⟩ := Option.ne_none_iff_exists'.1 (mt List.getLast?_eq_none_iff.1 h.ne_empty)
    rw [List.append_cons, List.getLast?_append, hc, Option.some_or]
  have hend : endOf (text ++ '/' :: name.toList) = .name := by
    simp [endOf, hsegments, List.filter_append, h.ne_empty, h.ne_dot, hlast,
      h.ne_slash_of_getLast?]
  rw [ofChars, hend, hsegments, hhead, List.filterMap_append]
  simp [h.step?_toList]

end

/-! ## Directories -/

/-- The path of a directory that files are written into. -/
def ofFolder (dir : String) : Except OsError Path :=
  if dir.isEmpty then .ok ⟨false, [], .name⟩ else ofText dir

theorem ofText_eq_ok_iff {text : String} {p : Path} :
    ofText text = .ok p ↔ '\x00' ∉ text.toList ∧ text ≠ "" ∧ text.utf8ByteSize ≤ maxBytes ∧
      p = ofChars text.toList := by
  unfold ofText
  split
  · rename_i h
    simp [List.contains_iff_mem.1 h]
  · rename_i h
    have hnul : '\x00' ∉ text.toList := fun hmem => h (List.contains_iff_mem.2 hmem)
    split
    · rename_i hempty
      simp [String.isEmpty_iff.1 hempty]
    · rename_i hempty
      have hne : text ≠ "" := fun heq => hempty (String.isEmpty_iff.2 heq)
      split
      · rename_i hlong
        simp [Nat.not_le.2 hlong]
      · rename_i hlong
        simp [hnul, hne, Nat.not_lt.1 hlong, eq_comm]

/-- The text of a directory before a slash, if it does not end in one already. -/
theorem exists_toList_join {dir : String} (h : dir ≠ "") (name : String) :
    ∃ text, (join dir name).toList = text ++ '/' :: name.toList ∧
      (dir.toList = text ∨ dir.toList = text ++ ['/']) := by
  have hempty : dir.isEmpty = false := by rw [Bool.eq_false_iff, ne_eq, String.isEmpty_iff]; exact h
  by_cases hslash : dir.endsWith "/" = true
  · have hsuffix : ['/'] <:+ dir.toList := by
      rw [String.endsWith_eq_endsWith_toSlice, String.Slice.endsWith_string_iff,
        String.copy_toSlice] at hslash
      exact hslash
    obtain ⟨text, htext⟩ := hsuffix
    refine ⟨text, ?_, .inr htext.symm⟩
    rw [join, if_pos (.inr hslash), String.toList_append, ← htext, List.append_assoc]
    rfl
  · refine ⟨dir.toList, ?_, .inl rfl⟩
    rw [join, if_neg (by simp [hempty, hslash]), String.toList_append, String.toList_append,
      List.append_assoc]
    rfl

theorem utf8ByteSize_le_join (dir name : String) :
    dir.utf8ByteSize + name.utf8ByteSize ≤ (join dir name).utf8ByteSize := by
  unfold join
  split
  · exact Nat.le_of_eq String.utf8ByteSize_append.symm
  · rw [String.utf8ByteSize_append, String.utf8ByteSize_append]
    omega

/-- One step more, however the directory is written. -/
theorem ofChars_join {dir name : String} (hdir : dir ≠ "") (hname : IsFileName name) :
    ofChars (join dir name).toList = ⟨(ofChars dir.toList).absolute,
      (ofChars dir.toList).steps ++ [.down name], .name⟩ := by
  obtain ⟨text, htext, hcases⟩ := exists_toList_join hdir name
  have hne : dir.toList ≠ [] := fun hnil => hdir (String.toList_eq_nil_iff.1 hnil)
  rw [htext, hname.ofChars_append]
  rcases hcases with hcases | hcases
  · obtain ⟨c, hc⟩ :=
      Option.ne_none_iff_exists'.1 (mt List.head?_eq_none_iff.1 (hcases ▸ hne))
    rw [hcases, List.head?_append, hc, Option.some_or]
    simp only [ofChars, hc]
  · have hsteps : (segments (text ++ ['/'])).filterMap step? =
        (segments text).filterMap step? := by
      rw [segments_append_slash, List.filterMap_append]
      simp [segments, step?]
    rw [hcases]
    simp only [ofChars, hsteps]

/-- **A name in a directory** is one step down from it. -/
theorem ofText_join {dir name : String} (hname : IsFileName name) {q : Path}
    (h : ofText (join dir name) = .ok q) :
    ∃ p, ofFolder dir = .ok p ∧ q = ⟨p.absolute, p.steps ++ [.down name], .name⟩ := by
  obtain ⟨hnul, -, hshort, rfl⟩ := ofText_eq_ok_iff.1 h
  by_cases hdir : dir = ""
  · subst hdir
    refine ⟨⟨false, [], .name⟩, rfl, ?_⟩
    have hjoin : join "" name = name := by
      rw [join, if_pos (.inl rfl), String.empty_append]
    rw [hjoin, hname.ofChars_toList]
    rfl
  · obtain ⟨text, htext, hcases⟩ := exists_toList_join hdir name
    have hsubset : dir.toList ⊆ (join dir name).toList := by
      rw [htext]
      rcases hcases with hcases | hcases
      · rw [hcases]
        exact List.subset_append_left _ _
      · rw [hcases]
        intro c hc
        rcases List.mem_append.1 hc with hc | hc
        · exact List.mem_append_left _ hc
        · exact List.mem_append_right _ (List.mem_singleton.1 hc ▸ List.mem_cons_self)
    have hok : ofText dir = .ok (ofChars dir.toList) :=
      ofText_eq_ok_iff.2 ⟨fun hmem => hnul (hsubset hmem), hdir,
        Nat.le_trans (Nat.le_of_add_right_le (utf8ByteSize_le_join dir name)) hshort, rfl⟩
    refine ⟨ofChars dir.toList, ?_, ofChars_join hdir hname⟩
    rw [ofFolder, if_neg (by rw [String.isEmpty_iff]; exact hdir)]
    exact hok

end SweepCharts.Path
