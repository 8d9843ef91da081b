import SweepCharts.Proofs.Sweep.Dump

set_option autoImplicit false

/-! # Cells read back from JSON

The JSON text of a cell has no mark of its kind, so the kind has to be found in the text itself. A
text has quotes. An integer has digits and a minus only, while a double always has a point or a
power of ten, so neither of them is read as the other. Whether a double comes back as the same one
depends on the digits that are printed; nothing else does.

* `Layout.marked_write`: the point or the power of ten of a double.
* `Json.read?_write`: a double is read as the double of its digits, or not at all.
* `json_keeps_kind`: **a cell keeps its kind and its value.**
-/

namespace SweepCharts

/-! ## What sets a double apart -/

/-- A text with a point or with a power of ten. -/
def Marked (text : List Char) : Prop := '.' ∈ text ∨ 'e' ∈ text

theorem Marked.append_left {text : List Char} (h : Marked text) (front : List Char) :
    Marked (front ++ text) :=
  h.imp (List.mem_append_right front) (List.mem_append_right front)

namespace Layout

theorem marked_writePositional (d : Digits) : Marked (json.writePositional d).toList := by
  unfold writePositional
  dsimp only
  split
  · rw [String.toList_append]
    exact Marked.append_left (.inl (by decide)) _
  · rw [String.toList_ofList]
    exact .inl (List.mem_append_right _ (.head _))

theorem marked_writeScientific (d : Digits) : Marked (writeScientific d).toList := by
  unfold writeScientific
  dsimp only
  simp only [String.toList_append]
  exact .inr (by simp)

/-- **A double is written with a point or a power of ten**, however whole it is. -/
theorem marked_write {x : Binary64} (h : x.isFinite = true) : Marked (json.write x).toList := by
  unfold write
  dsimp only
  rw [if_neg (by simp [Binary64.isNaN_of_isFinite h]), if_neg (by simp [h])]
  split
  · rw [String.toList_append]
    exact Marked.append_left (.inl (by decide)) _
  · rw [String.toList_append]
    refine Marked.append_left ?_ _
    split
    · exact marked_writePositional _
    · exact marked_writeScientific _

end Layout

/-! ## What a double is read as -/

namespace Json

namespace Numeral

variable {text left : List Char}

/-- The double of a numeral, also of a whole one. -/
def double? (n : Numeral) : Option Binary64 :=
  n.toBinary64?.map fun x => if n.negative then -x else x

theorem eq_of_readFraction?_none (h : readFraction? text = some (none, left)) : left = text := by
  unfold readFraction? at h
  split at h
  · dsimp only at h
    split at h <;> cases h
  · exact (Prod.mk.inj (Option.some.inj h)).2.symm

theorem eq_of_readExponent?_none (h : readExponent? text = some (none, left)) : left = text := by
  unfold readExponent? at h
  split at h
  · dsimp only at h
    split at h
    · split at h <;> cases h
    · exact (Prod.mk.inj (Option.some.inj h)).2.symm
  · exact (Prod.mk.inj (Option.some.inj h)).2.symm

/-- A numeral with neither a point nor a power would be a minus and digits. -/
theorem isSome_of_marked {n : Numeral} (h : read? text = some (n, [])) (hmarked : Marked text) :
    n.fraction.isSome = true ∨ n.exponent.isSome = true := by
  by_contra hnone
  rw [not_or, Bool.not_eq_true, Option.isSome_eq_false_iff, Option.isNone_iff_eq_none,
    Bool.not_eq_true, Option.isSome_eq_false_iff, Option.isNone_iff_eq_none] at hnone
  obtain ⟨-, -, afterWhole, afterFraction, hspan, hfraction, hexponent⟩ := read?_eq_some_iff.1 h
  rw [hnone.1] at hfraction
  rw [hnone.2] at hexponent
  obtain rfl : [] = afterFraction := eq_of_readExponent?_none hexponent
  obtain rfl : [] = afterWhole := eq_of_readFraction?_none hfraction
  have hdigits : ∀ c ∈ (readMinus text).2, c.isDigit = true := by
    rw [List.span_eq_takeWhile_dropWhile] at hspan
    rw [← List.takeWhile_append_dropWhile (p := Char.isDigit) (l := (readMinus text).2),
      (Prod.mk.inj hspan).2, List.append_nil]
    exact fun c hc => List.mem_takeWhile_imp hc
  have hchars : ∀ c ∈ text, c = '-' ∨ c.isDigit = true := by
    unfold readMinus at hdigits
    split at hdigits
    · exact List.forall_mem_cons.2 ⟨.inl rfl, fun c hc => .inr (hdigits c hc)⟩
    · exact fun c hc => .inr (hdigits c hc)
  rcases hmarked with hpoint | hpower
  · exact absurd (hchars '.' hpoint) (by decide)
  · exact absurd (hchars 'e' hpower) (by decide)

/-- A numeral with a point or a power is a double. -/
theorem toJson?_of_marked {n : Numeral} (h : read? text = some (n, [])) (hmarked : Marked text) :
    n.toJson? = n.double?.map .float := by
  have hint : n.toInt? = none := by
    unfold toInt?
    dsimp only
    rw [if_pos (by rw [Bool.or_eq_true]; exact isSome_of_marked h hmarked)]
  rw [toJson?, hint, double?, Option.map_map]
  rfl

end Numeral

/-- The double that a text is for, if the text is a numeral, whole or not. -/
def readDouble? (text : String) : Option Binary64 :=
  match Numeral.read? text.toList with
  | some (n, []) => n.double?
  | _ => none

theorem readDouble?_eq_some_iff {text : String} {x : Binary64} : readDouble? text = some x ↔
    ∃ n, Numeral.read? text.toList = some (n, []) ∧ n.double? = some x := by
  unfold readDouble?
  split
  · rename_i n hn
    simp [hn]
  · rename_i hnone
    exact iff_of_false nofun fun ⟨n, hn, _⟩ => hnone n hn

/-- A text of numeral characters has the value of the one numeral that it is. -/
theorem read?_eq_some_iff {text : String} (hne : text ≠ "") (hchars : Within IsNumeralChar text)
    {value : Json} : read? text = some value ↔
      ∃ n, Numeral.read? text.toList = some (n, []) ∧ n.toJson? = some value := by
  have hstarts : StartsNumber text.toList := StartsNumber.of_within (by simpa using hne) hchars
  constructor
  · intro h
    have hscalar : readScalar? (text.toList ++ []) = some (value, []) :=
      readScalar?_of_read? hne hchars h nofun
    rw [List.append_nil, readScalar?_of_startsNumber hstarts, Option.bind_eq_some_iff] at hscalar
    obtain ⟨⟨n, left⟩, hn, hvalue⟩ := hscalar
    obtain ⟨v, hv, heq⟩ := Option.map_eq_some_iff.1 hvalue
    obtain ⟨rfl, rfl⟩ := Prod.mk.inj heq
    exact ⟨n, hn, hv⟩
  · rintro ⟨n, hn, hvalue⟩
    exact read?_of_numeral hstarts hn hvalue

/-- **A double is read as the double of its digits**, or not at all. -/
theorem read?_write {x : Binary64} (h : x.isFinite = true) :
    read? (Layout.json.write x) = (readDouble? (Layout.json.write x)).map float := by
  have hmarked := Layout.marked_write h
  have hne : Layout.json.write x ≠ "" := by
    intro hempty
    rw [hempty] at hmarked
    simp [Marked] at hmarked
  apply Option.ext
  intro value
  rw [read?_eq_some_iff hne (Layout.within_write_json h), Option.map_eq_some_iff]
  simp only [readDouble?_eq_some_iff]
  constructor
  · rintro ⟨n, hn, hvalue⟩
    rw [Numeral.toJson?_of_marked hn hmarked, Option.map_eq_some_iff] at hvalue
    obtain ⟨y, hy, rfl⟩ := hvalue
    exact ⟨y, ⟨n, hn, hy⟩, rfl⟩
  · rintro ⟨y, ⟨n, hn, hy⟩, rfl⟩
    exact ⟨n, hn, by rw [Numeral.toJson?_of_marked hn hmarked, hy]; rfl⟩

end Json

/-! ## Cells -/

namespace Cell

/-- Two integers, two doubles or two texts. -/
def SameKind : Cell → Cell → Prop
  | int _, int _ => True
  | float _, float _ => True
  | text _, text _ => True
  | _, _ => False

/-- What a finite double comes back as. -/
theorem readJson?_float {x : Binary64} (h : x.isFinite = true) :
    readJson? (float x).toJson.compact =
      (Json.readDouble? (Layout.json.write x)).map float := by
  have htext : (float x).toJson.compact = Layout.json.write x := by
    rw [toJson, Json.compact, Json.number, if_pos h]
  rw [readJson?, htext, Json.read?_write h]
  cases Json.readDouble? (Layout.json.write x) <;> rfl

/-- Integers and texts are read back without any condition on digits. -/
theorem readJson?_of_readable {cell : Cell} (hcell : cell.Storable)
    (h : cell.toJson.Readable) : readJson? cell.toJson.compact = some cell := by
  rw [readJson?, Json.read?_compact h]
  exact hcell.ofJson?_toJson

end Cell

/-- **A cell keeps its kind and its value in JSON.** What an integer of 64 bits, a finite double or
any text is read back as has the same kind, and it is the same cell, of a double provided that the
printed digits stand for that double. -/
theorem json_keeps_kind (cell : Cell) (h : cell.Storable) :
    (∀ back, Cell.readJson? cell.toJson.compact = some back → cell.SameKind back) ∧
      ((∀ x, cell = .float x → Json.readDouble? (Layout.json.write x) = some x) →
        Cell.readJson? cell.toJson.compact = some cell) := by
  cases cell with
  | int n =>
    have hback := Cell.readJson?_of_readable h (fitsInt_of_fits64 h)
    exact ⟨fun back hread => Option.some.inj (hback.symm.trans hread) ▸ trivial, fun _ => hback⟩
  | text s =>
    have hback := Cell.readJson?_of_readable h trivial
    exact ⟨fun back hread => Option.some.inj (hback.symm.trans hread) ▸ trivial, fun _ => hback⟩
  | float x =>
    have hback := Cell.readJson?_float h
    refine ⟨fun back hread => ?_, fun hprinter => ?_⟩
    · rw [hback, Option.map_eq_some_iff] at hread
      obtain ⟨y, -, rfl⟩ := hread
      trivial
    · rw [hback, hprinter x rfl]
      rfl

/-- An integer, two doubles without a fraction, one of them a zero with a minus, and texts that look
like a number and a word. -/
theorem json_keeps_kind_whole_doubles :
    let minusZero := Binary64.ofMagnitudeBits true 0
    let large := Binary64.ofInt (10 ^ 16)
    (Cell.int (-7)).Storable ∧ (Cell.float minusZero).Storable ∧ (Cell.float large).Storable ∧
      Json.readDouble? (Layout.json.write minusZero) = some minusZero ∧
      Json.readDouble? (Layout.json.write large) = some large ∧
      Cell.readJson? (Cell.int (-7)).toJson.compact = some (.int (-7)) ∧
      Cell.readJson? (Cell.float minusZero).toJson.compact = some (.float minusZero) ∧
      Cell.readJson? (Cell.float large).toJson.compact = some (.float large) ∧
      Cell.readJson? (Cell.text "-0").toJson.compact = some (.text "-0") ∧
      Cell.readJson? (Cell.text "null").toJson.compact = some (.text "null") := by
  intro minusZero large
  have hint : (Cell.int (-7)).Storable := show fits64 (-7) = true by decide
  have hminusZero : (Cell.float minusZero).Storable :=
    show minusZero.isFinite = true by decide +kernel
  have hlarge : (Cell.float large).Storable := show large.isFinite = true by decide +kernel
  have hminusZeroBack : Json.readDouble? (Layout.json.write minusZero) = some minusZero := by
    decide +kernel
  have hlargeBack : Json.readDouble? (Layout.json.write large) = some large := by decide +kernel
  exact ⟨hint, hminusZero, hlarge, hminusZeroBack, hlargeBack,
    (json_keeps_kind _ hint).2 nofun,
    (json_keeps_kind _ hminusZero).2 fun x hx => Cell.float.inj hx ▸ hminusZeroBack,
    (json_keeps_kind _ hlarge).2 fun x hx => Cell.float.inj hx ▸ hlargeBack,
    (json_keeps_kind (.text "-0") trivial).2 nofun,
    (json_keeps_kind (.text "null") trivial).2 nofun⟩

end SweepCharts
