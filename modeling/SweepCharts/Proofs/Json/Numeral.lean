import Mathlib.Data.List.TakeDrop
import Mathlib.Data.List.TakeWhile
import Mathlib.Tactic.IntervalCases
import SweepCharts.Json.Reader
import SweepCharts.Proofs.Number.Layout

set_option autoImplicit false

/-! # Numerals inside JSON texts

A numeral is read up to the first character that cannot go on with it, so what follows it in a
longer text makes no difference. Integers of 64 bits are read back from their digits.

* `Numeral.read?_append`: a numeral with more text after it.
* `readScalar?_int`, `readScalar?_of_read?`: the numbers in a text.
-/

namespace SweepCharts.Json

/-- A text that does not go on with a numeral before it. -/
def EndsNumeral (rest : List Char) : Prop :=
  ∀ c ∈ rest.head?, c.isDigit = false ∧ c ≠ '.' ∧ c ≠ 'e' ∧ c ≠ 'E'

theorem span_append {p : Char → Bool} {rest : List Char} (h : ∀ c ∈ rest.head?, p c = false)
    (text : List Char) :
    (text ++ rest).span p = ((text.span p).1, (text.span p).2 ++ rest) := by
  simp only [List.span_eq_takeWhile_dropWhile]
  induction text with
  | nil =>
    cases rest with
    | nil => rfl
    | cons c rest => simp [h c rfl]
  | cons c text ih =>
    cases hc : p c with
    | false => simp [hc]
    | true => simpa [hc] using ih

theorem span_of_forall {p : Char → Bool} {text : List Char} (h : ∀ c ∈ text, p c = true) :
    text.span p = (text, []) := by
  rw [List.span_eq_takeWhile_dropWhile, List.takeWhile_eq_self_iff.2 h,
    List.dropWhile_eq_nil_iff.2 h]

theorem suffix_span (p : Char → Bool) (text : List Char) : (text.span p).2 <:+ text := by
  rw [List.span_eq_takeWhile_dropWhile]
  exact List.dropWhile_suffix p

namespace Numeral

variable {text rest left : List Char}

/-! ## What is read is a beginning -/

theorem suffix_readFraction? {fraction : Option (List Char)}
    (h : readFraction? text = some (fraction, left)) : left <:+ text := by
  unfold readFraction? at h
  split at h
  · rename_i digits
    dsimp only at h
    split at h
    · cases h
    · obtain ⟨-, rfl⟩ := Prod.mk.inj (Option.some.inj h)
      exact (suffix_span _ _).trans (List.suffix_cons _ _)
  · obtain ⟨-, rfl⟩ := Prod.mk.inj (Option.some.inj h)
    exact List.suffix_rfl

theorem suffix_readSign (text : List Char) : (readSign text).2 <:+ text := by
  unfold readSign
  split
  · exact List.suffix_cons _ _
  · exact List.suffix_cons _ _
  · exact List.suffix_rfl

theorem suffix_readExponent? {exponent : Option (Bool × List Char)}
    (h : readExponent? text = some (exponent, left)) : left <:+ text := by
  unfold readExponent? at h
  split at h
  · rename_i c digits
    dsimp only at h
    split at h
    · split at h
      · cases h
      · obtain ⟨-, rfl⟩ := Prod.mk.inj (Option.some.inj h)
        exact ((suffix_span _ _).trans (suffix_readSign _)).trans (List.suffix_cons _ _)
    · obtain ⟨-, rfl⟩ := Prod.mk.inj (Option.some.inj h)
      exact List.suffix_rfl
  · obtain ⟨-, rfl⟩ := Prod.mk.inj (Option.some.inj h)
    exact List.suffix_rfl

/-! ## More text after a numeral -/

theorem readFraction?_append {fraction : Option (List Char)} (hrest : EndsNumeral rest)
    (h : readFraction? text = some (fraction, left)) :
    readFraction? (text ++ rest) = some (fraction, left ++ rest) := by
  unfold readFraction? at h
  split at h
  · rename_i digits
    have hspan := span_append (p := Char.isDigit) (fun c hc => (hrest c hc).1) digits
    simp only [List.cons_append, readFraction?, hspan]
    dsimp only at h
    split at h
    · cases h
    · rename_i hdigits
      rw [if_neg hdigits]
      obtain ⟨rfl, rfl⟩ := Prod.mk.inj (Option.some.inj h)
      rfl
  · rename_i hdot
    obtain ⟨rfl, rfl⟩ := Prod.mk.inj (Option.some.inj h)
    unfold readFraction?
    split
    · rename_i digits heq
      cases text with
      | nil =>
        rw [List.nil_append] at heq
        exact absurd rfl (hrest '.' (by rw [heq]; rfl)).2.1
      | cons c text =>
        obtain ⟨rfl, -⟩ := List.cons.inj heq
        exact absurd rfl (hdot text)
    · rfl

theorem readSign_append (h : text ≠ []) (rest : List Char) :
    readSign (text ++ rest) = ((readSign text).1, (readSign text).2 ++ rest) := by
  cases text with
  | nil => exact absurd rfl h
  | cons c text =>
    by_cases hminus : c = '-'
    · subst hminus
      rfl
    · by_cases hplus : c = '+'
      · subst hplus
        rfl
      · simp [readSign, hminus, hplus]

theorem readExponent?_append {exponent : Option (Bool × List Char)} (hrest : EndsNumeral rest)
    (h : readExponent? text = some (exponent, left)) :
    readExponent? (text ++ rest) = some (exponent, left ++ rest) := by
  cases text with
  | nil =>
    obtain ⟨rfl, rfl⟩ := Prod.mk.inj (Option.some.inj h)
    cases rest with
    | nil => rfl
    | cons c rest =>
      obtain ⟨-, -, he, hE⟩ := hrest c rfl
      simp [readExponent?, he, hE]
  | cons c digits =>
    simp only [readExponent?] at h
    simp only [List.cons_append, readExponent?]
    split at h
    · rename_i he
      have hdigits : digits ≠ [] := by
        rintro rfl
        exact absurd h (by simp [readSign])
      have hspan := span_append (p := Char.isDigit) (fun c hc => (hrest c hc).1) (readSign digits).2
      rw [if_pos he, readSign_append hdigits, hspan]
      dsimp only
      split at h
      · cases h
      · rename_i hempty
        rw [if_neg hempty]
        obtain ⟨rfl, rfl⟩ := Prod.mk.inj (Option.some.inj h)
        rfl
    · rename_i he
      rw [if_neg he]
      obtain ⟨rfl, rfl⟩ := Prod.mk.inj (Option.some.inj h)
      rfl

/-- An optional minus, and the text after it. -/
def readMinus : List Char → Bool × List Char
  | '-' :: rest => (true, rest)
  | text => (false, text)

theorem suffix_readMinus (text : List Char) : (readMinus text).2 <:+ text := by
  unfold readMinus
  split
  · exact List.suffix_cons _ _
  · exact List.suffix_rfl

theorem readMinus_append (h : text ≠ []) (rest : List Char) :
    readMinus (text ++ rest) = ((readMinus text).1, (readMinus text).2 ++ rest) := by
  cases text with
  | nil => exact absurd rfl h
  | cons c text =>
    by_cases hminus : c = '-'
    · subst hminus
      rfl
    · simp [readMinus, hminus]

/-- A numeral at the start of a text: an optional minus, whole digits, and what may follow them. -/
structure Starts (n : Numeral) (text left : List Char) : Prop where
  negative : (readMinus text).1 = n.negative
  whole : isWhole n.whole = true
  parts : ∃ afterWhole afterFraction,
    (readMinus text).2.span Char.isDigit = (n.whole, afterWhole) ∧
    readFraction? afterWhole = some (n.fraction, afterFraction) ∧
    readExponent? afterFraction = some (n.exponent, left)

theorem read?_eq (text : List Char) :
    read? text = if isWhole ((readMinus text).2.span Char.isDigit).1 then
      (readFraction? ((readMinus text).2.span Char.isDigit).2).bind fun f =>
        (readExponent? f.2).bind fun e =>
          some (⟨(readMinus text).1, ((readMinus text).2.span Char.isDigit).1, f.1, e.1⟩, e.2)
      else none := by
  unfold read?
  split
  rename_i negative digits heq
  have hminus : readMinus text = (negative, digits) := by
    rw [← heq]
    cases text with
    | nil => rfl
    | cons c text =>
      by_cases hc : c = '-'
      · subst hc
        rfl
      · simp [readMinus, hc]
  rw [hminus]
  dsimp only
  generalize digits.span Char.isDigit = s
  obtain ⟨whole, rest⟩ := s
  dsimp only
  cases isWhole whole <;> rfl

theorem read?_eq_some_iff {n : Numeral} : read? text = some (n, left) ↔ n.Starts text left := by
  rw [read?_eq]
  constructor
  · intro h
    split at h
    · rename_i hwhole
      simp only [Option.bind_eq_some_iff, Option.some.injEq, Prod.mk.injEq] at h
      obtain ⟨⟨fraction, afterFraction⟩, hfraction, ⟨exponent, rest⟩, hexponent, rfl, rfl⟩ := h
      exact ⟨rfl, hwhole, _, afterFraction, rfl, hfraction, hexponent⟩
    · cases h
  · rintro ⟨hnegative, hwhole, afterWhole, afterFraction, hspan, hfraction, hexponent⟩
    rw [hspan, if_pos hwhole, hfraction, Option.bind_some, hexponent, hnegative]
    rfl

/-- **A numeral in a longer text** is the same, if that cannot go on with it. -/
theorem read?_append {n : Numeral} (hrest : EndsNumeral rest) (h : read? text = some (n, left)) :
    read? (text ++ rest) = some (n, left ++ rest) := by
  rw [read?_eq_some_iff] at h ⊢
  obtain ⟨hnegative, hwhole, afterWhole, afterFraction, hspan, hfraction, hexponent⟩ := h
  have htext : text ≠ [] := by
    rintro rfl
    have hempty : [] = n.whole := (Prod.mk.inj hspan).1
    rw [← hempty] at hwhole
    cases hwhole
  have hdigits := span_append (p := Char.isDigit) (fun c hc => (hrest c hc).1) (readMinus text).2
  rw [hspan] at hdigits
  refine ⟨?_, hwhole, afterWhole ++ rest, afterFraction ++ rest, ?_,
    readFraction?_append hrest hfraction, readExponent?_append hrest hexponent⟩
  · rw [readMinus_append htext, hnegative]
  · rw [readMinus_append htext]
    exact hdigits

theorem suffix_read? {n : Numeral} (h : read? text = some (n, left)) : left <:+ text := by
  obtain ⟨-, -, afterWhole, afterFraction, hspan, hfraction, hexponent⟩ := read?_eq_some_iff.1 h
  have hdigits := suffix_span Char.isDigit (readMinus text).2
  rw [hspan] at hdigits
  exact (((suffix_readExponent? hexponent).trans (suffix_readFraction? hfraction)).trans
    hdigits).trans (suffix_readMinus text)

/-! ## Integers -/

theorem isWhole_toDigits (n : Nat) : isWhole (Nat.toDigits 10 n) = true := by
  -- no leading zero, by induction on the leading digits
  have hhead : ∀ n, 0 < n → ∃ c digits, Nat.toDigits 10 n = c :: digits ∧ c ≠ '0' := by
    intro n
    induction n using Nat.strongRecOn with
    | ind n ih =>
      intro hn
      rw [Nat.toDigits_eq_if (by decide)]
      split
      · rename_i hlt
        refine ⟨n.digitChar, [], rfl, ?_⟩
        interval_cases n <;> decide
      · rename_i hge
        obtain ⟨c, digits, hdigits, hc⟩ := ih (n / 10) (by omega) (by omega)
        exact ⟨c, digits ++ [(n % 10).digitChar], by rw [hdigits]; rfl, hc⟩
  rcases Nat.eq_zero_or_pos n with rfl | hn
  · decide
  · obtain ⟨c, digits, hdigits, hc⟩ := hhead n hn
    rw [hdigits]
    unfold isWhole
    split
    · rename_i heq
      cases heq
    · rename_i heq
      exact absurd (List.cons.inj heq).1 hc
    · rfl

theorem natOfDigits_toDigits (n : Nat) : natOfDigits (Nat.toDigits 10 n) = n :=
  Nat.ofDigitChars_toDigits (by decide) (by decide)

theorem read?_toDigits (n : Nat) :
    read? (Nat.toDigits 10 n) = some (⟨false, Nat.toDigits 10 n, none, none⟩, []) := by
  have hdigit := forall_toDigits (P := fun c => c.isDigit = true) (fun _ h => h) n
  have hminus : readMinus (Nat.toDigits 10 n) = (false, Nat.toDigits 10 n) := by
    unfold readMinus
    split
    · rename_i rest heq
      rw [heq] at hdigit
      exact absurd (hdigit '-' (.head _)) (by decide)
    · rfl
  exact read?_eq_some_iff.2 ⟨by rw [hminus], isWhole_toDigits n, [], [],
    by rw [hminus, span_of_forall hdigit], rfl, rfl⟩

theorem read?_minus_toDigits (n : Nat) :
    read? ('-' :: Nat.toDigits 10 n) = some (⟨true, Nat.toDigits 10 n, none, none⟩, []) := by
  have hdigit := forall_toDigits (P := fun c => c.isDigit = true) (fun _ h => h) n
  exact read?_eq_some_iff.2 ⟨rfl, isWhole_toDigits n, [], [], span_of_forall hdigit, rfl, rfl⟩

theorem toJson?_toDigits {n : Nat} (h : n < pow2 64) :
    toJson? ⟨false, Nat.toDigits 10 n, none, none⟩ = some (.int n) := by
  simp [toJson?, toInt?, natOfDigits_toDigits, h]

theorem toJson?_minus_toDigits {n : Nat} (h : 0 < n ∧ n ≤ pow2 63) :
    toJson? ⟨true, Nat.toDigits 10 n, none, none⟩ = some (.int (-n)) := by
  simp [toJson?, toInt?, natOfDigits_toDigits, h]

end Numeral

/-! ## Numbers as values -/

/-- Blanks before a character that is none. -/
theorem skipBlanks_append {blanks : List Char} (h : ∀ c ∈ blanks, isBlank c = true) {c : Char}
    (hc : isBlank c = false) (text : List Char) :
    skipBlanks (blanks ++ c :: text) = c :: text := by
  unfold skipBlanks
  induction blanks with
  | nil => simp [hc]
  | cons b blanks ih =>
    obtain ⟨hb, hblanks⟩ := List.forall_mem_cons.1 h
    simpa [hb] using ih hblanks

/-- A text whose first character is that of a number. -/
def StartsNumber (text : List Char) : Prop := ∃ c rest, text = c :: rest ∧ IsNumeralChar c

theorem StartsNumber.append {text : List Char} (h : StartsNumber text) (rest : List Char) :
    StartsNumber (text ++ rest) := by
  obtain ⟨c, digits, rfl, hc⟩ := h
  exact ⟨c, digits ++ rest, rfl, hc⟩

theorem StartsNumber.of_within {text : List Char} (hne : text ≠ [])
    (h : ∀ c ∈ text, IsNumeralChar c) : StartsNumber text := by
  cases text with
  | nil => exact absurd rfl hne
  | cons c text => exact ⟨c, text, rfl, h c (.head _)⟩

theorem isBlank_of_isNumeralChar {c : Char} (h : IsNumeralChar c) : isBlank c = false := by
  rcases h with hdigit | hother
  · simp only [isBlank, Bool.or_eq_false_iff, decide_eq_false_iff_not]
    refine ⟨⟨⟨?_, ?_⟩, ?_⟩, ?_⟩ <;> (rintro rfl; revert hdigit; decide)
  · simp only [List.mem_cons, List.not_mem_nil, or_false] at hother
    rcases hother with rfl | rfl | rfl | rfl <;> decide

theorem readScalar?_of_startsNumber {text : List Char} (h : StartsNumber text) :
    readScalar? text = (Numeral.read? text).bind fun r => r.1.toJson?.map fun v => (v, r.2) := by
  obtain ⟨c, rest, rfl, hc⟩ := h
  have hletters : c ≠ 'n' ∧ c ≠ 't' ∧ c ≠ 'f' := by
    refine ⟨?_, ?_, ?_⟩ <;> (rintro rfl; revert hc; decide)
  unfold readScalar?
  split
  · rename_i heq
    exact absurd (List.cons.inj heq).1 hletters.1
  · rename_i heq
    exact absurd (List.cons.inj heq).1 hletters.2.1
  · rename_i heq
    exact absurd (List.cons.inj heq).1 hletters.2.2
  · cases Numeral.read? (c :: rest) with
    | none => rfl
    | some r => cases h : r.1.toJson? <;> simp [h]

/-- A value that starts like a number is read as one. -/
theorem readValue?_of_startsNumber {blanks text : List Char}
    (hblanks : ∀ c ∈ blanks, isBlank c = true) (h : StartsNumber text) (fuel : Nat) :
    readValue? (fuel + 1) (blanks ++ text) = readScalar? text := by
  obtain ⟨c, rest, rfl, hc⟩ := h
  have hmarks : c ≠ '"' ∧ c ≠ '[' ∧ c ≠ '\x7b' := by
    refine ⟨?_, ?_, ?_⟩ <;> (rintro rfl; revert hc; decide)
  rw [readValue?, skipBlanks_append hblanks (isBlank_of_isNumeralChar hc)]
  split
  · rename_i heq
    exact absurd (List.cons.inj heq).1 hmarks.1
  · rename_i heq
    exact absurd (List.cons.inj heq).1 hmarks.2.1
  · rename_i heq
    exact absurd (List.cons.inj heq).1 hmarks.2.2
  · rfl

/-- A text that is one numeral. -/
theorem read?_of_numeral {text : String} {n : Numeral} {value : Json}
    (hstarts : StartsNumber text.toList) (hn : Numeral.read? text.toList = some (n, []))
    (hvalue : n.toJson? = some value) : Json.read? text = some value := by
  have hread := @readValue?_of_startsNumber [] text.toList (List.forall_mem_nil _) hstarts
    (2 * text.toList.length + 1)
  rw [List.nil_append, readScalar?_of_startsNumber hstarts, hn, Option.bind_some, hvalue,
    Option.map_some] at hread
  simp only [Json.read?, hread]
  rfl

/-- Whether an integer is read as one: it fits 64 bits, with a sign or without. -/
def FitsInt (n : Int) : Prop := -(pow2 63 : Int) ≤ n ∧ n < pow2 64

instance (n : Int) : Decidable (FitsInt n) := inferInstanceAs (Decidable (_ ∧ _))

theorem startsNumber_int (n : Int) : StartsNumber (toString n).toList := by
  apply StartsNumber.of_within
  · rw [toList_toString_int]
    split
    · exact List.cons_ne_nil _ _
    · exact Nat.toDigits_ne_nil
  · exact within_toString_int isNumeralChar_of_isDigit (by decide) n

/-- **An integer is read back**, whatever follows it that does not go on with a numeral. -/
theorem readScalar?_int {n : Int} (hn : FitsInt n) {rest : List Char} (hrest : EndsNumeral rest) :
    readScalar? ((toString n).toList ++ rest) = some (.int n, rest) := by
  rw [readScalar?_of_startsNumber ((startsNumber_int n).append rest), toList_toString_int]
  obtain ⟨hlow, hhigh⟩ := hn
  split
  · rename_i hneg
    have hvalue : (-n.natAbs : Int) = n := by omega
    rw [Numeral.read?_append hrest (Numeral.read?_minus_toDigits _), Option.bind_some,
      Numeral.toJson?_minus_toDigits (by omega), hvalue]
    rfl
  · rename_i hpos
    have hvalue : (n.natAbs : Int) = n := by omega
    rw [Numeral.read?_append hrest (Numeral.read?_toDigits _), Option.bind_some,
      Numeral.toJson?_toDigits (by omega), hvalue]
    rfl

/-- **A number inside a text** is the one that its own text holds. -/
theorem readScalar?_of_read? {text : String} {value : Json} (hne : text ≠ "")
    (hchars : Within IsNumeralChar text) (h : Json.read? text = some value) {rest : List Char}
    (hrest : EndsNumeral rest) : readScalar? (text.toList ++ rest) = some (value, rest) := by
  have hstarts : StartsNumber text.toList :=
    StartsNumber.of_within (by simpa using hne) hchars
  have hvalue := @readValue?_of_startsNumber [] text.toList (List.forall_mem_nil _) hstarts
    (2 * text.toList.length + 1)
  rw [List.nil_append] at hvalue
  unfold Json.read? at h
  simp only [Option.bind_eq_bind, Option.bind_eq_some_iff] at h
  obtain ⟨⟨read, left⟩, hread, h⟩ := h
  rw [hvalue, readScalar?_of_startsNumber hstarts] at hread
  split at h
  · rename_i hblank
    obtain rfl := Option.some.inj h
    simp only [Option.bind_eq_some_iff, Option.map_eq_some_iff, Prod.mk.injEq] at hread
    obtain ⟨⟨n, left⟩, hn, v, hv, rfl, rfl⟩ := hread
    -- what is left is a part of the text, so it is no blank
    have hleft : left = [] := by
      cases left with
      | nil => rfl
      | cons c left =>
        have hmem := (Numeral.suffix_read? hn).mem (List.mem_cons_self)
        have hc := isBlank_of_isNumeralChar (hchars c hmem)
        simp [skipBlanks, hc] at hblank
    rw [readScalar?_of_startsNumber (hstarts.append rest), Numeral.read?_append hrest hn, hleft]
    simp [hv]
  · cases h

end SweepCharts.Json
