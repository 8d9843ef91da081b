import Mathlib
import SweepCharts.Number.Decimal
import SweepCharts.Proofs.Json.Numeral

set_option autoImplicit false

/-! # The texts of numbers

An integer is an optional sign and one or more digits. A decimal is an optional sign, digits with an
optional point and at least one digit, and an optional power of ten. The grammar says which parts a
text has and what number they write, the readers find the parts from the left. They agree, because
no part can start with a character that the part before it could go on with.

* `readInteger?_eq_some_iff`: the integers that are read.
* `Decimal.read?_eq_some_iff`: the decimals that are read, part by part.
* `writesDecimal_iff`: **a decimal is read iff its text is one**, and it has the value of its text.
-/

namespace SweepCharts

/-! ## Digits -/

/-- Digits only. -/
def AllDigits (digits : List Char) : Prop := ∀ c ∈ digits, c.isDigit = true

/-- The number that digits write, the last one standing for the units. -/
def digitsValue (digits : List Char) : Nat :=
  Nat.ofDigits 10 (digits.reverse.map fun c => c.toNat - '0'.toNat)

theorem natOfDigits_append_singleton (digits : List Char) (c : Char) :
    natOfDigits (digits ++ [c]) = 10 * natOfDigits digits + (c.toNat - '0'.toNat) := by
  unfold natOfDigits
  rw [List.foldl_append]
  rfl

theorem natOfDigits_eq (digits : List Char) : natOfDigits digits = digitsValue digits := by
  induction digits using List.reverseRecOn with
  | nil => rfl
  | append_singleton digits c ih =>
    rw [natOfDigits_append_singleton, ih]
    unfold digitsValue
    rw [List.reverse_append, List.reverse_singleton, List.singleton_append, List.map_cons,
      Nat.ofDigits_cons, Nat.add_comm]

theorem digitsValue_append (whole fraction : List Char) :
    digitsValue (whole ++ fraction) =
      digitsValue whole * 10 ^ fraction.length + digitsValue fraction := by
  unfold digitsValue
  rw [List.reverse_append, List.map_append, Nat.ofDigits_append, List.length_map,
    List.length_reverse, Nat.add_comm, Nat.mul_comm]

/-! ## Grammar -/

/-- An optional sign; true for a minus. -/
inductive WritesSign : List Char → Bool → Prop
  | none : WritesSign [] false
  | plus : WritesSign ['+'] false
  | minus : WritesSign ['-'] true

/-- A text that is an optional sign and one or more digits. -/
def WritesInteger (text : List Char) (n : Int) : Prop :=
  ∃ sign negative digits, WritesSign sign negative ∧ digits ≠ [] ∧ AllDigits digits ∧
    text = sign ++ digits ∧ n = if negative then -(digitsValue digits : Int) else digitsValue digits

/-- A text that is empty, or the letter `e` of either case and an integer. -/
def WritesPower (text : List Char) (exponent : Int) : Prop :=
  text = [] ∧ exponent = 0 ∨
    ∃ c rest, (c = 'e' ∨ c = 'E') ∧ text = c :: rest ∧ WritesInteger rest exponent

/-- The parts of a decimal. -/
structure DecimalParts where
  sign : List Char
  whole : List Char
  point : List Char
  fraction : List Char
  power : List Char

/-- The text of a decimal in its parts: an optional sign, digits with an optional point and at least
one digit, and an optional power of ten. -/
structure DecimalParts.Writes (p : DecimalParts) (text : List Char) (negative : Bool)
    (exponent : Int) : Prop where
  sign : WritesSign p.sign negative
  whole : AllDigits p.whole
  point : p.point = [] ∧ p.fraction = [] ∨ p.point = ['.']
  fraction : AllDigits p.fraction
  some_digit : p.whole ≠ [] ∨ p.fraction ≠ []
  power : WritesPower p.power exponent
  text : text = p.sign ++ (p.whole ++ (p.point ++ (p.fraction ++ p.power)))

/-- A text that is a decimal with this sign and this absolute value. -/
def WritesDecimal (text : List Char) (negative : Bool) (value : ℚ) : Prop :=
  ∃ p exponent, DecimalParts.Writes p text negative exponent ∧
    value = (digitsValue p.whole + digitsValue p.fraction / 10 ^ p.fraction.length) *
      10 ^ exponent

/-! ## Signs -/

theorem readSign_append {sign rest : List Char} {negative : Bool} (h : WritesSign sign negative)
    (hrest : ∀ c ∈ rest.head?, c ≠ '-' ∧ c ≠ '+') : readSign (sign ++ rest) = (negative, rest) := by
  cases h with
  | none =>
    cases rest with
    | nil => rfl
    | cons c rest =>
      obtain ⟨hminus, hplus⟩ := hrest c rfl
      simp [readSign, hminus, hplus]
  | plus => rfl
  | minus => rfl

theorem exists_writesSign (text : List Char) :
    ∃ sign, WritesSign sign (readSign text).1 ∧ text = sign ++ (readSign text).2 := by
  unfold readSign
  split
  · exact ⟨_, .minus, rfl⟩
  · exact ⟨_, .plus, rfl⟩
  · exact ⟨_, .none, rfl⟩

theorem ne_sign_of_isDigit {c : Char} (h : c.isDigit = true) : c ≠ '-' ∧ c ≠ '+' := by
  constructor <;> (rintro rfl; revert h; decide)

/-! ## Integers -/

/-- **The integers that are read.** -/
theorem readInteger?_eq_some_iff {text : List Char} {n : Int} :
    readInteger? text = some n ↔ WritesInteger text n := by
  unfold readInteger?
  constructor
  · intro h
    obtain ⟨sign, hsign, htext⟩ := exists_writesSign text
    dsimp only at h
    split at h
    · rename_i hdigits
      refine ⟨sign, _, _, hsign, hdigits.1, List.all_eq_true.1 hdigits.2, htext, ?_⟩
      rw [← natOfDigits_eq]
      exact (Option.some.inj h).symm
    · cases h
  · rintro ⟨sign, negative, digits, hsign, hne, hdigits, rfl, rfl⟩
    have hhead : ∀ c ∈ digits.head?, c ≠ '-' ∧ c ≠ '+' := fun c hc =>
      ne_sign_of_isDigit (hdigits c (List.mem_of_mem_head? hc))
    rw [readSign_append hsign hhead]
    dsimp only
    rw [if_pos ⟨hne, List.all_eq_true.2 hdigits⟩, natOfDigits_eq]

/-! ## Decimals -/

namespace Decimal

theorem readExponent?_eq_some_iff {text : List Char} {exponent : Int} :
    readExponent? text = some exponent ↔ WritesPower text exponent := by
  cases text with
  | nil => simp [readExponent?, WritesPower, eq_comm]
  | cons c rest =>
    rw [readExponent?, WritesPower]
    constructor
    · intro h
      split at h
      · rename_i hletter
        exact .inr ⟨c, rest, hletter, rfl, readInteger?_eq_some_iff.1 h⟩
      · cases h
    · rintro (⟨h, -⟩ | ⟨c, rest, hletter, h, hrest⟩)
      · cases h
      · obtain ⟨rfl, rfl⟩ := List.cons.inj h
        rw [if_pos hletter]
        exact readInteger?_eq_some_iff.2 hrest

/-- A power of ten does not go on with digits or with a point. -/
theorem head_power {power : List Char} {exponent : Int} (h : WritesPower power exponent) :
    ∀ c ∈ power.head?, c.isDigit = false ∧ c ≠ '.' ∧ c ≠ '-' ∧ c ≠ '+' := by
  rcases h with ⟨rfl, -⟩ | ⟨letter, rest, hletter, rfl, -⟩
  · simp
  · intro c hc
    obtain rfl : letter = c := Option.some.inj hc
    rcases hletter with rfl | rfl <;> decide

theorem span_digits {digits rest : List Char} (h : AllDigits digits)
    (hrest : ∀ c ∈ rest.head?, c.isDigit = false) :
    (digits ++ rest).span Char.isDigit = (digits, rest) := by
  rw [Json.span_append hrest, Json.span_of_forall h]
  rfl

theorem exists_digits (text : List Char) : AllDigits (text.span Char.isDigit).1 ∧
    text = (text.span Char.isDigit).1 ++ (text.span Char.isDigit).2 := by
  rw [List.span_eq_takeWhile_dropWhile]
  exact ⟨fun _ => List.mem_takeWhile_imp, List.takeWhile_append_dropWhile.symm⟩

theorem exists_point (text : List Char) : ∃ point,
    (point = [] ∧ (readFraction text).1 = [] ∨ point = ['.']) ∧ AllDigits (readFraction text).1 ∧
      text = point ++ ((readFraction text).1 ++ (readFraction text).2) := by
  unfold readFraction
  split
  · rename_i rest
    obtain ⟨hdigits, hrest⟩ := exists_digits rest
    exact ⟨['.'], .inr rfl, hdigits, congrArg ('.' :: ·) hrest⟩
  · exact ⟨[], .inl ⟨rfl, rfl⟩, List.forall_mem_nil _, rfl⟩

theorem readFraction_of_head {text : List Char} (h : ∀ c ∈ text.head?, c ≠ '.') :
    readFraction text = ([], text) := by
  cases text with
  | nil => rfl
  | cons c rest => simp [readFraction, h c rfl]

theorem readFraction_append {point fraction power : List Char} {exponent : Int}
    (hpoint : point = [] ∧ fraction = [] ∨ point = ['.']) (hfraction : AllDigits fraction)
    (hpower : WritesPower power exponent) :
    readFraction (point ++ (fraction ++ power)) = (fraction, power) := by
  have hhead := head_power hpower
  rcases hpoint with ⟨rfl, rfl⟩ | rfl
  · exact readFraction_of_head fun c hc => (hhead c hc).2.1
  · exact span_digits hfraction fun c hc => (hhead c hc).1

/-- **The decimals that are read**, part by part. -/
theorem read?_eq_some_iff {text : List Char} {d : Decimal} :
    read? text = some d ↔ ∃ p exponent, DecimalParts.Writes p text d.negative exponent ∧
      d.digits = digitsValue (p.whole ++ p.fraction) ∧
      d.exponent = exponent - p.fraction.length := by
  unfold read?
  dsimp only
  constructor
  · intro h
    obtain ⟨sign, hsign, htext⟩ := exists_writesSign text
    obtain ⟨hwhole, hrest⟩ := exists_digits (readSign text).2
    generalize ((readSign text).2.span Char.isDigit).1 = whole at *
    generalize ((readSign text).2.span Char.isDigit).2 = tail at *
    obtain ⟨point, hpoint, hfraction, htail⟩ := exists_point tail
    generalize (readFraction tail).1 = fraction at *
    generalize (readFraction tail).2 = power at *
    split at h
    · cases h
    · rename_i hsome
      obtain ⟨exponent, hexponent, rfl⟩ := Option.map_eq_some_iff.1 h
      refine ⟨⟨sign, whole, point, fraction, power⟩, exponent, ⟨hsign, hwhole, hpoint, hfraction,
        ?_, readExponent?_eq_some_iff.1 hexponent, ?_⟩, natOfDigits_eq _, rfl⟩
      · rw [← not_and_or]
        simpa using hsome
      · rw [htext, hrest, htail]
  · rintro ⟨p, exponent, hp, hdigits, hexponent⟩
    have hpower := head_power hp.power
    have hfraction := readFraction_append hp.point hp.fraction hp.power
    have htail : ∀ c ∈ (p.point ++ (p.fraction ++ p.power)).head?,
        c.isDigit = false ∧ c ≠ '-' ∧ c ≠ '+' := by
      rcases hp.point with ⟨hpoint, hnone⟩ | hpoint
      · rw [hpoint, hnone]
        exact fun c hc => ⟨(hpower c hc).1, (hpower c hc).2.2⟩
      · rw [hpoint]
        rintro c hc
        obtain rfl : '.' = c := Option.some.inj hc
        decide
    have hhead : ∀ c ∈ (p.whole ++ (p.point ++ (p.fraction ++ p.power))).head?,
        c ≠ '-' ∧ c ≠ '+' := by
      have hwhole := hp.whole
      cases hcase : p.whole with
      | nil => exact fun c hc => (htail c hc).2
      | cons first rest =>
        rw [hcase] at hwhole
        rintro c hc
        obtain rfl : first = c := Option.some.inj hc
        exact ne_sign_of_isDigit (hwhole first (.head _))
    rw [hp.text, readSign_append hp.sign hhead]
    dsimp only
    rw [span_digits hp.whole fun c hc => (htail c hc).1]
    dsimp only
    rw [hfraction]
    dsimp only
    rw [if_neg, readExponent?_eq_some_iff.2 hp.power, natOfDigits_eq, ← hdigits]
    · rw [Option.map_some, ← hexponent]
    · simpa [← not_and_or] using hp.some_digit

/-- The absolute value. -/
def absValue (d : Decimal) : ℚ := d.digits * 10 ^ d.exponent

theorem absValue_eq {d : Decimal} {whole fraction : List Char} {exponent : Int}
    (hdigits : d.digits = digitsValue (whole ++ fraction))
    (hexponent : d.exponent = exponent - fraction.length) :
    d.absValue =
      (digitsValue whole + digitsValue fraction / 10 ^ fraction.length) * 10 ^ exponent := by
  have hten : (10 : ℚ) ^ fraction.length ≠ 0 := by positivity
  unfold absValue
  rw [hdigits, hexponent, digitsValue_append, zpow_sub₀ (by norm_num), zpow_natCast]
  push_cast
  field_simp

end Decimal

/-- **A decimal is read iff its text is one**, and it has the value of its text. -/
theorem writesDecimal_iff {text : List Char} {negative : Bool} {value : ℚ} :
    WritesDecimal text negative value ↔
      ∃ d, Decimal.read? text = some d ∧ d.negative = negative ∧ d.absValue = value := by
  constructor
  · rintro ⟨p, exponent, hp, rfl⟩
    let d : Decimal :=
      ⟨negative, digitsValue (p.whole ++ p.fraction), exponent - p.fraction.length⟩
    exact ⟨d, Decimal.read?_eq_some_iff.2 ⟨p, exponent, hp, rfl, rfl⟩, rfl,
      Decimal.absValue_eq rfl rfl⟩
  · rintro ⟨d, hd, rfl, rfl⟩
    obtain ⟨p, exponent, hp, hdigits, hexponent⟩ := Decimal.read?_eq_some_iff.1 hd
    exact ⟨p, exponent, hp, Decimal.absValue_eq hdigits hexponent⟩

/-- A text writes one decimal. -/
theorem WritesDecimal.unique {text : List Char} {negative negative' : Bool} {value value' : ℚ}
    (h : WritesDecimal text negative value) (h' : WritesDecimal text negative' value') :
    negative = negative' ∧ value = value' := by
  obtain ⟨d, hd, rfl, rfl⟩ := writesDecimal_iff.1 h
  obtain ⟨d', hd', rfl, rfl⟩ := writesDecimal_iff.1 h'
  obtain rfl := Option.some.inj (hd.symm.trans hd')
  exact ⟨rfl, rfl⟩

/-- An integer is a decimal without point and power; only a zero has either sign. -/
theorem WritesInteger.writesDecimal {text : List Char} {n : Int} (h : WritesInteger text n) :
    ∃ negative, WritesDecimal text negative n.natAbs ∧ (n = 0 ∨ negative = decide (n < 0)) := by
  obtain ⟨sign, negative, digits, hsign, hne, hdigits, rfl, rfl⟩ := h
  refine ⟨negative, ⟨⟨sign, digits, [], [], []⟩, 0, ⟨hsign, hdigits, .inl ⟨rfl, rfl⟩,
    List.forall_mem_nil _, .inl hne, .inl ⟨rfl, rfl⟩, ?_⟩, ?_⟩, ?_⟩
  · rw [List.append_nil, List.append_nil, List.append_nil]
  · have hvalue : digitsValue [] = 0 := rfl
    cases negative <;> simp [hvalue]
  · rcases Nat.eq_zero_or_pos (digitsValue digits) with hzero | hpos
    · exact .inl (by rw [hzero]; cases negative <;> rfl)
    · refine .inr ?_
      cases negative <;> simp [hpos]

end SweepCharts
