import SweepCharts.Proofs.Number.Reading
import SweepCharts.Proofs.Sweep.Dump

set_option autoImplicit false

/-! # What a cell is read as

The text of a cell without the blanks at its ends is an integer of 64 bits, else a decimal whose
nearest double is finite, else no number, and then the cell is the text as it was. Nothing else is a
number: the words for infinity and NaN are read as doubles that are not finite, and a decimal from
half a unit above the largest double on is infinite.

* `trims_iff`: the text between the blanks.
* `Cell.ofText_cases`: the three outcomes.
* `Cell.ReadBy`, `Cell.readBy`: the outcome by the grammar of the text.
* `coercion_accepts_grammar`: **what is accepted as a number**, alone, between blanks and when it is
  loaded.
-/

namespace SweepCharts

/-! ## Blanks at the ends -/

/-- A text between the blanks at the two ends of another one. -/
structure Trims (raw : String) (text : List Char) : Prop where
  parts : ∃ before after, raw.toList = before ++ (text ++ after) ∧
    (∀ c ∈ before, isBlankChar c = true) ∧ ∀ c ∈ after, isBlankChar c = true
  first : ∀ c ∈ text.head?, isBlankChar c = false
  last : ∀ c ∈ text.getLast?, isBlankChar c = false

section
variable {α : Type} {drop : α → Bool}

theorem dropWhile_append_drop {before : List α} (h : ∀ c ∈ before, drop c = true)
    (text : List α) : (before ++ text).dropWhile drop = text.dropWhile drop := by
  rw [List.dropWhile_append, List.dropWhile_eq_nil_iff.2 h]
  rfl

theorem dropWhile_keep {text : List α} (h : ∀ c ∈ text.head?, drop c = false) :
    text.dropWhile drop = text := by
  cases text with
  | nil => rfl
  | cons c text => exact List.dropWhile_cons_of_neg (by simp [h c rfl])

theorem trimBoth_parts {before text after : List α} (hbefore : ∀ c ∈ before, drop c = true)
    (hafter : ∀ c ∈ after, drop c = true) (hfirst : ∀ c ∈ text.head?, drop c = false)
    (hlast : ∀ c ∈ text.getLast?, drop c = false) :
    trimBoth drop (before ++ (text ++ after)) = text := by
  unfold trimBoth
  rw [dropWhile_append_drop hbefore]
  cases text with
  | nil =>
    rw [List.nil_append, List.dropWhile_eq_nil_iff.2 hafter]
    rfl
  | cons c text =>
    have hstop : (c :: text ++ after).dropWhile drop = c :: text ++ after := dropWhile_keep hfirst
    have hreverse : ∀ d ∈ after.reverse, drop d = true := by simpa using hafter
    rw [hstop, List.reverse_append, dropWhile_append_drop hreverse,
      dropWhile_keep (by rwa [List.head?_reverse]), List.reverse_reverse]

theorem exists_trimBoth (drop : α → Bool) (text : List α) : ∃ before after,
    text = before ++ (trimBoth drop text ++ after) ∧ (∀ c ∈ before, drop c = true) ∧
      (∀ c ∈ after, drop c = true) ∧ (∀ c ∈ (trimBoth drop text).head?, drop c = false) ∧
      ∀ c ∈ (trimBoth drop text).getLast?, drop c = false := by
  have hstop (l : List α) : ∀ c ∈ (l.dropWhile drop).head?, drop c = false := by
    intro c hc
    have hnot := List.head?_dropWhile_not drop l
    rw [hc] at hnot
    exact hnot
  have hfront : text.dropWhile drop =
      trimBoth drop text ++ ((text.dropWhile drop).reverse.takeWhile drop).reverse := by
    rw [trimBoth, ← List.reverse_append, List.takeWhile_append_dropWhile, List.reverse_reverse]
  refine ⟨text.takeWhile drop, ((text.dropWhile drop).reverse.takeWhile drop).reverse, ?_,
    fun c hc => List.mem_takeWhile_imp hc,
    fun c hc => List.mem_takeWhile_imp (List.mem_reverse.1 hc), fun c hc => hstop text c ?_, ?_⟩
  · rw [← hfront, List.takeWhile_append_dropWhile]
  · rw [hfront, List.head?_append, hc]
    rfl
  · rw [trimBoth, List.getLast?_reverse]
    exact hstop _

end

theorem trims_iff {raw : String} {text : List Char} : Trims raw text ↔ trimmed raw = text := by
  constructor
  · rintro ⟨⟨before, after, hraw, hbefore, hafter⟩, hfirst, hlast⟩
    rw [trimmed, hraw, trimBoth_parts hbefore hafter hfirst hlast]
  · rintro rfl
    obtain ⟨before, after, hparts, hbefore, hafter, hfirst, hlast⟩ :=
      exists_trimBoth isBlankChar raw.toList
    exact ⟨⟨before, after, hparts, hbefore, hafter⟩, hfirst, hlast⟩

/-! ## Numbers in a text -/

/-- A text that is an integer of 64 bits. -/
def HoldsInteger (text : List Char) (n : Int) : Prop :=
  WritesInteger text n ∧ -2 ^ 63 ≤ n ∧ n < 2 ^ 63

/-- A text that is a decimal whose nearest double is finite. -/
def HoldsDouble (text : List Char) (x : Binary64) : Prop :=
  ∃ negative value, WritesDecimal text negative value ∧ Binary64.RoundsTo negative value x ∧
    x.isFinite = true

variable {text : List Char}

theorem readInteger?_filter_iff {n : Int} :
    (readInteger? text).filter fits64 = some n ↔ HoldsInteger text n := by
  unfold HoldsInteger
  rw [Option.filter_eq_some_iff, readInteger?_eq_some_iff, fits64, pow2_eq, Bool.and_eq_true,
    decide_eq_true_eq, decide_eq_true_eq]
  rfl

theorem HoldsInteger.unique {m n : Int} (hm : HoldsInteger text m) (hn : HoldsInteger text n) :
    m = n :=
  Option.some.inj ((readInteger?_filter_iff.2 hm).symm.trans (readInteger?_filter_iff.2 hn))

theorem HoldsDouble.unique {x y : Binary64} (hx : HoldsDouble text x) (hy : HoldsDouble text y) :
    x = y :=
  Option.some.inj
    ((Binary64.finite_read?_iff.2 hx).symm.trans (Binary64.finite_read?_iff.2 hy))

/-- **The three outcomes.** -/
theorem Cell.ofText_cases {raw : String} (h : Trims raw text) :
    (∃ n, HoldsInteger text n ∧ ofText raw = .int n) ∨
      (¬ ∃ n, HoldsInteger text n) ∧
        ((∃ x, HoldsDouble text x ∧ ofText raw = .float x) ∨
          (¬ ∃ x, HoldsDouble text x) ∧ ofText raw = .text raw) := by
  obtain rfl := trims_iff.1 h
  unfold ofText
  dsimp only
  cases hint : (readInteger? (trimmed raw)).filter fits64 with
  | some n => exact .inl ⟨n, readInteger?_filter_iff.1 hint, rfl⟩
  | none =>
    refine .inr ⟨?_, ?_⟩
    · rintro ⟨n, hn⟩
      rw [readInteger?_filter_iff.2 hn] at hint
      cases hint
    · cases hfloat : (Binary64.read? (trimmed raw)).filter Binary64.isFinite with
      | some x => exact .inl ⟨x, Binary64.finite_read?_iff.1 hfloat, rfl⟩
      | none =>
        refine .inr ⟨?_, rfl⟩
        rintro ⟨x, hx⟩
        rw [Binary64.finite_read?_iff.2 hx] at hfloat
        cases hfloat

/-! ## Texts that are no numbers -/

theorem HoldsInteger.exists_writesDecimal {n : Int} (h : HoldsInteger text n) :
    ∃ negative value, WritesDecimal text negative value ∧ value < 2 ^ 1024 - 2 ^ 970 := by
  obtain ⟨hwrites, hlow, hhigh⟩ := h
  obtain ⟨negative, hdecimal, -⟩ := hwrites.writesDecimal
  have hfinite := Binary64.isFinite_ofInt (n := n) (by omega)
  have hlt := (Binary64.lt_overflow_iff Nat.one_pos).2
    ((Binary64.isFinite_ofQuotient _ Nat.one_pos).1 hfinite)
  rw [Nat.cast_one, div_one] at hlt
  exact ⟨negative, n.natAbs, hdecimal, hlt⟩

/-- The words for infinity and NaN in letters of either case, after an optional sign. -/
def WritesWord (text : List Char) : Prop :=
  ∃ sign negative word, WritesSign sign negative ∧ text = sign ++ word ∧
    word.map Char.toLower ∈ ["inf".toList, "infinity".toList, "nan".toList]

theorem isDigit_eq_false_of_isAlpha {c : Char} (h : c.isAlpha = true) : c.isDigit = false := by
  grind [Char.isAlpha, Char.isUpper, Char.isLower, Char.isDigit]

theorem letter_of_toLower {c : Char} (h : c.toLower = 'i' ∨ c.toLower = 'n') :
    c.isDigit = false ∧ c ≠ '.' ∧ c ≠ '-' ∧ c ≠ '+' := by
  have hletter : c.isAlpha = true := by
    rw [← Char.isAlpha_toLower_eq_isAlpha]
    rcases h with h | h <;> (rw [h]; rfl)
  refine ⟨isDigit_eq_false_of_isAlpha hletter, ?_, ?_, ?_⟩ <;>
    (rintro rfl; revert hletter; decide)

/-- A text whose first character, after a sign, is neither a digit nor a point is no decimal. -/
theorem not_writesDecimal {sign rest : List Char} {negative : Bool}
    (hsign : WritesSign sign negative)
    (hrest : ∀ c ∈ rest.head?, c.isDigit = false ∧ c ≠ '.' ∧ c ≠ '-' ∧ c ≠ '+') (minus : Bool)
    (value : ℚ) : ¬ WritesDecimal (sign ++ rest) minus value := by
  intro h
  obtain ⟨d, hd, -⟩ := writesDecimal_iff.1 h
  have hspan : rest.span Char.isDigit = ([], rest) :=
    Decimal.span_digits (List.forall_mem_nil _) fun c hc => (hrest c hc).1
  have hfraction : Decimal.readFraction rest = ([], rest) :=
    Decimal.readFraction_of_head fun c hc => (hrest c hc).2.1
  unfold Decimal.read? at hd
  rw [readSign_append hsign fun c hc => (hrest c hc).2.2] at hd
  dsimp only at hd
  rw [hspan] at hd
  dsimp only at hd
  rw [hfraction] at hd
  cases hd

/-- No word starts like a decimal or with a sign. -/
theorem head_word {word : List Char}
    (h : word.map Char.toLower ∈ ["inf".toList, "infinity".toList, "nan".toList]) :
    ∀ c ∈ word.head?, c.isDigit = false ∧ c ≠ '.' ∧ c ≠ '-' ∧ c ≠ '+' := by
  intro c hc
  apply letter_of_toLower
  cases word with
  | nil => cases hc
  | cons first rest =>
    obtain rfl : first = c := Option.some.inj hc
    simp only [List.map_cons, List.mem_cons, List.not_mem_nil, or_false] at h
    rcases h with h | h | h
    · exact .inl (List.cons.inj h).1
    · exact .inl (List.cons.inj h).1
    · exact .inr (List.cons.inj h).1

theorem WritesWord.not_writesDecimal (h : WritesWord text) (negative : Bool) (value : ℚ) :
    ¬ WritesDecimal text negative value := by
  obtain ⟨sign, minus, word, hsign, rfl, hword⟩ := h
  exact SweepCharts.not_writesDecimal hsign (head_word hword) negative value

namespace Cell

/-- The cell of a text, by what the text between the blanks writes. -/
structure ReadBy (raw : String) (chars : List Char) : Prop where
  int : ∀ n, ofText raw = .int n ↔ HoldsInteger chars n
  float : ∀ x, ofText raw = .float x ↔ (¬ ∃ n, HoldsInteger chars n) ∧ HoldsDouble chars x
  text : ∀ s, ofText raw = .text s ↔
    s = raw ∧ (¬ ∃ n, HoldsInteger chars n) ∧ ¬ ∃ x, HoldsDouble chars x
  word : WritesWord chars → ofText raw = .text raw
  overflow : ∀ negative value, WritesDecimal chars negative value →
    2 ^ 1024 - 2 ^ 970 ≤ value → ofText raw = .text raw
  blank : chars = [] → ofText raw = .text raw

theorem ofText_eq_text {raw : String} (h : Trims raw text)
    (hnone : ∀ negative value, WritesDecimal text negative value → 2 ^ 1024 - 2 ^ 970 ≤ value) :
    ofText raw = .text raw := by
  obtain ⟨n, hn, -⟩ | ⟨-, ⟨x, ⟨negative, value, hx, hrounds, hfinite⟩, -⟩ | ⟨-, hraw⟩⟩ :=
    ofText_cases h
  · obtain ⟨negative, value, hvalue, hlt⟩ := hn.exists_writesDecimal
    exact absurd hlt (not_lt.2 (hnone _ _ hvalue))
  · have hinfinite := hrounds.infinite (hnone _ _ hx)
    have hlt := of_decide_eq_true hfinite
    omega
  · exact hraw

/-- **The cell of a text by the grammar.** -/
theorem readBy {raw : String} (h : Trims raw text) : ReadBy raw text where
  int n := by
    obtain ⟨m, hm, hraw⟩ | ⟨hint, ⟨x, hx, hraw⟩ | ⟨hfloat, hraw⟩⟩ := ofText_cases h <;> rw [hraw]
    · rw [Cell.int.injEq]
      exact ⟨fun heq => heq ▸ hm, hm.unique⟩
    · exact iff_of_false (fun heq => nomatch heq) fun hn => hint ⟨n, hn⟩
    · exact iff_of_false (fun heq => nomatch heq) fun hn => hint ⟨n, hn⟩
  float y := by
    obtain ⟨m, hm, hraw⟩ | ⟨hint, ⟨x, hx, hraw⟩ | ⟨hfloat, hraw⟩⟩ := ofText_cases h <;> rw [hraw]
    · exact iff_of_false (fun heq => nomatch heq) fun hy => hy.1 ⟨m, hm⟩
    · rw [Cell.float.injEq]
      exact ⟨fun heq => ⟨hint, heq ▸ hx⟩, fun hy => hx.unique hy.2⟩
    · exact iff_of_false (fun heq => nomatch heq) fun hy => hfloat ⟨y, hy.2⟩
  text s := by
    obtain ⟨m, hm, hraw⟩ | ⟨hint, ⟨x, hx, hraw⟩ | ⟨hfloat, hraw⟩⟩ := ofText_cases h <;> rw [hraw]
    · exact iff_of_false (fun heq => nomatch heq) fun hs => hs.2.1 ⟨m, hm⟩
    · exact iff_of_false (fun heq => nomatch heq) fun hs => hs.2.2 ⟨x, hx⟩
    · rw [Cell.text.injEq]
      exact ⟨fun heq => ⟨heq.symm, hint, hfloat⟩, fun hs => hs.1.symm⟩
  word hword := ofText_eq_text h fun negative value hvalue =>
    absurd hvalue (hword.not_writesDecimal negative value)
  overflow negative value hvalue hle := ofText_eq_text h fun negative' value' hvalue' =>
    (hvalue.unique hvalue').2 ▸ hle
  blank hblank := ofText_eq_text h fun negative value hvalue => by
    subst hblank
    have hnone : ¬ WritesDecimal ([] ++ []) negative value :=
      SweepCharts.not_writesDecimal .none (by simp) negative value
    exact absurd hvalue hnone

example : ofText " -42\t" = .int (-42) := by decide
example : ofText " NaN" = .text " NaN" := by decide

end Cell

/-- Blanks around a number make no difference. -/
theorem ofText_padded {before raw after : String} (hbefore : Within (isBlankChar · = true) before)
    (hafter : Within (isBlankChar · = true) after) (hnumber : ∀ s, Cell.ofText raw ≠ .text s) :
    Cell.ofText (before ++ raw ++ after) = Cell.ofText raw := by
  have htrims : Trims raw (trimmed raw) := trims_iff.2 rfl
  have hpadded : Trims (before ++ raw ++ after) (trimmed raw) := by
    obtain ⟨left, right, hraw, hleft, hright⟩ := htrims.parts
    refine ⟨⟨before.toList ++ left, right ++ after.toList, ?_, ?_, ?_⟩, htrims.first, htrims.last⟩
    · rw [String.toList_append, String.toList_append, hraw]
      simp only [List.append_assoc]
    · exact List.forall_mem_append.2 ⟨hbefore, hleft⟩
    · exact List.forall_mem_append.2 ⟨hright, hafter⟩
  have hread := Cell.readBy htrims
  have hreadPadded := Cell.readBy hpadded
  cases hcell : Cell.ofText raw with
  | int n => exact (hreadPadded.int n).2 ((hread.int n).1 hcell)
  | float x => exact (hreadPadded.float x).2 ((hread.float x).1 hcell)
  | text s => exact absurd hcell (hnumber s)

/-- **What is accepted as a number.** Between the blanks at its ends, a text is an integer of 64
bits, or else a decimal whose nearest double is finite; every other text stays as it is. So blanks
around a number make no difference, and the doubles of loaded records are finite. -/
theorem coercion_accepts_grammar :
    (∀ raw, ∃ text, Trims raw text ∧ Cell.ReadBy raw text) ∧
      (∀ before raw after : String, Within (isBlankChar · = true) before →
        Within (isBlankChar · = true) after → (∀ s, Cell.ofText raw ≠ .text s) →
          Cell.ofText (before ++ raw ++ after) = Cell.ofText raw) ∧
      ∀ (t : Tree) (paths : List String) (records : List Record),
        t.loadRecords paths = .ok records → ∀ r ∈ records, ∀ name x,
          ((name, Field.real (some x)) ∈ r.fields ∨ r.extra.get? name = some (.float x) ∨
            r.invalid.get? name = some (.float x)) → x.isFinite = true := by
  refine ⟨fun raw => ⟨trimmed raw, trims_iff.2 rfl, Cell.readBy (trims_iff.2 rfl)⟩,
    fun before raw after => ofText_padded, fun t paths records h r hr name x hx => ?_⟩
  have hloaded := Tree.isLoaded_of_loadRecords h r hr
  rcases hx with hfield | hextra | hinvalid
  · exact hloaded.isFinite_of_mem_fields hfield
  · exact hloaded.storable_extra name _ hextra
  · exact hloaded.storable_invalid name _ hinvalid

end SweepCharts
