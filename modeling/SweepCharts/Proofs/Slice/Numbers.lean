import SweepCharts.Proofs.Cell.Coercion

set_option autoImplicit false

/-! # The texts that a double is read from

A double is read from a decimal, which is rounded correctly, or from a word for infinity or NaN
after an optional sign. No text is both, because a word starts with a letter. A coerced cell is an
integer first, and of the doubles only a finite one, so the two readings are compared here: on a
text that both take they give the same number, though not always the same zero.

* `writesDouble_iff`: **the texts that are read**, and the double of each.
* `WritesDouble.isFinite_eq_false_iff`: the texts of doubles that are not finite.
* `WritesDouble.sameNumber`: the number of a coerced cell.
* `exists_writesDouble_iff`: what is read and not coerced to a number is not finite.
-/

namespace SweepCharts

/-- A text that writes a double: a decimal, or a word for infinity or NaN after an optional sign. -/
inductive WritesDouble (text : List Char) : Binary64 → Prop
  | decimal {negative : Bool} {value : ℚ} {x : Binary64}
      (writes : WritesDecimal text negative value)
      (rounds : Binary64.RoundsTo negative value x) : WritesDouble text x
  | infinity {sign word : List Char} {negative : Bool} (signed : WritesSign sign negative)
      (text_eq : text = sign ++ word)
      (named : word.map Char.toLower ∈ ["inf".toList, "infinity".toList]) :
      WritesDouble text (Binary64.ofMagnitudeBits negative Binary64.infinityBits)
  | nan {sign word : List Char} {negative : Bool} (signed : WritesSign sign negative)
      (text_eq : text = sign ++ word) (named : word.map Char.toLower = "nan".toList) :
      WritesDouble text (0 / 0)

namespace Binary64

theorem ofWord?_eq_some_iff {negative : Bool} {word : List Char} {x : Binary64} :
    ofWord? negative word = some x ↔
      word.map Char.toLower ∈ ["inf".toList, "infinity".toList] ∧
          x = ofMagnitudeBits negative infinityBits ∨
        word.map Char.toLower = "nan".toList ∧ x = 0 / 0 := by
  have hnan : "nan".toList ∉ ["inf".toList, "infinity".toList] := by decide
  unfold ofWord?
  dsimp only
  simp only [String.ofList_eq, ← List.mem_pair]
  generalize word.map Char.toLower = lower
  split
  · rename_i hword
    have hne : lower ≠ "nan".toList := fun heq => hnan (heq ▸ hword)
    rw [Option.some.injEq, eq_comm]
    exact ⟨fun heq => .inl ⟨hword, heq⟩, fun h => h.elim And.right fun h => absurd h.1 hne⟩
  · rename_i hword
    split
    · rename_i heq
      rw [Option.some.injEq, eq_comm]
      exact ⟨fun hx => .inr ⟨heq, hx⟩, fun h => h.elim (fun h => absurd h.1 hword) And.right⟩
    · rename_i hne
      exact ⟨nofun, fun h => h.elim (fun h => absurd h.1 hword) fun h => absurd h.1 hne⟩

end Binary64

/-- **The texts that are read**, and the double of each. -/
theorem writesDouble_iff {text : List Char} {x : Binary64} :
    WritesDouble text x ↔ Binary64.read? text = some x := by
  unfold Binary64.read?
  constructor
  · -- a word is no decimal, and its sign is the sign of the text
    have hword {sign word : List Char} {negative : Bool} (hsign : WritesSign sign negative)
        (hnamed : word.map Char.toLower ∈ ["inf".toList, "infinity".toList, "nan".toList]) :
        Decimal.read? (sign ++ word) = none ∧ readSign (sign ++ word) = (negative, word) := by
      refine ⟨Option.eq_none_iff_forall_ne_some.2 fun d hd => ?_,
        readSign_append hsign fun c hc => (head_word hnamed c hc).2.2⟩
      exact not_writesDecimal hsign (head_word hnamed) _ _ (writesDecimal_iff.2 ⟨d, hd, rfl, rfl⟩)
    rintro (⟨hwrites, hrounds⟩ | ⟨hsign, rfl, hnamed⟩ | ⟨hsign, rfl, hnamed⟩)
    · obtain ⟨d, hd, rfl, rfl⟩ := writesDecimal_iff.1 hwrites
      rw [hd]
      exact congrArg some (d.roundsTo_toBinary64.unique hrounds)
    · obtain ⟨hnone, hread⟩ := hword hsign (List.mem_append_left ["nan".toList] hnamed)
      rw [hnone, hread]
      exact Binary64.ofWord?_eq_some_iff.2 (.inl ⟨hnamed, rfl⟩)
    · obtain ⟨hnone, hread⟩ := hword hsign (by rw [hnamed]; decide)
      rw [hnone, hread]
      exact Binary64.ofWord?_eq_some_iff.2 (.inr ⟨hnamed, rfl⟩)
  · intro h
    split at h
    · rename_i d hd
      obtain rfl := Option.some.inj h
      exact .decimal (writesDecimal_iff.2 ⟨d, hd, rfl, rfl⟩) d.roundsTo_toBinary64
    · obtain ⟨sign, hsign, htext⟩ := exists_writesSign text
      rcases Binary64.ofWord?_eq_some_iff.1 h with ⟨hnamed, rfl⟩ | ⟨hnamed, rfl⟩
      · exact .infinity hsign htext hnamed
      · exact .nan hsign htext hnamed

theorem WritesDouble.unique {text : List Char} {x y : Binary64} (hx : WritesDouble text x)
    (hy : WritesDouble text y) : x = y :=
  Option.some.inj ((writesDouble_iff.1 hx).symm.trans (writesDouble_iff.1 hy))

theorem WritesDecimal.exists_writesDouble {text : List Char} {negative : Bool} {value : ℚ}
    (h : WritesDecimal text negative value) :
    ∃ x, WritesDouble text x ∧ Binary64.RoundsTo negative value x := by
  obtain ⟨d, -, rfl, rfl⟩ := writesDecimal_iff.1 h
  exact ⟨d.toBinary64, .decimal h d.roundsTo_toBinary64, d.roundsTo_toBinary64⟩

/-! ## Doubles that are not finite -/

/-- A text whose double is not finite: a word for infinity or NaN, or a decimal from half a unit
above the largest double on. -/
def WritesNonFinite (text : List Char) : Prop :=
  WritesWord text ∨
    ∃ negative value, WritesDecimal text negative value ∧ 2 ^ 1024 - 2 ^ 970 ≤ value

theorem WritesNonFinite.exists_writesDouble {text : List Char} (h : WritesNonFinite text) :
    ∃ x, WritesDouble text x := by
  rcases h with ⟨sign, negative, word, hsign, htext, hnamed⟩ | ⟨negative, value, hvalue, -⟩
  · rw [List.mem_cons, List.mem_cons, List.mem_singleton, ← or_assoc, ← List.mem_pair] at hnamed
    rcases hnamed with hnamed | hnamed
    · exact ⟨_, .infinity hsign htext hnamed⟩
    · exact ⟨_, .nan hsign htext hnamed⟩
  · obtain ⟨x, hx, -⟩ := hvalue.exists_writesDouble
    exact ⟨x, hx⟩

theorem WritesDouble.isFinite_eq_false_iff {text : List Char} {x : Binary64}
    (h : WritesDouble text x) : x.isFinite = false ↔ WritesNonFinite text := by
  cases h with
  | @decimal negative value _ hwrites hrounds =>
    constructor
    · intro hfinite
      refine .inr ⟨negative, value, hwrites, not_lt.1 fun hlt => ?_⟩
      rw [(hrounds.nearest hlt).isFinite] at hfinite
      cases hfinite
    · rintro (hword | ⟨negative', value', hwrites', hle⟩)
      · exact absurd hwrites (hword.not_writesDecimal _ _)
      · have hinfinite := hrounds.infinite ((hwrites.unique hwrites').2 ▸ hle)
        exact decide_eq_false (by omega)
  | @infinity sign word negative hsign htext hnamed =>
    refine iff_of_true (by cases negative <;> decide +kernel) (.inl ⟨sign, negative, word, hsign,
      htext, List.mem_append_left ["nan".toList] hnamed⟩)
  | @nan sign word negative hsign htext hnamed =>
    exact iff_of_true (by decide +kernel) (.inl ⟨sign, negative, word, hsign, htext,
      by rw [hnamed]; decide⟩)

theorem WritesDouble.holdsDouble {text : List Char} {x : Binary64} (h : WritesDouble text x)
    (hfinite : x.isFinite = true) : HoldsDouble text x := by
  refine Binary64.finite_read?_iff.1 ?_
  rw [writesDouble_iff.1 h]
  exact if_pos hfinite

/-! ## Against coerced cells -/

/-- Finite doubles of one value; the two zeros have one. -/
structure Binary64.SameNumber (x y : Binary64) : Prop where
  left : x.isFinite = true
  right : y.isFinite = true
  scaled : x.scaled = y.scaled

theorem Binary64.SameNumber.refl {x : Binary64} (h : x.isFinite = true) : x.SameNumber x :=
  ⟨h, h, rfl⟩

variable {raw : String} {text : List Char} {x y : Binary64}

/-- The decimal of an integer is rounded to the double of the integer, the sign of a zero apart. -/
theorem HoldsInteger.sameNumber {n : Int} (hn : HoldsInteger text n) (hx : WritesDouble text x) :
    x.SameNumber (Binary64.ofInt n) := by
  obtain ⟨hwrites, hlow, hhigh⟩ := hn
  obtain ⟨negative, hdecimal, hsign⟩ := hwrites.writesDecimal
  obtain ⟨y, hy, hrounds⟩ := hdecimal.exists_writesDouble
  obtain rfl := hx.unique hy
  have hquotient := Binary64.roundsTo_ofQuotient negative n.natAbs Nat.one_pos
  rw [Nat.cast_one, div_one] at hquotient
  obtain rfl := hrounds.unique hquotient
  rcases hsign with rfl | rfl
  · cases negative <;> exact ⟨by decide +kernel, by decide +kernel, by decide +kernel⟩
  · exact .refl (Binary64.isFinite_ofInt (n := n) (by omega))

/-- **One number in both loaders**, where a cell is coerced to one. -/
theorem WritesDouble.sameNumber (hx : WritesDouble text x) (h : Trims raw text)
    (hy : (Cell.ofText raw).toFloat? = some y) : x.SameNumber y := by
  obtain ⟨n, hn, hraw⟩ | ⟨-, ⟨z, ⟨negative, value, hz, hrounds, hfinite⟩, hraw⟩ | ⟨-, hraw⟩⟩ :=
    Cell.ofText_cases h <;> rw [hraw] at hy
  · obtain rfl := Option.some.inj hy
    exact hn.sameNumber hx
  · obtain rfl := Option.some.inj hy
    rw [hx.unique (.decimal hz hrounds)]
    exact .refl hfinite
  · cases hy

/-- **What a slice sweep takes for a number**: what is coerced to one, and what is not finite. -/
theorem exists_writesDouble_iff (h : Trims raw text) : (∃ x, WritesDouble text x) ↔
    (Cell.ofText raw).toFloat?.isSome = true ∨ WritesNonFinite text := by
  constructor
  · rintro ⟨x, hx⟩
    cases hfinite : x.isFinite with
    | false => exact .inr (hx.isFinite_eq_false_iff.1 hfinite)
    | true =>
      refine .inl ?_
      obtain ⟨n, -, hraw⟩ | ⟨-, ⟨z, -, hraw⟩ | ⟨hnone, -⟩⟩ := Cell.ofText_cases h
      · rw [hraw]
        rfl
      · rw [hraw]
        rfl
      · exact absurd ⟨x, hx.holdsDouble hfinite⟩ hnone
  · rintro (hsome | hnonfinite)
    · obtain ⟨n, hn, -⟩ | ⟨-, ⟨z, ⟨negative, value, hz, hrounds, -⟩, -⟩ | ⟨-, hraw⟩⟩ :=
        Cell.ofText_cases h
      · obtain ⟨negative, hdecimal, -⟩ := hn.1.writesDecimal
        obtain ⟨x, hx, -⟩ := hdecimal.exists_writesDouble
        exact ⟨x, hx⟩
      · exact ⟨z, .decimal hz hrounds⟩
      · rw [hraw] at hsome
        cases hsome
    · exact hnonfinite.exists_writesDouble

/-- Blanks at the ends make no difference to the number of a cell. -/
theorem toFloat?_ofText_eq {other : String} (h : Trims raw text) (hother : Trims other text) :
    (Cell.ofText raw).toFloat? = (Cell.ofText other).toFloat? := by
  have hread := Cell.readBy hother
  obtain ⟨n, hn, hraw⟩ | ⟨hint, ⟨x, hx, hraw⟩ | ⟨hfloat, hraw⟩⟩ := Cell.ofText_cases h
  · rw [hraw, (hread.int n).2 hn]
  · rw [hraw, (hread.float x).2 ⟨hint, hx⟩]
  · rw [hraw, (hread.text other).2 ⟨rfl, hint, hfloat⟩]
    rfl

end SweepCharts
