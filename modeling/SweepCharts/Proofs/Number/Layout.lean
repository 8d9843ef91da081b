import SweepCharts.Number.Count
import SweepCharts.Proofs.Text.Characters

set_option autoImplicit false

/-! # The characters of numbers

* `within_write_json`: a finite double in a JSON text is written with digits, signs, a point and the
  letter of a power of ten.
* `within_fixed`, `within_writeCount`: numbers in messages.
-/

namespace SweepCharts

/-- What numbers in JSON texts are written with. -/
def IsNumeralChar (c : Char) : Prop := c.isDigit = true ∨ c ∈ ['+', '-', '.', 'e']

instance : DecidablePred IsNumeralChar := fun c =>
  inferInstanceAs (Decidable (c.isDigit = true ∨ c ∈ ['+', '-', '.', 'e']))

theorem isNumeralChar_of_isDigit (c : Char) (h : c.isDigit = true) : IsNumeralChar c := .inl h

namespace Binary64

theorem isNaN_of_isFinite {x : Binary64} (h : x.isFinite = true) : x.isNaN = false := by
  simp only [isFinite, isNaN, decide_eq_true_eq, decide_eq_false_iff_not] at h ⊢
  omega

end Binary64

namespace Layout

theorem forall_text (d : Digits) : ∀ c ∈ d.text, IsNumeralChar c :=
  forall_toDigits isNumeralChar_of_isDigit d.coefficient

theorem forall_zeros (n : Nat) : ∀ c ∈ zeros n, IsNumeralChar c :=
  SweepCharts.forall_zeros isNumeralChar_of_isDigit n

theorem within_writePositional {layout : Layout}
    (hsuffix : Within IsNumeralChar layout.wholeSuffix) (d : Digits) :
    Within IsNumeralChar (layout.writePositional d) := by
  have hpadded (n : Nat) : ∀ c ∈ zeros n ++ d.text, IsNumeralChar c := by
    rw [List.forall_mem_append]
    exact ⟨forall_zeros n, forall_text d⟩
  unfold writePositional
  dsimp only
  split
  · rw [within_append, within_ofList, List.forall_mem_append]
    exact ⟨⟨forall_text d, forall_zeros _⟩, hsuffix⟩
  · rw [within_ofList, List.forall_mem_append, List.forall_mem_cons]
    exact ⟨fun c hc => hpadded _ c (List.mem_of_mem_take hc), by decide,
      fun c hc => hpadded _ c (List.mem_of_mem_drop hc)⟩

theorem within_writeScientific (d : Digits) : Within IsNumeralChar (writeScientific d) := by
  have hpoint : IsNumeralChar '.' := by decide
  have htext := forall_text d
  unfold writeScientific
  dsimp only
  rw [within_append, within_append, within_append]
  refine ⟨⟨⟨?_, by decide⟩, ?_⟩, within_toString_nat isNumeralChar_of_isDigit _⟩
  · rw [within_ofList]
    split
    · exact nofun
    · rename_i c heq
      exact heq ▸ htext
    · rename_i c rest _ heq
      rw [heq, List.forall_mem_cons] at htext
      rw [List.forall_mem_cons, List.forall_mem_cons]
      exact ⟨htext.1, hpoint, htext.2⟩
  · split <;> decide

theorem within_write_json {x : Binary64} (hx : x.isFinite = true) :
    Within IsNumeralChar (json.write x) := by
  have hsign : Within IsNumeralChar (if x.isNegative then "-" else "") := by
    split <;> decide
  have hsuffix : Within IsNumeralChar json.wholeSuffix := by decide
  unfold write
  dsimp only
  rw [if_neg (by simp [Binary64.isNaN_of_isFinite hx]), if_neg (by simp [hx])]
  split
  · rw [within_append, within_append]
    exact ⟨⟨hsign, by decide⟩, hsuffix⟩
  · rw [within_append]
    refine ⟨hsign, ?_⟩
    split
    · exact within_writePositional hsuffix _
    · exact within_writeScientific _

end Layout

/-! ## Numbers in messages -/

section
variable {P : Char → Prop} (hdigit : ∀ c : Char, c.isDigit = true → P c)
  (hletter : Within P "-.NaNinf")
include hdigit hletter

theorem within_fixed (places : Nat) (x : Binary64) : Within P (x.fixed places) := by
  have hmem (text : String) (h : Within (· ∈ "-.NaNinf".toList) text) : Within P text :=
    fun c hc => hletter c (h c hc)
  have hsign : Within P (if x.isNegative then "-" else "") := by
    split
    · exact hmem "-" (by decide)
    · exact nofun
  unfold Binary64.fixed
  dsimp only
  split
  · exact hmem "NaN" (by decide)
  · split
    · rw [within_append]
      exact ⟨hsign, hmem "inf" (by decide)⟩
    · rw [within_append, within_append]
      refine ⟨⟨hsign, within_toString_nat hdigit _⟩, ?_⟩
      split
      · exact nofun
      · rw [within_append]
        refine ⟨hmem "." (by decide), ?_⟩
        rw [within_ofList, List.forall_mem_append]
        exact ⟨forall_zeros hdigit _, forall_toDigits hdigit _⟩

theorem within_write (x : Binary64) (scale : CountScale) (scales : List CountScale)
    (hscales : ∀ s ∈ scale :: scales, Within P s.letter) :
    Within P (CountScale.write x scale scales) := by
  induction scales generalizing x scale with
  | nil =>
    rw [CountScale.write, within_append]
    exact ⟨within_fixed hdigit hletter _ _, hscales scale (.head _)⟩
  | cons next rest ih =>
    rw [CountScale.write]
    split
    · rw [within_append]
      exact ⟨within_fixed hdigit hletter _ _, hscales scale (.head _)⟩
    · exact ih _ next fun s hs => hscales s (.tail _ hs)

theorem within_writeCount (hscale : Within P "kMGTPEZY") (n : Nat) : Within P (writeCount n) := by
  apply within_write hdigit hletter
  have hletters : ∀ s ∈ CountScale.units :: CountScale.larger,
      Within (· ∈ "kMGTPEZY".toList) s.letter := by decide
  exact fun s hs c hc => hscale c (hletters s hs c hc)

end

end SweepCharts
