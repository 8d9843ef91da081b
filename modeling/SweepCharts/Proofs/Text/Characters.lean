import Mathlib.Data.List.Basic

set_option autoImplicit false

/-! # Texts of certain characters

`Within P text` says that every character of a text passes a test. It holds of what is put together
from such texts, and of decimal digits if they pass the test.
-/

namespace SweepCharts

/-- Every character of the text passes the test. -/
def Within (P : Char → Prop) (text : String) : Prop := ∀ c ∈ text.toList, P c

instance (P : Char → Prop) [DecidablePred P] (text : String) : Decidable (Within P text) :=
  List.decidableBAll P text.toList

variable {P Q : Char → Prop} {s t : String}

theorem Within.mono (h : Within P s) (hPQ : ∀ c, P c → Q c) : Within Q s :=
  fun c hc => hPQ c (h c hc)

@[simp] theorem within_append : Within P (s ++ t) ↔ Within P s ∧ Within P t := by
  simp [Within, or_imp, forall_and]

@[simp] theorem within_ofList {chars : List Char} :
    Within P (String.ofList chars) ↔ ∀ c ∈ chars, P c := by
  simp [Within]

theorem within_intercalate (hs : Within P s) {parts : List String}
    (h : ∀ part ∈ parts, Within P part) : Within P (s.intercalate parts) := by
  unfold Within
  rw [String.toList_intercalate]
  induction parts with
  | nil => simp
  | cons part parts ih =>
    obtain ⟨hpart, hparts⟩ := List.forall_mem_cons.1 h
    cases parts with
    | nil => simpa [Within] using hpart
    | cons next parts =>
      rw [List.map_cons, List.map_cons, List.intercalate_cons_cons]
      simp only [List.forall_mem_append]
      exact ⟨⟨hpart, hs⟩, ih hparts⟩

/-! ## Decimal digits -/

theorem toList_toString_nat (n : Nat) : (toString n).toList = Nat.toDigits 10 n := by
  rw [Nat.toString_eq_repr, Nat.toList_repr]

theorem toList_toString_int (n : Int) :
    (toString n).toList =
      if n < 0 then '-' :: Nat.toDigits 10 n.natAbs else Nat.toDigits 10 n.natAbs := by
  cases n with
  | ofNat m => exact toList_toString_nat m
  | negSucc m =>
    show ("-" ++ toString (m + 1)).toList = _
    rw [String.toList_append, toList_toString_nat, if_pos (Int.negSucc_lt_zero m)]
    rfl

section
variable (hdigit : ∀ c : Char, c.isDigit = true → P c)
include hdigit

theorem forall_toDigits (n : Nat) : ∀ c ∈ Nat.toDigits 10 n, P c :=
  fun c hc => hdigit c (Nat.isDigit_of_mem_toDigits (by decide) (by decide) hc)

theorem forall_zeros (n : Nat) : ∀ c ∈ List.replicate n '0', P c := by
  intro c hc
  rw [List.eq_of_mem_replicate hc]
  exact hdigit '0' (by decide)

theorem within_toString_nat (n : Nat) : Within P (toString n) := by
  rw [Within, toList_toString_nat]
  exact forall_toDigits hdigit n

theorem within_toString_int (hminus : P '-') (n : Int) : Within P (toString n) := by
  rw [Within, toList_toString_int]
  split
  · exact List.forall_mem_cons.2 ⟨hminus, forall_toDigits hdigit _⟩
  · exact forall_toDigits hdigit _

end

end SweepCharts
