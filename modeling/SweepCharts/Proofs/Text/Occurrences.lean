import SweepCharts.Proofs.Text.Characters

set_option autoImplicit false

/-! # How often a text occurs in another

Occurrences are counted by the places where they start. Those of two texts add up when the texts are
joined, unless one starts in the first text and ends in the second: `Settled` says that none does,
whatever the second text is. So a text that is put together from many is counted part by part.

* `Occurs.append`: the parts of a text.
* `occurs_of_within`: a text without the first character of the pattern.
-/

namespace SweepCharts

/-- The number of places in a text where a pattern starts. -/
def occurrences (pattern text : String) : Nat :=
  text.toList.tails.countP fun tail => pattern.toList.isPrefixOf tail

/-- No text after this one can end a pattern that starts in it. -/
def Settled (pattern text : List Char) : Prop :=
  ∀ tail ∈ text.tails, tail <+: pattern → tail = [] ∨ tail = pattern

instance (pattern text : List Char) : Decidable (Settled pattern text) :=
  inferInstanceAs (Decidable (∀ tail ∈ text.tails, tail <+: pattern → tail = [] ∨ tail = pattern))

/-- The pattern occurs so many times, and no text after it makes a difference to that. -/
def Occurs (pattern text : String) (n : Nat) : Prop :=
  Settled pattern.toList text.toList ∧ occurrences pattern text = n

/-- Fixed texts are counted by their characters. -/
theorem occurs_ofList {pattern text : List Char} {n : Nat}
    (h : Settled pattern text ∧ (text.tails.countP fun tail => pattern.isPrefixOf tail) = n) :
    Occurs (String.ofList pattern) (String.ofList text) n := by
  unfold Occurs occurrences
  simpa using h

theorem settled_cons {pattern text : List Char} {c : Char} :
    Settled pattern (c :: text) ↔
      (c :: text <+: pattern → c :: text = pattern) ∧ Settled pattern text := by
  simp [Settled]

theorem Settled.append {pattern text more : List Char} (h : Settled pattern text)
    (hmore : Settled pattern more) : Settled pattern (text ++ more) := by
  induction text with
  | nil => exact hmore
  | cons c text ih =>
    obtain ⟨hwhole, hrest⟩ := settled_cons.1 h
    rw [List.cons_append, settled_cons]
    refine ⟨fun hprefix => ?_, ih hrest⟩
    have hend : c :: text = pattern :=
      hwhole ((List.prefix_append (c :: text) more).trans hprefix)
    -- the first text is all of the pattern, so that nothing is left for the second
    exact hprefix.eq_of_length_le (by simp [← hend])

theorem countP_tails_append {pattern text : List Char} (hpattern : pattern ≠ [])
    (h : Settled pattern text) (more : List Char) :
    ((text ++ more).tails.countP fun tail => pattern.isPrefixOf tail) =
      (text.tails.countP fun tail => pattern.isPrefixOf tail) +
        more.tails.countP fun tail => pattern.isPrefixOf tail := by
  induction text with
  | nil => simp [hpattern]
  | cons c text ih =>
    obtain ⟨hwhole, hrest⟩ := settled_cons.1 h
    have hstart : pattern <+: c :: (text ++ more) ↔ pattern <+: c :: text := by
      constructor
      · intro hprefix
        rcases List.prefix_or_prefix_of_prefix hprefix (List.prefix_append (c :: text) more) with
          hshort | hlong
        · exact hshort
        · exact hwhole hlong ▸ List.prefix_rfl
      · intro hprefix
        exact hprefix.trans (List.prefix_append (c :: text) more)
    simp only [List.cons_append, List.tails, List.countP_cons, List.isPrefixOf_iff_prefix,
      hstart, ih hrest]
    omega

/-- **Occurrences in a text of two parts.** -/
theorem Occurs.append {pattern s t : String} {m n : Nat} (hpattern : pattern ≠ "")
    (hs : Occurs pattern s m) (ht : Occurs pattern t n) : Occurs pattern (s ++ t) (m + n) := by
  unfold Occurs occurrences at *
  rw [String.toList_append]
  refine ⟨hs.1.append ht.1, ?_⟩
  rw [countP_tails_append (by simpa using hpattern) hs.1, hs.2, ht.2]

theorem Occurs.join {pattern : String} {α : Type} (hpattern : pattern ≠ "") (write : α → String)
    (items : List α) (h : ∀ item ∈ items, Occurs pattern (write item) 1) :
    Occurs pattern (String.join (items.map write)) items.length := by
  induction items with
  | nil =>
    refine ⟨by simp [Settled], ?_⟩
    simpa [occurrences] using hpattern
  | cons item items ih =>
    obtain ⟨hitem, hitems⟩ := List.forall_mem_cons.1 h
    rw [List.map_cons, String.join_cons, List.length_cons, Nat.add_comm]
    exact hitem.append hpattern (ih hitems)

/-- A pattern does not occur in a text without its first character. -/
theorem occurs_of_within {pattern text : String} {first : Char} {rest : List Char}
    (hpattern : pattern.toList = first :: rest) (h : Within (· ≠ first) text) :
    Occurs pattern text 0 := by
  unfold Occurs occurrences
  unfold Within at h
  rw [hpattern]
  generalize text.toList = chars at h
  induction chars with
  | nil => simp [Settled]
  | cons c chars ih =>
    obtain ⟨hc, hchars⟩ := List.forall_mem_cons.1 h
    obtain ⟨hsettled, hcount⟩ := ih hchars
    have hnot : ¬ c :: chars <+: first :: rest := by simp [hc]
    have hnot' : ¬ first :: rest <+: c :: chars := by simp [Ne.symm hc]
    refine ⟨settled_cons.2 ⟨fun hprefix => absurd hprefix hnot, hsettled⟩, ?_⟩
    simpa [List.tails, List.countP_cons, hnot', Ne.symm hc] using hcount

end SweepCharts
