import Mathlib.Data.List.DropRight
import SweepCharts.Proofs.Json.Spacing

set_option autoImplicit false

/-! # JSON texts read back

Both printers lay out a value with blanks only, so one reading proof does for both of them, by
induction on the value. Strings read back whatever they hold. A number does if it is an integer of
64 bits, or a double whose own text is read as that double.

* `readChars?_escaped`: strings.
* `readValue?_layOut`: a value in any layout, with more text after it.
* `read?_pretty`, `read?_compact`: **the two printers**.
-/

namespace SweepCharts.Json

/-! ## Strings -/

theorem hexValue?_hexDigit (n : Nat) : hexValue? (hexDigit n) = some (n % 16) := by
  have hall : ∀ digit ∈ List.range 16, hexValue? (Nat.digitChar digit) = some digit := by decide
  exact hall _ (List.mem_range.2 (Nat.mod_lt n (by decide)))

/-- A control character is read back from its number. -/
theorem readNumbered?_of_lt {c : Char} (h : c.toNat < 0x20) (rest : List Char) :
    readNumbered? ('0' :: '0' :: hexDigit (c.toNat / 16) :: hexDigit c.toNat :: rest) =
      some (c, rest) := by
  have hzero : hexValue? '0' = some 0 := by decide
  have hvalue : c.toNat / 16 % 16 * 16 + c.toNat % 16 = c.toNat := by omega
  have hread : readHex4? ('0' :: '0' :: hexDigit (c.toNat / 16) :: hexDigit c.toNat :: rest) =
      some (c.toNat, rest) := by
    simp [readHex4?, hzero, hexValue?_hexDigit, hvalue]
  have hlow : ¬ (0xD800 ≤ c.toNat ∧ c.toNat < 0xDC00) := by omega
  have hhigh : ¬ (0xDC00 ≤ c.toNat ∧ c.toNat < 0xE000) := by omega
  unfold readNumbered?
  rw [hread]
  simp [hlow, hhigh, Char.ofNat_toNat]

/-- One character of a string, escaped or not. -/
theorem readChars?_escape (c : Char) (fuel : Nat) (rest : List Char) :
    readChars? (fuel + 1) (escape c ++ rest) =
      (readChars? fuel rest).map fun r => (c :: r.1, r.2) := by
  have hcode {n : Nat} (h : c.toNat = n) : c = Char.ofNat n := by
    rw [← h, Char.ofNat_toNat]
  have hstep (escaped : List Char) (h : readEscape? (escaped ++ rest) = some (c, rest)) :
      readChars? (fuel + 1) ('\\' :: (escaped ++ rest)) =
        (readChars? fuel rest).map fun r => (c :: r.1, r.2) := by
    rw [readChars?, if_neg (by decide), if_pos rfl, h]
    simp only [Option.bind_eq_bind, Option.bind_some]
    cases readChars? fuel rest <;> rfl
  unfold escape
  split
  · rename_i h
    subst h
    exact hstep ['"'] rfl
  split
  · rename_i h
    subst h
    exact hstep ['\\'] rfl
  split
  · rename_i h
    obtain rfl : c = '\x08' := hcode h
    exact hstep ['b'] rfl
  split
  · rename_i h
    obtain rfl : c = '\x0c' := hcode h
    exact hstep ['f'] rfl
  split
  · rename_i h
    subst h
    exact hstep ['n'] rfl
  split
  · rename_i h
    subst h
    exact hstep ['r'] rfl
  split
  · rename_i h
    subst h
    exact hstep ['t'] rfl
  split
  · rename_i h
    exact hstep ['u', '0', '0', hexDigit (c.toNat / 16), hexDigit c.toNat]
      (readNumbered?_of_lt h rest)
  · rename_i hquote hslash _ _ _ _ _ hcontrol
    rw [List.singleton_append, readChars?, if_neg hquote, if_neg hslash, if_neg hcontrol]
    cases readChars? fuel rest <;> rfl

/-- **A string is read back**, whatever characters it has. -/
theorem readChars?_escaped (text : String) {fuel : Nat} (h : (escaped text).length < fuel)
    (rest : List Char) :
    readChars? fuel (escaped text ++ '"' :: rest) = some (text.toList, rest) := by
  unfold escaped at h ⊢
  generalize text.toList = chars at h ⊢
  induction chars generalizing fuel with
  | nil =>
    obtain ⟨fuel, rfl⟩ : ∃ n, fuel = n + 1 := ⟨fuel - 1, by omega⟩
    rfl
  | cons c chars ih =>
    have hlength : 0 < (escape c).length := by
      unfold escape
      repeat' split
      all_goals simp
    rw [List.flatMap_cons, List.length_append] at h
    obtain ⟨fuel, rfl⟩ : ∃ n, fuel = n + 1 := ⟨fuel - 1, by omega⟩
    rw [List.flatMap_cons, List.append_assoc, readChars?_escape, ih (by omega)]
    rfl

/-! ## Values -/

mutual

/-- A value whose numbers are read back: its integers fit 64 bits, and each of its doubles is finite
and the one that its own text holds. -/
def Readable : Json → Prop
  | int n => FitsInt n
  | float x => x.isFinite = true ∧ read? (Layout.json.write x) = some (float x)
  | array items => ReadableItems items
  | object members => ReadableMembers members
  | _ => True

def ReadableItems : List Json → Prop
  | [] => True
  | item :: rest => item.Readable ∧ ReadableItems rest

def ReadableMembers : List (String × Json) → Prop
  | [] => True
  | (_, value) :: rest => value.Readable ∧ ReadableMembers rest

end

theorem readable_array {items : List Json} :
    (array items).Readable ↔ ∀ item ∈ items, item.Readable := by
  rw [Readable]
  induction items with
  | nil => simp [ReadableItems]
  | cons item items ih => rw [ReadableItems, ih, List.forall_mem_cons]

theorem readable_object {members : List (String × Json)} :
    (object members).Readable ↔ ∀ m ∈ members, m.2.Readable := by
  rw [Readable]
  induction members with
  | nil => simp [ReadableMembers]
  | cons m members ih => rw [ReadableMembers, ih, List.forall_mem_cons]

theorem write_json_ne_empty {x : Binary64} (h : read? (Layout.json.write x) = some (float x)) :
    Layout.json.write x ≠ "" := by
  intro hempty
  rw [hempty] at h
  cases h

/-- A value starts with a character that is no blank and closes no bracket. -/
theorem exists_layOut_eq (s : Spacing) (level : Nat) {value : Json} (h : value.Readable) :
    ∃ c text, layOut s level value = c :: text ∧ isBlank c = false ∧ c ≠ ']' := by
  have hnumber {text : List Char} (h : StartsNumber text) :
      ∃ c rest, text = c :: rest ∧ isBlank c = false ∧ c ≠ ']' := by
    obtain ⟨c, rest, rfl, hc⟩ := h
    refine ⟨c, rest, rfl, isBlank_of_isNumeralChar hc, ?_⟩
    rintro rfl
    revert hc
    decide
  cases value with
  | null => exact ⟨'n', _, by rw [layOut]; rfl, by decide, by decide⟩
  | bool b =>
    cases b with
    | false => exact ⟨'f', _, by rw [layOut]; rfl, by decide, by decide⟩
    | true => exact ⟨'t', _, by rw [layOut]; rfl, by decide, by decide⟩
  | int n =>
    rw [layOut]
    exact hnumber (startsNumber_int n)
  | float x =>
    obtain ⟨hfinite, hread⟩ := h
    rw [layOut, number, if_pos hfinite]
    exact hnumber (StartsNumber.of_within (by simpa using write_json_ne_empty hread)
      (Layout.within_write_json hfinite))
  | string text => exact ⟨'"', _, by rw [layOut], by decide, by decide⟩
  | array items =>
    rw [layOut]
    split
    · exact ⟨'[', _, rfl, by decide, by decide⟩
    · exact ⟨'[', _, rfl, by decide, by decide⟩
  | object members =>
    rw [layOut]
    split
    · exact ⟨'\x7b', _, rfl, by decide, by decide⟩
    · exact ⟨'\x7b', _, rfl, by decide, by decide⟩

/-! ### Blanks around values -/

theorem skipBlanks_layOut {s : Spacing} {level : Nat} {value : Json} (h : value.Readable)
    {blanks : List Char} (hblanks : ∀ c ∈ blanks, isBlank c = true) (rest : List Char) :
    skipBlanks (blanks ++ (layOut s level value ++ rest)) = layOut s level value ++ rest := by
  obtain ⟨c, text, htext, hc, -⟩ := exists_layOut_eq s level h
  rw [htext, List.cons_append, skipBlanks_append hblanks hc]

theorem endsNumeral_cons {c : Char} (hc : c.isDigit = false ∧ c ≠ '.' ∧ c ≠ 'e' ∧ c ≠ 'E')
    (rest : List Char) : EndsNumeral (c :: rest) := by
  intro d hd
  obtain rfl : c = d := by simpa using hd
  exact hc

theorem endsNumeral_append {blanks : List Char} (h : ∀ c ∈ blanks, isBlank c = true) {c : Char}
    (hc : c.isDigit = false ∧ c ≠ '.' ∧ c ≠ 'e' ∧ c ≠ 'E') (rest : List Char) :
    EndsNumeral (blanks ++ c :: rest) := by
  cases blanks with
  | nil => exact endsNumeral_cons hc rest
  | cons b blanks =>
    intro d hd
    obtain rfl : b = d := by simpa using hd
    have hb := h b (.head _)
    simp only [isBlank, Bool.or_eq_true, decide_eq_true_eq] at hb
    rcases hb with ((rfl | rfl) | rfl) | rfl <;> decide

theorem skipBlanks_of_not_blank {c : Char} (hc : isBlank c = false) (text : List Char) :
    skipBlanks (c :: text) = c :: text :=
  List.dropWhile_cons_of_neg (by simp [hc])

theorem skipBlanks_skipBlanks (text : List Char) : skipBlanks (skipBlanks text) = skipBlanks text :=
  List.dropWhile_idempotent _ _

theorem readValue?_skipBlanks (fuel : Nat) (text : List Char) :
    readValue? fuel (skipBlanks text) = readValue? fuel text := by
  cases fuel with
  | zero => rw [readValue?, readValue?]
  | succ fuel => rw [readValue?, readValue?, skipBlanks_skipBlanks]

theorem readItems?_skipBlanks (fuel : Nat) (text : List Char) :
    readItems? fuel (skipBlanks text) = readItems? fuel text := by
  cases fuel with
  | zero => rw [readItems?, readItems?]
  | succ fuel => rw [readItems?, readItems?, readValue?_skipBlanks]

theorem readMembers?_skipBlanks (fuel : Nat) (text : List Char) :
    readMembers? fuel (skipBlanks text) = readMembers? fuel text := by
  cases fuel with
  | zero => rw [readMembers?, readMembers?]
  | succ fuel => rw [readMembers?, readMembers?, skipBlanks_skipBlanks]

/-! ### One step of the readers -/

section
variable {blanks : List Char} (hblanks : ∀ c ∈ blanks, isBlank c = true) {fuel : Nat}
include hblanks

theorem readValue?_string {text : String} (h : (escaped text).length < fuel) (rest : List Char) :
    readValue? (fuel + 1) (blanks ++ '"' :: (escaped text ++ '"' :: rest)) =
      some (string text, rest) := by
  rw [readValue?, skipBlanks_append hblanks (by decide)]
  simp [readChars?_escaped text h]

theorem readValue?_array_nil (rest : List Char) :
    readValue? (fuel + 1) (blanks ++ '[' :: ']' :: rest) = some (array [], rest) := by
  rw [readValue?, skipBlanks_append hblanks (by decide)]
  simp only [skipBlanks_of_not_blank (c := ']') (by decide)]

theorem readValue?_array {text rest : List Char} {items : List Json}
    (hopen : ∀ more, skipBlanks text ≠ ']' :: more)
    (h : readItems? fuel text = some (items, rest)) :
    readValue? (fuel + 1) (blanks ++ '[' :: text) = some (array items, rest) := by
  rw [readValue?, skipBlanks_append hblanks (by decide)]
  -- the text does not start with the closing bracket, so the last branch is the one taken
  simp only [readItems?_skipBlanks, h, Option.bind_eq_bind, Option.bind_some]

theorem readValue?_object_nil (rest : List Char) :
    readValue? (fuel + 1) (blanks ++ '\x7b' :: '\x7d' :: rest) = some (object [], rest) := by
  rw [readValue?, skipBlanks_append hblanks (by decide)]
  simp only [skipBlanks_of_not_blank (c := '\x7d') (by decide)]

theorem readValue?_object {text rest : List Char} {members : List (String × Json)}
    (hopen : ∀ more, skipBlanks text ≠ '\x7d' :: more)
    (h : readMembers? fuel text = some (members, rest)) :
    readValue? (fuel + 1) (blanks ++ '\x7b' :: text) = some (object members, rest) := by
  rw [readValue?, skipBlanks_append hblanks (by decide)]
  -- the text does not start with the closing bracket, so the last branch is the one taken
  simp only [readMembers?_skipBlanks, h, Option.bind_eq_bind, Option.bind_some]

theorem readItems?_last {text rest : List Char} {item : Json}
    (h : readValue? fuel text = some (item, blanks ++ ']' :: rest)) :
    readItems? (fuel + 1) text = some ([item], rest) := by
  rw [readItems?, h]
  simp [skipBlanks_append hblanks (c := ']') (by decide)]

theorem readMembers?_last {tail text rest : List Char} {key : String} {value : Json}
    (htail : ∀ c ∈ tail, isBlank c = true) (hkey : (escaped key).length < fuel)
    (h : readValue? fuel text = some (value, tail ++ '\x7d' :: rest)) :
    readMembers? (fuel + 1) (blanks ++ '"' :: (escaped key ++ '"' :: ':' :: text)) =
      some ([(key, value)], rest) := by
  rw [readMembers?, skipBlanks_append hblanks (by decide)]
  simp only [readChars?_escaped key hkey, Option.bind_eq_bind, Option.bind_some,
    skipBlanks_of_not_blank (c := ':') (by decide), h,
    skipBlanks_append htail (c := '\x7d') (by decide), String.ofList_toList]

theorem readMembers?_more {text rest more : List Char} {key : String} {value : Json}
    {members : List (String × Json)} (hkey : (escaped key).length < fuel)
    (h : readValue? fuel text = some (value, ',' :: rest))
    (hmore : readMembers? fuel rest = some (members, more)) :
    readMembers? (fuel + 1) (blanks ++ '"' :: (escaped key ++ '"' :: ':' :: text)) =
      some ((key, value) :: members, more) := by
  rw [readMembers?, skipBlanks_append hblanks (by decide)]
  simp only [readChars?_escaped key hkey, Option.bind_eq_bind, Option.bind_some,
    skipBlanks_of_not_blank (c := ':') (by decide), h,
    skipBlanks_of_not_blank (c := ',') (by decide), hmore, String.ofList_toList]

end

theorem readItems?_more {fuel : Nat} {text rest more : List Char} {item : Json} {items : List Json}
    (h : readValue? fuel text = some (item, ',' :: rest))
    (hmore : readItems? fuel rest = some (items, more)) :
    readItems? (fuel + 1) text = some (item :: items, more) := by
  rw [readItems?, h]
  simp [skipBlanks_of_not_blank (c := ',') (by decide), hmore]

/-! ### By induction on the value -/

theorem skipBlanks_layOutItems {s : Spacing} {level : Nat} {items : List Json}
    (hne : items.isEmpty = false) (h : ∀ item ∈ items, item.Readable) (rest more : List Char) :
    skipBlanks (layOutItems s level items ++ rest) ≠ ']' :: more := by
  obtain ⟨item, items, rfl⟩ := List.exists_cons_of_ne_nil (by simpa using hne)
  obtain ⟨c, text, htext, hc, hbracket⟩ := exists_layOut_eq s level (h item (.head _))
  rw [layOutItems, htext]
  simp only [List.append_assoc, List.cons_append]
  rw [skipBlanks_append (s.gap_blank level) hc]
  exact fun heq => hbracket (List.cons.inj heq).1

theorem skipBlanks_layOutMembers {s : Spacing} {level : Nat} {members : List (String × Json)}
    (hne : members.isEmpty = false) (rest more : List Char) :
    skipBlanks (layOutMembers s level members ++ rest) ≠ '\x7d' :: more := by
  obtain ⟨⟨key, value⟩, members, rfl⟩ := List.exists_cons_of_ne_nil (by simpa using hne)
  rw [layOutMembers]
  simp only [List.append_assoc, List.cons_append]
  rw [skipBlanks_append (s.gap_blank level) (by decide)]
  simp

mutual

/-- **A value in any layout is read back**, whatever blanks stand before it and whatever follows it
that does not go on with a numeral. -/
theorem readValue?_layOut (s : Spacing) (level : Nat) : (value : Json) → value.Readable →
    ∀ (blanks rest : List Char) (fuel : Nat), (∀ c ∈ blanks, isBlank c = true) →
      EndsNumeral rest → 2 * (layOut s level value).length ≤ fuel + 1 →
      readValue? (fuel + 1) (blanks ++ (layOut s level value ++ rest)) = some (value, rest)
  | null, hvalue, blanks, rest, fuel, hblanks, _, _ => by
    rw [readValue?, skipBlanks_layOut hvalue hblanks, layOut]
    rfl
  | bool b, hvalue, blanks, rest, fuel, hblanks, _, _ => by
    rw [readValue?, skipBlanks_layOut hvalue hblanks, layOut]
    cases b <;> rfl
  | int n, hvalue, blanks, rest, fuel, hblanks, hrest, _ => by
    rw [layOut, readValue?_of_startsNumber hblanks ((startsNumber_int n).append rest)]
    exact readScalar?_int hvalue hrest
  | float x, ⟨hfinite, hread⟩, blanks, rest, fuel, hblanks, hrest, _ => by
    have hwithin := Layout.within_write_json hfinite
    have hne := write_json_ne_empty hread
    rw [layOut, number, if_pos hfinite, readValue?_of_startsNumber hblanks
      ((StartsNumber.of_within (by simpa using hne) hwithin).append rest)]
    exact readScalar?_of_read? hne hwithin hread hrest
  | string text, _, blanks, rest, fuel, hblanks, _, hfuel => by
    rw [layOut] at hfuel ⊢
    simp only [List.length_cons, List.length_append] at hfuel
    simp only [List.cons_append, List.append_assoc, List.nil_append]
    exact readValue?_string hblanks (by omega) rest
  | array items, hvalue, blanks, rest, fuel, hblanks, _, hfuel => by
    rw [layOut] at hfuel ⊢
    split
    · rename_i hempty
      rw [List.isEmpty_iff.1 hempty]
      exact readValue?_array_nil hblanks rest
    · rename_i hne
      rw [if_neg hne] at hfuel
      simp only [List.length_cons, List.length_append] at hfuel
      simp only [List.cons_append, List.append_assoc, List.nil_append]
      apply readValue?_array hblanks
      · exact skipBlanks_layOutItems (by simpa using hne) (readable_array.1 hvalue) _
      · obtain ⟨fuel, rfl⟩ : ∃ n, fuel = n + 2 := ⟨fuel - 2, by omega⟩
        exact readItems?_layOut s (level + 1) items (by simpa using hne) hvalue _ rest fuel
          (s.gap_blank level) (by omega)
  | object members, hvalue, blanks, rest, fuel, hblanks, _, hfuel => by
    rw [layOut] at hfuel ⊢
    split
    · rename_i hempty
      rw [List.isEmpty_iff.1 hempty]
      exact readValue?_object_nil hblanks rest
    · rename_i hne
      rw [if_neg hne] at hfuel
      simp only [List.length_cons, List.length_append] at hfuel
      simp only [List.cons_append, List.append_assoc, List.nil_append]
      apply readValue?_object hblanks
      · exact skipBlanks_layOutMembers (by simpa using hne) _
      · obtain ⟨fuel, rfl⟩ : ∃ n, fuel = n + 2 := ⟨fuel - 2, by omega⟩
        exact readMembers?_layOut s (level + 1) members (by simpa using hne) hvalue _ rest fuel
          (s.gap_blank level) (by omega)

theorem readItems?_layOut (s : Spacing) (level : Nat) : (items : List Json) → items ≠ [] →
    ReadableItems items → ∀ (tail rest : List Char) (fuel : Nat),
      (∀ c ∈ tail, isBlank c = true) → 2 * (layOutItems s level items).length ≤ fuel + 1 →
      readItems? (fuel + 2) (layOutItems s level items ++ (tail ++ ']' :: rest)) =
        some (items, rest)
  | [], hne, _, _, _, _, _, _ => absurd rfl hne
  | [item], _, ⟨hitem, _⟩, tail, rest, fuel, htail, hfuel => by
    simp only [layOutItems, List.isEmpty_nil, if_true, List.append_nil] at hfuel ⊢
    rw [List.length_append] at hfuel
    rw [List.append_assoc]
    apply readItems?_last htail
    exact readValue?_layOut s level item hitem _ _ fuel (s.gap_blank level)
      (endsNumeral_append htail (by decide) rest) (by omega)
  | item :: next :: items, _, ⟨hitem, hitems⟩, tail, rest, fuel, htail, hfuel => by
    rw [layOutItems, List.isEmpty_cons, if_neg Bool.false_ne_true] at hfuel ⊢
    simp only [List.length_append, List.length_cons] at hfuel
    simp only [List.append_assoc, List.cons_append]
    obtain ⟨fuel, rfl⟩ : ∃ n, fuel = n + 1 := ⟨fuel - 1, by omega⟩
    apply readItems?_more
    · exact readValue?_layOut s level item hitem _ _ (fuel + 1) (s.gap_blank level)
        (endsNumeral_cons (by decide) _) (by omega)
    · exact readItems?_layOut s level (next :: items) (List.cons_ne_nil _ _) hitems tail rest fuel
        htail (by omega)

theorem readMembers?_layOut (s : Spacing) (level : Nat) : (members : List (String × Json)) →
    members ≠ [] → ReadableMembers members → ∀ (tail rest : List Char) (fuel : Nat),
      (∀ c ∈ tail, isBlank c = true) → 2 * (layOutMembers s level members).length ≤ fuel + 1 →
      readMembers? (fuel + 2) (layOutMembers s level members ++ (tail ++ '\x7d' :: rest)) =
        some (members, rest)
  | [], hne, _, _, _, _, _, _ => absurd rfl hne
  | [(key, value)], _, ⟨hvalue, _⟩, tail, rest, fuel, htail, hfuel => by
    simp only [layOutMembers, List.isEmpty_nil, if_true, List.append_nil] at hfuel ⊢
    simp only [List.length_append, List.length_cons] at hfuel
    simp only [List.append_assoc, List.cons_append]
    apply readMembers?_last (s.gap_blank level) htail (by omega)
    exact readValue?_layOut s level value hvalue _ _ fuel s.colon_blank
      (endsNumeral_append htail (by decide) rest) (by omega)
  | (key, value) :: next :: members, _, ⟨hvalue, hmembers⟩, tail, rest, fuel, htail, hfuel => by
    rw [layOutMembers, List.isEmpty_cons, if_neg Bool.false_ne_true] at hfuel ⊢
    simp only [List.length_append, List.length_cons] at hfuel
    simp only [List.append_assoc, List.cons_append]
    obtain ⟨fuel, rfl⟩ : ∃ n, fuel = n + 1 := ⟨fuel - 1, by omega⟩
    apply readMembers?_more (s.gap_blank level) (by omega)
    · exact readValue?_layOut s level value hvalue _ _ (fuel + 1) s.colon_blank
        (endsNumeral_cons (by decide) _) (by omega)
    · exact readMembers?_layOut s level (next :: members) (List.cons_ne_nil _ _) hmembers tail rest
        fuel htail (by omega)

end

theorem read?_of_layOut (s : Spacing) {text : String} {value : Json} (hvalue : value.Readable)
    (h : text.toList = layOut s 0 value) : read? text = some value := by
  have hread := readValue?_layOut s 0 value hvalue [] [] (2 * text.toList.length + 1) (by simp)
    (by simp [EndsNumeral]) (by rw [h]; omega)
  rw [List.nil_append, List.append_nil, ← h] at hread
  simp only [read?, hread]
  rfl

/-- **A value printed over several lines is read back.** -/
theorem read?_pretty {value : Json} (h : value.Readable) : read? value.pretty = some value :=
  read?_of_layOut .lines h (toList_prettyAt 0 value)

/-- **A value printed without blanks is read back.** -/
theorem read?_compact {value : Json} (h : value.Readable) : read? value.compact = some value :=
  read?_of_layOut .dense h (toList_compact 0 value)

end SweepCharts.Json
