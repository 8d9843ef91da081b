import SweepCharts.Text.Utf8

set_option autoImplicit false

/-! # Text in UTF-8 read back

* `decode_encode`: every text reads back from its bytes.
* `next?_utf8EncodeChar`: so does a character, whatever follows.
* `mem_of_mem_encode`: a byte below 0x80 stands for itself.
* `utf8EncodeChar_cases`: so a character is one byte, or has no byte below 0x80.
* `IsText.of_append_ascii`: bytes below 0x80 can be cut off a text.
-/

namespace SweepCharts.Utf8

theorem encode_eq (text : String) : encode text = text.toList.flatMap String.utf8EncodeChar := by
  rw [encode, String.toUTF8_eq_toByteArray, ← String.utf8Encode_toList, List.utf8Encode,
    List.toList_data_toByteArray]

/-! ## One character -/

theorem toNat_ofNat {n : Nat} (h : n < 256) : (UInt8.ofNat n).toNat = n := by
  rw [UInt8.toNat_ofNat']
  exact Nat.mod_eq_of_lt h

theorem lead?_ofNat {n : Nat} (h : n < 256) :
    lead? (UInt8.ofNat n) =
      if n < 0x80 then some ⟨0, n, 0⟩
      else if n < 0xC0 then none
      else if n < 0xE0 then some ⟨1, n - 0xC0, 0x80⟩
      else if n < 0xF0 then some ⟨2, n - 0xE0, 0x800⟩
      else if n < 0xF8 then some ⟨3, n - 0xF0, 0x10000⟩
      else none := by
  rw [lead?, toNat_ofNat h]

theorem isContinuation_ofNat (n : Nat) : isContinuation (UInt8.ofNat (n % 64 + 0x80)) = true := by
  rw [isContinuation, toNat_ofNat (by omega), decide_eq_true_iff]
  omega

theorem charFrom?_toNat {least : Nat} {c : Char} (h : least ≤ c.toNat) :
    charFrom? least c.toNat = some c := by
  have hvalid : c.toNat.isValidChar := c.valid
  rw [charFrom?, dif_pos ⟨h, hvalid⟩]
  rfl

/-- A first byte, the bytes that it asks for, and the character that they make. -/
theorem next?_of_lead {b : UInt8} {tail rest : List UInt8} {lead : Lead} {c : Char}
    (hlead : lead? b = some lead) (hlength : tail.length = lead.following)
    (hall : tail.all isContinuation = true)
    (hchar : charFrom? lead.least (codePoint lead.bits tail) = some c) :
    next? (b :: tail ++ rest) = some (c, rest) := by
  have htake : (tail ++ rest).take lead.following = tail := by
    rw [← hlength, List.take_left]
  have hdrop : (tail ++ rest).drop lead.following = rest := by
    rw [← hlength, List.drop_left]
  have htext : tail.length = lead.following ∧ tail.all isContinuation = true := ⟨hlength, hall⟩
  simp only [next?, List.cons_append, Option.bind_eq_bind, hlead, Option.bind_some, htake, hdrop,
    if_pos htext, hchar]

theorem codePoint_ofNat (bits : Nat) (ns : List Nat) :
    codePoint bits (ns.map fun n => UInt8.ofNat (n % 64 + 0x80)) =
      ns.foldl (fun code n => code * 64 + n % 64) bits := by
  induction ns generalizing bits with
  | nil => rfl
  | cons n ns ih =>
    have hn : (UInt8.ofNat (n % 64 + 0x80)).toNat % 64 = n % 64 := by
      rw [toNat_ofNat (by omega)]
      omega
    have h := ih (bits * 64 + n % 64)
    unfold codePoint at h ⊢
    rw [List.map_cons, List.foldl_cons, List.foldl_cons, hn, h]

/-- The bytes of a character as numbers: a first one that says how many follow, and six bits in each
of the others. A first number below 0x80 is the character itself. -/
structure Numbers (c : Char) (first : Nat) (ns : List Nat) (bits least : Nat) : Prop where
  bytes : String.utf8EncodeChar c =
    UInt8.ofNat first :: ns.map fun n => UInt8.ofNat (n % 64 + 0x80)
  first_lt : first < 256
  lead : lead? (UInt8.ofNat first) = some ⟨ns.length, bits, least⟩
  least_le : least ≤ c.toNat
  value : ns.foldl (fun code n => code * 64 + n % 64) bits = c.toNat
  ascii : first < 0x80 → first = c.toNat

theorem exists_numbers (c : Char) : ∃ first ns bits least, Numbers c first ns bits least := by
  have hmax : c.toNat < 0x110000 := by
    rcases c.valid with h | ⟨-, h⟩
    · exact Nat.lt_trans h (by decide)
    · exact h
  have hval : c.val.toNat = c.toNat := rfl
  by_cases h1 : c.toNat ≤ 0x7F
  · refine ⟨c.toNat, [], c.toNat, 0, ?_, by omega, ?_, Nat.zero_le _, rfl, fun _ => rfl⟩
    · rw [String.utf8EncodeChar, hval, if_pos h1]
      rfl
    · rw [lead?_ofNat (by omega), if_pos (by omega)]
      rfl
  by_cases h2 : c.toNat ≤ 0x7FF
  · refine ⟨c.toNat / 64 % 0x20 + 0xC0, [c.toNat], c.toNat / 64, 0x80, ?_, by omega, ?_, by omega, ?_,
      fun h => by omega⟩
    · rw [String.utf8EncodeChar, hval, if_neg h1, if_pos h2]
      rfl
    · rw [lead?_ofNat (by omega), if_neg (by omega), if_neg (by omega), if_pos (by omega)]
      simp only [List.length_singleton, Option.some.injEq, Lead.mk.injEq, and_true, true_and]
      omega
    · simp only [List.foldl_cons, List.foldl_nil]
      omega
  by_cases h3 : c.toNat ≤ 0xFFFF
  · refine ⟨c.toNat / 4096 % 0x10 + 0xE0, [c.toNat / 64, c.toNat], c.toNat / 4096, 0x800, ?_,
      by omega, ?_, by omega, ?_, fun h => by omega⟩
    · rw [String.utf8EncodeChar, hval, if_neg h1, if_neg h2, if_pos h3]
      rfl
    · rw [lead?_ofNat (by omega), if_neg (by omega), if_neg (by omega), if_neg (by omega),
        if_pos (by omega)]
      simp only [List.length_cons, List.length_nil, Option.some.injEq, Lead.mk.injEq, Nat.reduceAdd,
        and_true, true_and]
      omega
    · simp only [List.foldl_cons, List.foldl_nil]
      omega
  · refine ⟨c.toNat / 262144 % 0x08 + 0xF0, [c.toNat / 4096, c.toNat / 64, c.toNat],
      c.toNat / 262144, 0x10000, ?_, by omega, ?_, by omega, ?_, fun h => by omega⟩
    · rw [String.utf8EncodeChar, hval, if_neg h1, if_neg h2, if_neg h3]
      rfl
    · rw [lead?_ofNat (by omega), if_neg (by omega), if_neg (by omega), if_neg (by omega),
        if_neg (by omega), if_pos (by omega)]
      simp only [List.length_cons, List.length_nil, Option.some.injEq, Lead.mk.injEq, Nat.reduceAdd,
        and_true, true_and]
      omega
    · simp only [List.foldl_cons, List.foldl_nil]
      omega

/-- **A character reads back from its bytes**, whatever follows. -/
theorem next?_utf8EncodeChar (c : Char) (rest : List UInt8) :
    next? (String.utf8EncodeChar c ++ rest) = some (c, rest) := by
  obtain ⟨first, ns, bits, least, h⟩ := exists_numbers c
  rw [h.bytes]
  refine next?_of_lead h.lead (by rw [List.length_map]) ?_ ?_
  · rw [List.all_map, List.all_eq_true]
    exact fun n _ => isContinuation_ofNat n
  · rw [codePoint_ofNat, h.value]
    exact charFrom?_toNat h.least_le

/-- A byte below 0x80 stands for itself wherever it occurs. -/
theorem toNat_of_mem_utf8EncodeChar {b : UInt8} {c : Char} (h : b ∈ String.utf8EncodeChar c)
    (hb : b.toNat < 0x80) : c.toNat = b.toNat := by
  obtain ⟨first, ns, bits, least, hn⟩ := exists_numbers c
  rw [hn.bytes] at h
  rcases List.mem_cons.1 h with rfl | h
  · rw [toNat_ofNat hn.first_lt] at hb ⊢
    exact (hn.ascii hb).symm
  · obtain ⟨n, -, rfl⟩ := List.mem_map.1 h
    rw [toNat_ofNat (by omega)] at hb
    omega

/-! ## Texts -/

theorem decode_of_next? {bytes rest : List UInt8} {c : Char} {text : List Char}
    (h : next? bytes = some (c, rest)) (hrest : decode rest = .ok text) :
    decode bytes = .ok (c :: text) := by
  rw [decode]
  split
  · rename_i d tail hd
    obtain ⟨rfl, rfl⟩ := Prod.mk.inj (Option.some.inj (h.symm.trans hd))
    simp only [hrest]
  · rename_i hd
    rw [h] at hd
    cases hd

theorem decode_flatMap (text : List Char) : decode (text.flatMap String.utf8EncodeChar) = .ok text := by
  induction text with
  | nil =>
    rw [List.flatMap_nil, decode]
    rfl
  | cons c text ih =>
    rw [List.flatMap_cons]
    exact decode_of_next? (next?_utf8EncodeChar c _) ih

/-- **A text reads back from its bytes.** -/
theorem decode_encode (text : String) : decode (encode text) = .ok text.toList := by
  rw [encode_eq]
  exact decode_flatMap text.toList

/-- A byte below 0x80 in a text stands for a character of the text. -/
theorem mem_of_mem_encode {text : String} {b : UInt8} (h : b ∈ encode text) (hb : b.toNat < 0x80) :
    Char.ofNat b.toNat ∈ text.toList := by
  rw [encode_eq] at h
  obtain ⟨c, hc, hbc⟩ := List.mem_flatMap.1 h
  rw [← toNat_of_mem_utf8EncodeChar hbc hb, Char.ofNat_toNat]
  exact hc

/-- So does a byte below 0x80 at the start of a text. -/
theorem head?_of_head?_encode {text : String} {b : UInt8} (h : (encode text).head? = some b)
    (hb : b.toNat < 0x80) : text.toList.head? = some (Char.ofNat b.toNat) := by
  rw [encode_eq] at h
  cases htext : text.toList with
  | nil =>
    rw [htext] at h
    cases h
  | cons c cs =>
    obtain ⟨first, ns, bits, least, hn⟩ := exists_numbers c
    rw [htext, List.flatMap_cons, hn.bytes, List.cons_append, List.head?_cons] at h
    obtain rfl := Option.some.inj h
    have hmem : UInt8.ofNat first ∈ String.utf8EncodeChar c := by
      rw [hn.bytes]
      exact .head _
    rw [List.head?_cons, ← toNat_of_mem_utf8EncodeChar hmem hb, Char.ofNat_toNat]

theorem encode_eq_nil {text : String} (h : encode text = []) : text = "" := by
  have hdecode := decode_encode text
  rw [h, decode] at hdecode
  exact String.toList_eq_nil_iff.1 (Except.ok.inj hdecode).symm

/-! ## Bytes that are a text -/

/-- The bytes are UTF-8. -/
def IsText (bytes : List UInt8) : Prop := ∃ text : String, bytes = encode text

theorem isText_flatMap (chars : List Char) : IsText (chars.flatMap String.utf8EncodeChar) :=
  ⟨String.ofList chars, by rw [encode_eq, String.toList_ofList]⟩

theorem isText_nil : IsText [] := isText_flatMap []

theorem IsText.exists_chars {bytes : List UInt8} (h : IsText bytes) :
    ∃ chars : List Char, bytes = chars.flatMap String.utf8EncodeChar := by
  obtain ⟨text, rfl⟩ := h
  exact ⟨text.toList, encode_eq text⟩

theorem IsText.cons_char (c : Char) {bytes : List UInt8} (h : IsText bytes) :
    IsText (String.utf8EncodeChar c ++ bytes) := by
  obtain ⟨chars, rfl⟩ := h.exists_chars
  exact isText_flatMap (c :: chars)

/-- A character is one byte, or it has no byte that could stand for another character. -/
theorem utf8EncodeChar_cases (c : Char) :
    (∃ b, String.utf8EncodeChar c = [b]) ∨
      ∃ b tail, String.utf8EncodeChar c = b :: tail ∧ ∀ d ∈ b :: tail, 0x80 ≤ d.toNat := by
  obtain ⟨first, ns, bits, least, h⟩ := exists_numbers c
  by_cases hfirst : first < 0x80
  · have hlead := h.lead
    rw [lead?_ofNat h.first_lt, if_pos hfirst] at hlead
    have hns : ns = [] := List.length_eq_zero_iff.1 (Lead.mk.inj (Option.some.inj hlead)).1.symm
    exact .inl ⟨UInt8.ofNat first, by rw [h.bytes, hns, List.map_nil]⟩
  · refine .inr ⟨_, _, h.bytes, fun d hd => ?_⟩
    rcases List.mem_cons.1 hd with rfl | hd
    · rw [toNat_ofNat h.first_lt]
      exact Nat.le_of_not_lt hfirst
    · obtain ⟨n, -, rfl⟩ := List.mem_map.1 hd
      rw [toNat_ofNat (by omega)]
      omega

/-- A byte below 0x80 is a character of its own. -/
theorem IsText.of_cons_ascii {b : UInt8} {bytes : List UInt8} (h : IsText (b :: bytes))
    (hb : b.toNat < 0x80) : IsText bytes := by
  obtain ⟨chars, hchars⟩ := h.exists_chars
  cases chars with
  | nil => cases hchars
  | cons c chars =>
    rw [List.flatMap_cons] at hchars
    rcases utf8EncodeChar_cases c with ⟨d, hd⟩ | ⟨d, tail, hd, hhigh⟩
    · rw [hd, List.singleton_append] at hchars
      rw [(List.cons.inj hchars).2]
      exact isText_flatMap chars
    · rw [hd, List.cons_append] at hchars
      have hle := hhigh d (.head _)
      rw [← (List.cons.inj hchars).1] at hle
      omega

/-- So are all of them at the start of a text. -/
theorem IsText.of_append_ascii {lead bytes : List UInt8} (h : IsText (lead ++ bytes))
    (hlead : ∀ b ∈ lead, b.toNat < 0x80) : IsText bytes := by
  induction lead with
  | nil => exact h
  | cons b lead ih =>
    exact ih (h.of_cons_ascii (hlead b (.head _))) fun d hd => hlead d (.tail _ hd)

end SweepCharts.Utf8
