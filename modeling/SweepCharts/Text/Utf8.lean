set_option autoImplicit false

/-! # Text in UTF-8

`Utf8.decode` reads bytes as characters. Bytes that are no text give the count of bytes before the
first character that is cut short, overlong, a surrogate or beyond the last code point.
-/

namespace SweepCharts.Utf8

/-- What the first byte of a character says. -/
structure Lead where
  /-- How many bytes follow. -/
  following : Nat
  /-- The leading bits of the code point. -/
  bits : Nat
  /-- The least code point that needs so many bytes. -/
  least : Nat

/-- The meaning of a first byte; a continuation byte has none. -/
def lead? (b : UInt8) : Option Lead :=
  let n := b.toNat
  if n < 0x80 then some ⟨0, n, 0⟩
  else if n < 0xC0 then none
  else if n < 0xE0 then some ⟨1, n - 0xC0, 0x80⟩
  else if n < 0xF0 then some ⟨2, n - 0xE0, 0x800⟩
  else if n < 0xF8 then some ⟨3, n - 0xF0, 0x10000⟩
  else none

/-- Whether a byte continues a character; its low six bits belong to the code point. -/
def isContinuation (b : UInt8) : Bool := b.toNat / 64 = 2

/-- A code point, from its leading bits and its continuation bytes. -/
def codePoint (bits : Nat) (tail : List UInt8) : Nat :=
  tail.foldl (fun code b => code * 64 + b.toNat % 64) bits

/-- The character of a code point, if it is one and no shorter form would have held it. -/
def charFrom? (least code : Nat) : Option Char :=
  if h : least ≤ code ∧ code.isValidChar then some (Char.ofNatAux code h.2) else none

/-- The character at the start of a list of bytes, and the bytes after it. -/
def next? : List UInt8 → Option (Char × List UInt8)
  | [] => none
  | b :: rest => do
    let lead ← lead? b
    let tail := rest.take lead.following
    if tail.length = lead.following ∧ tail.all isContinuation then
      let c ← charFrom? lead.least (codePoint lead.bits tail)
      some (c, rest.drop lead.following)
    else none

theorem length_lt_of_next? {bytes rest : List UInt8} {c : Char}
    (h : next? bytes = some (c, rest)) : rest.length < bytes.length := by
  cases bytes with
  | nil => simp [next?] at h
  | cons b bytes =>
    simp only [next?, Option.bind_eq_bind, Option.bind_eq_some_iff] at h
    obtain ⟨lead, -, h⟩ := h
    split at h
    · simp only [Option.bind_eq_some_iff, Option.some.injEq, Prod.mk.injEq] at h
      obtain ⟨c, -, -, rfl⟩ := h
      simp only [List.length_drop, List.length_cons]
      omega
    · simp at h

/-- The characters of a list of bytes, or the count of bytes before the first one that is none. -/
def decode (bytes : List UInt8) : Except Nat (List Char) :=
  match h : next? bytes with
  | some (c, rest) =>
    have := length_lt_of_next? h
    match decode rest with
    | .ok text => .ok (c :: text)
    | .error valid => .error (bytes.length - rest.length + valid)
  | none => if bytes.isEmpty then .ok [] else .error 0
termination_by bytes.length

/-- The bytes of a text. -/
def encode (text : String) : List UInt8 := text.toUTF8.data.toList

end SweepCharts.Utf8
