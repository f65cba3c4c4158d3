import Mathlib.Data.List.Basic

namespace SimpleCdn

/-- A byte as a number. Behind the end there is a zero, which continues nothing. -/
def byteAt (bytes : ByteArray) (i : Nat) : Nat := (bytes.data.getD i 0).toNat

/-- The bytes that may follow the first byte of a character. -/
def continues (first second : Nat) : Bool :=
  if first = 0xE0 then 0xA0 ≤ second && second ≤ 0xBF
  else if first = 0xED then 0x80 ≤ second && second ≤ 0x9F
  else if first = 0xF0 then 0x90 ≤ second && second ≤ 0xBF
  else if first = 0xF4 then 0x80 ≤ second && second ≤ 0x8F
  else 0x80 ≤ second && second ≤ 0xBF

/-- The number of bytes that one replacement character stands for: as many as
could still have begun a character, and at least one. -/
def malformedLength (bytes : ByteArray) : Nat :=
  let first := byteAt bytes 0
  if 0xE0 ≤ first ∧ first ≤ 0xF4 ∧ continues first (byteAt bytes 1) then
    if 0xF0 ≤ first ∧ 0x80 ≤ byteAt bytes 2 ∧ byteAt bytes 2 ≤ 0xBF then 3 else 2
  else 1

/-- The characters of some bytes, read from the front; the fuel is at least the
number of bytes. -/
def lossyChars : Nat → ByteArray → List Char
  | 0, _ => []
  | fuel + 1, bytes =>
    if bytes.size = 0 then []
    else
      match bytes.utf8DecodeChar? 0 with
      | some c => c :: lossyChars fuel (bytes.extract c.utf8Size bytes.size)
      | none => Char.ofNat 0xFFFD :: lossyChars fuel (bytes.extract (malformedLength bytes) bytes.size)

/-- UTF-8 read with replacement characters for what is no UTF-8. -/
def fromUtf8Lossy (bytes : ByteArray) : String := String.ofList (lossyChars bytes.size bytes)

example : fromUtf8Lossy ⟨#[0x61, 0xE2, 0x82, 0x62, 0xFF]⟩ =
    String.ofList ['a', Char.ofNat 0xFFFD, 'b', Char.ofNat 0xFFFD] := by decide +kernel

theorem size_utf8Encode_cons (c : Char) (rest : List Char) :
    (c :: rest).utf8Encode.size = c.utf8Size + rest.utf8Encode.size := by
  rw [List.utf8Encode_cons, ByteArray.size_append, List.utf8Encode_singleton, List.size_toByteArray,
    String.length_utf8EncodeChar]

theorem lossyChars_utf8Encode (chars : List Char) {fuel : Nat} (enough : chars.utf8Encode.size ≤ fuel) :
    lossyChars fuel chars.utf8Encode = chars := by
  induction chars generalizing fuel with
  | nil =>
    have empty : ([] : List Char).utf8Encode.size = 0 := rfl
    cases fuel with
    | zero => rfl
    | succ fuel => rw [lossyChars, if_pos empty]
  | cons c rest ih =>
    have size := size_utf8Encode_cons c rest
    have positive := c.utf8Size_pos
    cases fuel with
    | zero => omega
    | succ fuel =>
      have behind : (c :: rest).utf8Encode.extract c.utf8Size (c :: rest).utf8Encode.size = rest.utf8Encode := by
        have one : [c].utf8Encode.size = c.utf8Size := by
          rw [List.utf8Encode_singleton, List.size_toByteArray, String.length_utf8EncodeChar]
        rw [size, List.utf8Encode_cons]
        exact ByteArray.extract_append_eq_right one.symm (by rw [one])
      have nonempty : ¬ (c :: rest).utf8Encode.size = 0 := by omega
      rw [lossyChars, if_neg nonempty, List.utf8DecodeChar?_utf8Encode_cons]
      simp only [behind]
      rw [ih (by omega)]

theorem fromUtf8Lossy_toUTF8 (text : String) : fromUtf8Lossy text.toUTF8 = text := by
  have bytes : text.toUTF8 = text.toList.utf8Encode := by
    rw [String.toUTF8_eq_toByteArray, ← String.toByteArray_ofList, String.ofList_toList]
  rw [fromUtf8Lossy, bytes, lossyChars_utf8Encode _ (Nat.le_refl _), String.ofList_toList]

/-- Reading and writing back loses nothing just where the bytes are UTF-8. -/
theorem toUTF8_fromUtf8Lossy_iff (bytes : ByteArray) :
    (fromUtf8Lossy bytes).toUTF8 = bytes ↔ bytes.IsValidUTF8 := by
  constructor
  · intro same
    rw [← same, String.toUTF8_eq_toByteArray]
    exact String.isValidUTF8 _
  · intro valid
    have text : (String.ofByteArray bytes valid).toUTF8 = bytes := rfl
    rw [← text, fromUtf8Lossy_toUTF8]

/-- Without replacement characters nothing was lost. -/
theorem utf8Encode_lossyChars {fuel : Nat} {bytes : ByteArray} (enough : bytes.size ≤ fuel)
    (clean : Char.ofNat 0xFFFD ∉ lossyChars fuel bytes) : (lossyChars fuel bytes).utf8Encode = bytes := by
  have nothing : ∀ {b : ByteArray}, b.size = 0 → [].utf8Encode = b := fun none =>
    (ByteArray.size_eq_zero_iff.mp none).symm
  induction fuel generalizing bytes with
  | zero => exact nothing (Nat.le_zero.mp enough)
  | succ fuel ih =>
    rw [lossyChars] at clean ⊢
    by_cases empty : bytes.size = 0
    · rw [if_pos empty]
      exact nothing empty
    · rw [if_neg empty] at clean ⊢
      cases decoded : bytes.utf8DecodeChar? 0 with
      | none =>
        rw [decoded] at clean
        exact absurd (List.mem_cons_self ..) clean
      | some c =>
        rw [decoded] at clean
        have positive := c.utf8Size_pos
        have shorter : (bytes.extract c.utf8Size bytes.size).size ≤ fuel := by
          rw [ByteArray.size_extract]
          omega
        have rest := ih shorter fun later => clean (List.mem_cons_of_mem c later)
        show (c :: lossyChars fuel (bytes.extract c.utf8Size bytes.size)).utf8Encode = bytes
        rw [List.utf8Encode_cons, rest, List.utf8Encode_singleton]
        exact (ByteArray.eq_of_utf8DecodeChar?_eq_some decoded).symm

theorem toUTF8_of_not_mem_replacement {bytes : ByteArray}
    (clean : Char.ofNat 0xFFFD ∉ (fromUtf8Lossy bytes).toList) : (fromUtf8Lossy bytes).toUTF8 = bytes := by
  rw [fromUtf8Lossy, String.toList_ofList] at clean
  rw [fromUtf8Lossy, String.toUTF8_eq_toByteArray, String.toByteArray_ofList]
  exact utf8Encode_lossyChars (Nat.le_refl _) clean

end SimpleCdn
