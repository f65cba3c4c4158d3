import SimpleCdn.MaxMindDb.Depth

namespace SimpleCdn.MaxMindDb

/-- The unsigned types of the format. -/
inductive UintType
  | uint16 | uint32 | uint64 | uint128

def UintType.typeNum : UintType → Nat
  | uint16 => 5 | uint32 => 6 | uint64 => 9 | uint128 => 10

def UintType.width : UintType → Nat
  | uint16 => 2 | uint32 => 4 | uint64 => 8 | uint128 => 16

/-- The typed data of the format, which is what a database is made of. Floats
are given by their bits. -/
inductive Datum
  | utf8String (text : String)
  | double (bits : BitVec 64)
  | bytes (content : List UInt8)
  | uint (type : UintType) (value : Fin (256 ^ type.width))
  | int32 (value : BitVec 32)
  | boolean (value : Bool)
  | float (bits : BitVec 32)
  | array (items : List Datum)
  | map (entries : List (String × Datum))

theorem Datum.induction {motive : Datum → Prop}
    (scalar : ∀ datum, (∀ items, datum ≠ .array items) → (∀ entries, datum ≠ .map entries) →
      motive datum)
    (array : ∀ items, (∀ datum ∈ items, motive datum) → motive (.array items))
    (map : ∀ entries, (∀ entry ∈ entries, motive entry.2) → motive (.map entries)) (datum : Datum) :
    motive datum := by
  refine @Datum.rec motive (fun items => ∀ datum ∈ items, motive datum)
    (fun entries => ∀ entry ∈ entries, motive entry.2) (fun entry => motive entry.2)
    (fun _ => scalar _ nofun nofun) (fun _ => scalar _ nofun nofun) (fun _ => scalar _ nofun nofun)
    (fun _ _ => scalar _ nofun nofun) (fun _ => scalar _ nofun nofun) (fun _ => scalar _ nofun nofun)
    (fun _ => scalar _ nofun nofun) array map nofun ?_ nofun ?_ (fun _ _ value => value) datum
  · exact fun _ _ head tail => List.forall_mem_cons.mpr ⟨head, tail⟩
  · exact fun _ _ head tail => List.forall_mem_cons.mpr ⟨head, tail⟩

section Value

mutual

/-- The Python value that a datum stands for. -/
def Datum.value : Datum → Record
  | .utf8String text => .string text
  | .double bits => .float (.ofDouble bits.toNat)
  | .bytes content => .bytes content
  | .uint _ value => .int (value : Nat)
  | .int32 value => .int value.toInt
  | .boolean value => .bool value
  | .float bits => .float (.ofSingle bits.toNat)
  | .array items => .array (values items)
  | .map entries => .map (dictionary entries [])

def values : List Datum → List Record
  | [] => []
  | datum :: rest => datum.value :: values rest

/-- Of two entries with one key the second counts. -/
def dictionary : List (String × Datum) → List (RecordKey × Record) → List (RecordKey × Record)
  | [], container => container
  | (key, datum) :: rest, container => dictionary rest (setItem (.string key) datum.value container)

end

theorem values_eq_map (items : List Datum) : values items = items.map Datum.value := by
  induction items with
  | nil => rfl
  | cons datum rest ih => rw [values, ih, List.map_cons]

end Value

def utf8 (text : String) : List UInt8 := text.toUTF8.data.toList

theorem decodeUtf8_utf8 (text : String) : decodeUtf8 (utf8 text) = .ok text := by
  have same : (⟨(utf8 text).toArray⟩ : ByteArray) = text.toUTF8 := by
    simp only [utf8, Array.toArray_toList]
  have valid : text.toUTF8.IsValidUTF8 := text.isValidUTF8
  rw [decodeUtf8, same, String.fromUTF8?, dif_pos valid]
  rfl

/-- Sizes from here on cannot be written. -/
def sizeLimit : Nat := 65821 + 256 ^ 3

/-- The control byte, and the byte of an extended type. -/
def controlBytes (typeNum low : Nat) : List UInt8 :=
  if typeNum < 8 then [UInt8.ofNat (typeNum * 32 + low)] else [UInt8.ofNat low, UInt8.ofNat (typeNum - 7)]

/-- What the control byte says about a size. -/
def sizeBits (size : Nat) : Nat :=
  if size < 29 then size else if size < 285 then 29 else if size < 65821 then 30 else 31

/-- The rest of a size that the control byte has no room for. -/
def sizeBytes (size : Nat) : List UInt8 :=
  if size < 29 then [] else if size < 285 then beBytes 1 (size - 29)
  else if size < 65821 then beBytes 2 (size - 285) else beBytes 3 (size - 65821)

/-- The type and the size in front of a datum. -/
def header (typeNum size : Nat) : List UInt8 := controlBytes typeNum (sizeBits size) ++ sizeBytes size

section Headers
variable {buffer : List UInt8} {offset typeNum : Nat}

theorem byteAtOffset_of_holds {byte : UInt8} {bytes : List UInt8} (holds : Holds buffer offset (byte :: bytes)) :
    byteAtOffset buffer offset = .ok byte.toNat := by
  rw [byteAtOffset, holds.getElem?]

theorem unpack_beBytes {width n : Nat} (small : n < 256 ^ width) : unpack width (beBytes width n) = .ok n := by
  rw [unpack, if_pos (length_beBytes width n), beNat_beBytes small]

theorem unpack_zero {width n : Nat} {bytes : List UInt8} (run : unpack width bytes = .ok n) :
    unpack (width + 1) (0 :: bytes) = .ok n := by
  unfold unpack at run ⊢
  split_ifs at run with length
  cases run
  rw [if_pos (by rw [List.length_cons, length])]
  exact congrArg Except.ok (beNat_zeros 1 bytes)

theorem readExtended_run {nextByte : Nat} (found : byteAtOffset buffer offset = .ok nextByte) :
    readExtended buffer offset = .ok (nextByte + 7, offset + 1) := by
  simp only [readExtended, found, ok_bind]
  rw [if_neg (by omega)]
  rfl

/-- What the decoder makes of the control byte and the byte behind it. -/
theorem controlBytes_read (known : 2 ≤ typeNum ∧ typeNum ≤ 15) {low : Nat} (small : low < 32)
    (holds : Holds buffer offset (controlBytes typeNum low)) :
    ∃ ctrlByte, byteAtOffset buffer offset = .ok ctrlByte ∧ ctrlByte &&& 0x1F = low ∧
      readType buffer ctrlByte (offset + 1) = .ok (typeNum, offset + (controlBytes typeNum low).length) := by
  have bits : ∀ n : Nat, n &&& 0x1F = n % 32 := fun n => Nat.and_two_pow_sub_one_eq_mod n 5
  unfold controlBytes at holds ⊢
  by_cases plain : typeNum < 8
  · rw [if_pos plain] at holds ⊢
    have whole : (UInt8.ofNat (typeNum * 32 + low)).toNat = typeNum * 32 + low := by
      rw [UInt8.toNat_ofNat']
      omega
    refine ⟨_, byteAtOffset_of_holds holds, by rw [whole, bits]; omega, ?_⟩
    have type : (typeNum * 32 + low) >>> 5 = typeNum := by
      rw [Nat.shiftRight_eq_div_pow]
      omega
    simp only [readType, whole, type]
    rw [if_neg (by omega), List.length_singleton]
  · rw [if_neg plain] at holds ⊢
    have first : (UInt8.ofNat low).toNat = low := by
      rw [UInt8.toNat_ofNat']
      omega
    have second : (UInt8.ofNat (typeNum - 7)).toNat = typeNum - 7 := by
      rw [UInt8.toNat_ofNat']
      omega
    have type : low >>> 5 = 0 := by
      rw [Nat.shiftRight_eq_div_pow]
      omega
    refine ⟨_, byteAtOffset_of_holds holds, by rw [first, bits]; omega, ?_⟩
    have extended := byteAtOffset_of_holds (holds_cons.mp holds).2
    rw [second] at extended
    simp only [readType, first, type, if_true]
    rw [readExtended_run extended, Nat.sub_add_cancel (by omega)]
    rfl

theorem sizeFromCtrlByte_run {size ctrlByte : Nat} (known : typeNum ≠ 1) (small : size < sizeLimit)
    (bits : ctrlByte &&& 0x1F = sizeBits size) (holds : Holds buffer offset (sizeBytes size)) :
    sizeFromCtrlByte buffer ctrlByte offset typeNum = .ok (size, offset + (sizeBytes size).length) := by
  unfold sizeLimit at small
  unfold sizeBits at bits
  unfold sizeBytes at holds ⊢
  simp only [sizeFromCtrlByte, bits, known, false_or]
  split_ifs at holds ⊢ with direct one two
  · rfl
  all_goals try omega
  · have byte : (UInt8.ofNat (size - 29)).toNat = size - 29 := by
      rw [UInt8.toNat_ofNat']
      omega
    rw [byteAtOffset_of_holds holds, byte, ok_bind, Nat.add_sub_cancel' (by omega)]
    rfl
  · rw [holds.slice_of_length (length_beBytes 2 _), unpack_beBytes (by omega), ok_bind,
      Nat.add_sub_cancel' (by omega)]
    rfl
  · rw [holds.slice_of_length (length_beBytes 3 _), unpack_zero (unpack_beBytes (by omega)), ok_bind,
      Nat.sub_add_cancel (by omega)]
    rfl

/-- The decoder finds the type and the size of a header, and goes on behind it. -/
theorem decodeStep_header {size pointerBase : Nat} {decode : Nat → Decoded} {decoder : Nat → Nat → Decoded}
    (known : 2 ≤ typeNum ∧ typeNum ≤ 15) (small : size < sizeLimit)
    (typed : typeDecoder decode buffer pointerBase typeNum = .ok decoder)
    (holds : Holds buffer offset (header typeNum size)) :
    decodeStep buffer pointerBase decode offset = decoder size (offset + (header typeNum size).length) := by
  obtain ⟨control, rest⟩ := holds_append.mp holds
  have fits : sizeBits size < 32 := by
    unfold sizeBits
    split_ifs <;> omega
  obtain ⟨ctrlByte, first, bits, type⟩ := controlBytes_read known fits control
  have sized := sizeFromCtrlByte_run (show typeNum ≠ 1 by omega) small bits rest
  simp only [decodeStep, first, ok_bind, type, typed, sized]
  rw [header, List.length_append, Nat.add_assoc]

/-- The forms in which a pointer is written, by the distance from the pointer
base to its target. -/
inductive PointerForm : Nat → List UInt8 → Prop
  | one {v : Nat} : v < 2 ^ 11 → PointerForm v (UInt8.ofNat (32 + v / 256) :: beBytes 1 (v % 256))
  | two {v : Nat} : v < 2 ^ 19 → PointerForm (v + 2048) (UInt8.ofNat (40 + v / 256 ^ 2) :: beBytes 2 (v % 256 ^ 2))
  | three {v : Nat} : v < 2 ^ 27 →
      PointerForm (v + 526336) (UInt8.ofNat (48 + v / 256 ^ 3) :: beBytes 3 (v % 256 ^ 3))
  | four {v top : Nat} : v < 2 ^ 32 → top < 8 → PointerForm v (UInt8.ofNat (56 + top) :: beBytes 4 v)

theorem decodeStep_control (pointerBase : Nat) (decode : Nat → Decoded) {width top : Nat} {rest : List UInt8}
    (short : width < 4) (low : top < 8) (holds : Holds buffer offset (UInt8.ofNat (32 + width * 8 + top) :: rest)) :
    decodeStep buffer pointerBase decode offset =
      decodePointer decode buffer pointerBase (width * 8 + top) (offset + 1) := by
  have whole : (UInt8.ofNat (32 + width * 8 + top)).toNat = 32 + width * 8 + top := by
    rw [UInt8.toNat_ofNat']
    omega
  have type : (32 + width * 8 + top) >>> 5 = 1 := by
    rw [Nat.shiftRight_eq_div_pow]
    omega
  have bits : (32 + width * 8 + top) &&& 0x1F = width * 8 + top := by
    rw [Nat.and_two_pow_sub_one_eq_mod _ 5]
    omega
  have first := byteAtOffset_of_holds holds
  rw [whole] at first
  have typed : readType buffer (32 + width * 8 + top) (offset + 1) = .ok (1, offset + 1) := by
    simp only [readType, type]
    rfl
  have sized : sizeFromCtrlByte buffer (32 + width * 8 + top) (offset + 1) 1 = .ok (width * 8 + top, offset + 1) := by
    simp only [sizeFromCtrlByte, bits]
    rw [if_pos (.inl trivial)]
    rfl
  simp only [decodeStep, first, ok_bind, typed, typeDecoder, sized]

theorem unpack_cons {width top low : Nat} (small : top < 8) (below : low < 256 ^ width) :
    unpack (width + 1) (UInt8.ofNat top :: beBytes width low) = .ok (top * 256 ^ width + low) := by
  have byte : (UInt8.ofNat top).toNat = top := by
    rw [UInt8.toNat_ofNat']
    omega
  rw [unpack, if_pos (by simp), beNat_cons, byte, length_beBytes, beNat_beBytes below]

/-- What the size bits of a pointer say. -/
theorem pointer_bits (width : Nat) {top : Nat} (low : top < 8) :
    ((width * 8 + top) >>> 3) + 1 = width + 1 ∧ (width * 8 + top) &&& 0x7 = top := by
  rw [Nat.shiftRight_eq_div_pow, Nat.and_two_pow_sub_one_eq_mod _ 3]
  omega

/-- A pointer stands for what is decoded at its target. -/
theorem decodeStep_pointer (pointerBase : Nat) (decode : Nat → Decoded) {v : Nat} {bytes : List UInt8}
    (form : PointerForm v bytes) (holds : Holds buffer offset bytes) :
    decodeStep buffer pointerBase decode offset =
      decode (v + pointerBase) >>= fun target => .ok (target.1, offset + bytes.length) := by
  have follow : ∀ (width top : Nat) {target : Nat} {rest : List UInt8}, width < 4 → top < 8 →
      rest.length = width + 1 → Holds buffer offset (UInt8.ofNat (32 + width * 8 + top) :: rest) →
      pointerTarget buffer (width * 8 + top) (offset + 1) pointerBase = .ok target →
      decodeStep buffer pointerBase decode offset =
        decode target >>= fun found => .ok (found.1, offset + (rest.length + 1)) := by
    intro width top target rest short low length held leads
    rw [decodeStep_control pointerBase decode short low held, decodePointer, leads, ok_bind,
      (pointer_bits width low).1, length]
    rw [Nat.add_assoc, Nat.add_comm 1]
    rfl
  cases form with
  | @one v small =>
    have rest := (holds_cons.mp holds).2.slice_of_length (length_beBytes 1 _)
    have top : v / 256 < 8 := by omega
    refine follow 0 _ (by omega) top (length_beBytes 1 _) holds ?_
    obtain ⟨size, bits⟩ := pointer_bits 0 top
    simp only [pointerTarget, size, bits, rest, reduceIte, Nat.zero_add]
    rw [unpack_cons top (by omega), ok_bind, show v / 256 * 256 ^ 1 + v % 256 = v by omega]
    rfl
  | @two v small =>
    have rest := (holds_cons.mp holds).2.slice_of_length (length_beBytes 2 _)
    have top : v / 256 ^ 2 < 8 := by omega
    refine follow 1 _ (by omega) top (length_beBytes 2 _) holds ?_
    obtain ⟨size, bits⟩ := pointer_bits 1 top
    simp only [pointerTarget, size, bits, rest, reduceIte, Nat.reduceAdd, OfNat.ofNat_ne_one]
    rw [unpack_zero (unpack_cons top (by omega)), ok_bind, show v / 256 ^ 2 * 256 ^ 2 + v % 256 ^ 2 = v by omega]
    rfl
  | @three v small =>
    have rest := (holds_cons.mp holds).2.slice_of_length (length_beBytes 3 _)
    have top : v / 256 ^ 3 < 8 := by omega
    refine follow 2 _ (by omega) top (length_beBytes 3 _) holds ?_
    obtain ⟨size, bits⟩ := pointer_bits 2 top
    simp only [pointerTarget, size, bits, rest, reduceIte, Nat.reduceAdd, Nat.reduceEqDiff]
    rw [unpack_cons top (by omega), ok_bind, show v / 256 ^ 3 * 256 ^ 3 + v % 256 ^ 3 = v by omega]
    rfl
  | @four v top small low =>
    have rest := (holds_cons.mp holds).2.slice_of_length (length_beBytes 4 _)
    refine follow 3 _ (by omega) low (length_beBytes 4 _) holds ?_
    obtain ⟨size, bits⟩ := pointer_bits 3 low
    simp only [pointerTarget, size, rest, reduceIte, Nat.reduceAdd, Nat.reduceEqDiff]
    rw [unpack_beBytes (by omega), ok_bind]
    rfl

end Headers

/-- The type number, the size and the bytes of a datum that has no parts. Zeros
in front of a number may be left out. -/
inductive Payload : Datum → Nat → Nat → List UInt8 → Prop
  | utf8String (text : String) : Payload (.utf8String text) 2 (utf8 text).length (utf8 text)
  | double (bits : BitVec 64) : Payload (.double bits) 3 8 (beBytes 8 bits.toNat)
  | bytes (content : List UInt8) : Payload (.bytes content) 4 content.length content
  | uint {type : UintType} {value : Fin (256 ^ type.width)} {content : List UInt8} : content.length ≤ type.width →
      beNat content = value → Payload (.uint type value) type.typeNum content.length content
  | int32 {value : BitVec 32} {content : List UInt8} : content.length ≤ 4 → beNat content = value.toNat →
      Payload (.int32 value) 8 content.length content
  | boolean (value : Bool) : Payload (.boolean value) 14 value.toNat []
  | float (bits : BitVec 32) : Payload (.float bits) 15 4 (beBytes 4 bits.toNat)

theorem signed32_toNat (value : BitVec 32) : signed32 value.toNat = value.toInt := by
  rw [signed32, BitVec.toInt_eq_toNat_cond]
  split_ifs <;> omega

theorem decodeInt32_run {buffer : List UInt8} {offset : Nat} {content : List UInt8} {value : BitVec 32}
    (short : content.length ≤ 4) (same : beNat content = value.toNat) (holds : Holds buffer offset content) :
    decodeInt32 buffer content.length offset = .ok (.int value.toInt, offset + content.length) := by
  have bits : unpack 4 (rjust 4 content) = .ok value.toNat := by
    rw [unpack, if_pos (by simp [rjust]; omega), rjust, beNat_zeros, same]
  unfold decodeInt32
  split_ifs with empty padded
  · have nothing : content = [] := List.length_eq_zero_iff.mp empty
    subst nothing
    rw [← signed32_toNat, ← same]
    rfl
  · simp only [holds.slice, bits, ok_bind, signed32_toNat]
    rfl
  · have whole : rjust 4 content = content := by
      rw [rjust, show content.length = 4 by omega]
      rfl
    rw [whole] at bits
    simp only [holds.slice, bits, ok_bind, signed32_toNat]
    rfl

theorem Payload.decoded {buffer : List UInt8} {offset typeNum size : Nat} {datum : Datum} {content : List UInt8}
    (payload : Payload datum typeNum size content) (holds : Holds buffer offset content) (pointerBase : Nat)
    (decode : Nat → Decoded) :
    2 ≤ typeNum ∧ typeNum ≤ 15 ∧ ∃ decoder, typeDecoder decode buffer pointerBase typeNum = .ok decoder ∧
      decoder size offset = .ok (datum.value, offset + content.length) := by
  cases payload with
  | utf8String text =>
    refine ⟨by decide, by decide, _, rfl, ?_⟩
    rw [decodeUtf8String, holds.slice, decodeUtf8_utf8]
    rfl
  | double bits =>
    refine ⟨by decide, by decide, _, rfl, ?_⟩
    rw [decodeDouble, holds.slice_of_length (length_beBytes 8 _), unpack_beBytes bits.isLt, length_beBytes]
    rfl
  | bytes content =>
    refine ⟨by decide, by decide, _, rfl, ?_⟩
    rw [decodeBytes, holds.slice]
    rfl
  | @uint type value content short same =>
    have run : decodeUint buffer content.length offset = .ok (.int (value : Nat), offset + content.length) := by
      rw [decodeUint, holds.slice, same]
    cases type <;> exact ⟨by decide, by decide, _, rfl, run⟩
  | int32 short same => exact ⟨by decide, by decide, _, rfl, decodeInt32_run short same holds⟩
  | boolean value =>
    refine ⟨by decide, by decide, _, rfl, ?_⟩
    cases value <;> rfl
  | float bits =>
    refine ⟨by decide, by decide, _, rfl, ?_⟩
    rw [decodeFloat, holds.slice_of_length (length_beBytes 4 _), unpack_beBytes bits.isLt, length_beBytes]
    rfl

/-- A map is written as its keys and values in turn. -/
def flattened (entries : List (String × Datum)) : List Datum :=
  entries.flatMap fun entry => [.utf8String entry.1, entry.2]

/-- `Written buffer pointerBase depth offset data next`: the buffer has these
data one after another from `offset` up to `next`, where each of them, a part of
one too, may be replaced by a pointer to it. The depth bounds the nesting of
parts and of pointers. -/
inductive Written (buffer : List UInt8) (pointerBase : Nat) : Nat → Nat → List Datum → Nat → Prop
  | done (depth offset : Nat) : Written buffer pointerBase depth offset [] offset
  | scalar {depth offset next typeNum size : Nat} {datum : Datum} {content : List UInt8} {rest : List Datum} :
      Payload datum typeNum size content → size < sizeLimit →
        Holds buffer offset (header typeNum size ++ content) →
      Written buffer pointerBase (depth + 1) (offset + (header typeNum size ++ content).length) rest next →
      Written buffer pointerBase (depth + 1) offset (datum :: rest) next
  | pointer {depth offset next v after : Nat} {datum : Datum} {bytes : List UInt8} {rest : List Datum} :
      PointerForm v bytes → Holds buffer offset bytes →
      Written buffer pointerBase depth (v + pointerBase) [datum] after →
      Written buffer pointerBase (depth + 1) (offset + bytes.length) rest next →
      Written buffer pointerBase (depth + 1) offset (datum :: rest) next
  | array {depth offset next after : Nat} {items rest : List Datum} :
      items.length < sizeLimit → Holds buffer offset (header 11 items.length) →
      Written buffer pointerBase depth (offset + (header 11 items.length).length) items after →
      Written buffer pointerBase (depth + 1) after rest next →
      Written buffer pointerBase (depth + 1) offset (.array items :: rest) next
  | map {depth offset next after : Nat} {entries : List (String × Datum)} {rest : List Datum} :
      entries.length < sizeLimit → Holds buffer offset (header 7 entries.length) →
      Written buffer pointerBase depth (offset + (header 7 entries.length).length) (flattened entries) after →
      Written buffer pointerBase (depth + 1) after rest next →
      Written buffer pointerBase (depth + 1) offset (.map entries :: rest) next

theorem decodeItems_cons {decode : Nat → Decoded} {size offset next : Nat} {value : Record} {items : List Record} :
    decodeItems decode (size + 1) offset = .ok (value :: items, next) ↔
      ∃ middle, decode offset = .ok (value, middle) ∧ decodeItems decode size middle = .ok (items, next) := by
  constructor
  · intro run
    obtain ⟨⟨first, middle⟩, head, run⟩ := bind_eq_ok.mp run
    obtain ⟨⟨others, last⟩, tail, run⟩ := bind_eq_ok.mp run
    cases run
    exact ⟨middle, head, tail⟩
  · rintro ⟨middle, head, tail⟩
    simp only [decodeItems, head, ok_bind, tail]
    rfl

/-- The two loops read the same values. -/
theorem decodeEntries_of_items {decode : Nat → Decoded} {entries : List (String × Datum)} {offset next : Nat}
    (read : decodeItems decode (flattened entries).length offset = .ok ((flattened entries).map Datum.value, next))
    (container : List (RecordKey × Record)) :
    decodeEntries decode entries.length offset container = .ok (dictionary entries container, next) := by
  induction entries generalizing offset container with
  | nil =>
    cases read
    rfl
  | cons entry rest ih =>
    obtain ⟨key, datum⟩ := entry
    obtain ⟨middle, first, read⟩ := decodeItems_cons.mp read
    obtain ⟨behind, second, read⟩ := decodeItems_cons.mp read
    simp only [List.length_cons, decodeEntries, first, second, ok_bind, Datum.value, Record.hashed]
    exact ih read _

theorem decodeItems_written {buffer : List UInt8} {pointerBase depth offset next : Nat} {data : List Datum}
    (written : Written buffer pointerBase depth offset data next) :
    decodeItems (decode buffer pointerBase depth) data.length offset = .ok (data.map Datum.value, next) := by
  induction written with
  | done depth offset => rfl
  | @scalar depth offset next typeNum size datum content rest payload small holds _ ih =>
    obtain ⟨front, back⟩ := holds_append.mp holds
    obtain ⟨low, high, decoder, typed, read⟩ := payload.decoded back pointerBase (decode buffer pointerBase depth)
    have head := decodeStep_header ⟨low, high⟩ small typed front
    rw [read, Nat.add_assoc, ← List.length_append] at head
    exact decodeItems_cons.mpr ⟨_, head, ih⟩
  | @pointer depth offset next v after datum bytes rest form holds _ _ there ih =>
    obtain ⟨middle, target, _⟩ := decodeItems_cons.mp there
    have head := decodeStep_pointer pointerBase (decode buffer pointerBase depth) form holds
    rw [target, ok_bind] at head
    exact decodeItems_cons.mpr ⟨_, head, ih⟩
  | @array depth offset next after items rest small holds _ _ inner ih =>
    have typed : typeDecoder (decode buffer pointerBase depth) buffer pointerBase 11 = .ok (decodeArray _) := rfl
    have head := decodeStep_header (by decide) small typed holds
    rw [decodeArray, inner, ok_bind, ← values_eq_map] at head
    exact decodeItems_cons.mpr ⟨_, head, ih⟩
  | @map depth offset next after entries rest small holds _ _ inner ih =>
    have typed : typeDecoder (decode buffer pointerBase depth) buffer pointerBase 7 = .ok (decodeMap _) := rfl
    have head := decodeStep_header (by decide) small typed holds
    rw [decodeMap, decodeEntries_of_items inner, ok_bind] at head
    exact decodeItems_cons.mpr ⟨_, head, ih⟩

/-- What is written in the format is read, at its depth and at any greater one. -/
theorem decode_written {buffer : List UInt8} {pointerBase depth limit offset next : Nat} {datum : Datum}
    (written : Written buffer pointerBase depth offset [datum] next) (enough : depth ≤ limit) :
    decode buffer pointerBase limit offset = .ok (datum.value, next) := by
  obtain ⟨middle, head, tail⟩ := decodeItems_cons.mp (decodeItems_written written)
  cases tail
  exact decode_of_le buffer pointerBase enough head

/-- What is written in the format, with pointers at any place, stands for one
value. A limit that is too low for it only leads to the exception for that. -/
theorem written_decoded {buffer : List UInt8} {pointerBase depth offset next : Nat} {datum : Datum}
    (written : Written buffer pointerBase depth offset [datum] next) (limit : Nat) :
    decode buffer pointerBase limit offset = .ok (datum.value, next) ∨
      limit < depth ∧ decode buffer pointerBase limit offset = .error .recursionError := by
  have read := decode_written written le_rfl
  by_cases enough : depth ≤ limit
  · exact .inl (decode_written written enough)
  · have below := Nat.lt_of_not_le enough
    by_cases stopped : decode buffer pointerBase limit offset = .error .recursionError
    · exact .inr ⟨below, stopped⟩
    · exact .inl ((decode_extends buffer pointerBase below.le offset stopped).symm.trans read)

theorem written_decoded_pointer : decode [0x20, 0x02, 0x01, 0x07] 0 2 0 = .ok (.bool true, 2) := by
  have target : Written [0x20, 0x02, 0x01, 0x07] 0 1 2 [.boolean true] 4 :=
    .scalar (.boolean true) (by decide) (by decide) (.done 1 4)
  have pointer : Written [0x20, 0x02, 0x01, 0x07] 0 2 0 [.boolean true] 2 :=
    .pointer (.one (show 2 < 2 ^ 11 by decide)) (by decide) target (.done 2 2)
  exact (written_decoded pointer 2).resolve_right fun deep => absurd deep.1 (by decide)

end SimpleCdn.MaxMindDb
