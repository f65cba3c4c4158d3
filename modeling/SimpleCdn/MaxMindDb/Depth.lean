import SimpleCdn.Lib.Recursion
import SimpleCdn.MaxMindDb.Decoder

namespace SimpleCdn.MaxMindDb

section Off
variable (buffer : List UInt8) (size offset : Nat)

theorem byteAtOffset_off : byteAtOffset buffer offset ≠ .error .recursionError := by
  unfold byteAtOffset
  split <;> exact nofun

theorem unpack_off (width : Nat) (bytes : List UInt8) : unpack width bytes ≠ .error .recursionError := by
  unfold unpack
  split <;> exact nofun

theorem verifySize_off (expected actual : Nat) : verifySize expected actual ≠ .error .recursionError := by
  unfold verifySize
  split <;> exact nofun

theorem hashed_off (key : Record) : key.hashed ≠ .error .recursionError := by
  unfold Record.hashed
  split <;> exact nofun

theorem decodeDouble_off : decodeDouble buffer size offset ≠ .error .recursionError :=
  bind_off (verifySize_off size 8) fun _ => bind_off (unpack_off 8 _) fun _ => nofun

theorem decodeFloat_off : decodeFloat buffer size offset ≠ .error .recursionError :=
  bind_off (verifySize_off size 4) fun _ => bind_off (unpack_off 4 _) fun _ => nofun

theorem decodeInt32_off : decodeInt32 buffer size offset ≠ .error .recursionError := by
  unfold decodeInt32
  split
  · exact nofun
  · exact bind_off (unpack_off 4 _) fun _ => nofun

theorem decodeUtf8String_off : decodeUtf8String buffer size offset ≠ .error .recursionError := by
  refine bind_off ?_ fun _ => nofun
  unfold decodeUtf8
  split <;> exact nofun

theorem pointerTarget_off (pointerBase : Nat) :
    pointerTarget buffer size offset pointerBase ≠ .error .recursionError := by
  simp only [pointerTarget]
  split_ifs <;> exact bind_off (unpack_off _ _) fun _ => nofun

theorem readExtended_off : readExtended buffer offset ≠ .error .recursionError := by
  refine bind_off (byteAtOffset_off buffer offset) fun nextByte => ?_
  simp only
  split_ifs <;> exact nofun

theorem readType_off (ctrlByte : Nat) : readType buffer ctrlByte offset ≠ .error .recursionError := by
  simp only [readType]
  split_ifs
  · exact readExtended_off buffer offset
  · exact nofun

theorem sizeFromCtrlByte_off (ctrlByte typeNum : Nat) :
    sizeFromCtrlByte buffer ctrlByte offset typeNum ≠ .error .recursionError := by
  simp only [sizeFromCtrlByte]
  split_ifs
  · exact nofun
  · exact bind_off (byteAtOffset_off buffer offset) fun _ => nofun
  · exact bind_off (unpack_off _ _) fun _ => nofun
  · exact bind_off (unpack_off _ _) fun _ => nofun

end Off

section Sequential

theorem decodeItems_sequential (size offset : Nat) :
    Sequential .recursionError fun decode => decodeItems decode size offset := by
  induction size generalizing offset with
  | zero => exact .const nofun
  | succ size ih =>
    exact .bind (.call offset) fun first => .bind (ih first.2) fun _ => .const nofun

theorem decodeEntries_sequential (size offset : Nat) (container : List (RecordKey × Record)) :
    Sequential .recursionError fun decode => decodeEntries decode size offset container := by
  induction size generalizing offset container with
  | zero => exact .const nofun
  | succ size ih =>
    exact .bind (.call offset) fun key => .bind (.call key.2) fun value =>
      .bind (.const (hashed_off key.1)) fun hashed => ih value.2 (setItem hashed value.1 container)

theorem decodePointer_sequential (buffer : List UInt8) (pointerBase size offset : Nat) :
    Sequential .recursionError fun decode => decodePointer decode buffer pointerBase size offset :=
  .bind (.const (pointerTarget_off buffer size offset pointerBase)) fun pointer =>
    .bind (.call pointer) fun _ => .const nofun

theorem decodeArray_sequential (size offset : Nat) :
    Sequential .recursionError fun decode => decodeArray decode size offset :=
  .bind (decodeItems_sequential size offset) fun _ => .const nofun

theorem decodeMap_sequential (size offset : Nat) :
    Sequential .recursionError fun decode => decodeMap decode size offset :=
  .bind (decodeEntries_sequential size offset []) fun _ => .const nofun

/-- Which decoder is taken depends on the type number alone. -/
theorem typeDecoder_cases (buffer : List UInt8) (pointerBase typeNum : Nat) :
    (∃ message, ∀ decode, typeDecoder decode buffer pointerBase typeNum =
      .error (.invalidDatabaseError message)) ∨
      ∃ decoder : (Nat → Decoded) → Nat → Nat → Decoded,
        (∀ decode, typeDecoder decode buffer pointerBase typeNum = .ok (decoder decode)) ∧
          ∀ size offset, Sequential .recursionError fun decode => decoder decode size offset := by
  unfold typeDecoder
  split
  · exact .inr ⟨_, fun _ => rfl, decodePointer_sequential buffer pointerBase⟩
  · exact .inr ⟨_, fun _ => rfl, fun size offset => .const (decodeUtf8String_off buffer size offset)⟩
  · exact .inr ⟨_, fun _ => rfl, fun size offset => .const (decodeDouble_off buffer size offset)⟩
  · exact .inr ⟨_, fun _ => rfl, fun _ _ => .const nofun⟩
  · exact .inr ⟨_, fun _ => rfl, fun _ _ => .const nofun⟩
  · exact .inr ⟨_, fun _ => rfl, fun _ _ => .const nofun⟩
  · exact .inr ⟨_, fun _ => rfl, decodeMap_sequential⟩
  · exact .inr ⟨_, fun _ => rfl, fun size offset => .const (decodeInt32_off buffer size offset)⟩
  · exact .inr ⟨_, fun _ => rfl, fun _ _ => .const nofun⟩
  · exact .inr ⟨_, fun _ => rfl, fun _ _ => .const nofun⟩
  · exact .inr ⟨_, fun _ => rfl, decodeArray_sequential⟩
  · exact .inr ⟨_, fun _ => rfl, fun _ _ => .const nofun⟩
  · exact .inr ⟨_, fun _ => rfl, fun size offset => .const (decodeFloat_off buffer size offset)⟩
  · exact .inl ⟨_, fun _ => rfl⟩

end Sequential

section Limit
variable (buffer : List UInt8) (pointerBase : Nat)

theorem decodeStep_sequential (offset : Nat) :
    Sequential .recursionError fun decode => decodeStep buffer pointerBase decode offset := by
  refine .bind (.const (byteAtOffset_off buffer offset)) fun ctrlByte =>
    .bind (.const (readType_off buffer (offset + 1) ctrlByte)) fun ⟨typeNum, newOffset⟩ => ?_
  rcases typeDecoder_cases buffer pointerBase typeNum with ⟨message, unknown⟩ | ⟨decoder, known, sequential⟩
  · simp only [unknown]
    exact .const nofun
  · simp only [known]
    show Sequential .recursionError fun decode =>
      sizeFromCtrlByte buffer ctrlByte newOffset typeNum >>= fun found => decoder decode found.1 found.2
    exact .bind (.const (sizeFromCtrlByte_off buffer newOffset ctrlByte typeNum)) fun found =>
      sequential found.1 found.2

theorem decode_eq_recurse (depth : Nat) :
    decode buffer pointerBase depth = recurse .recursionError (decodeStep buffer pointerBase) depth := by
  induction depth with
  | zero => rfl
  | succ depth ih => funext offset; rw [decode, ih, recurse]

/-- A higher limit only replaces failures at the limit. -/
theorem decode_extends {depth deeper : Nat} (le : depth ≤ deeper) :
    Extends .recursionError (decode buffer pointerBase depth) (decode buffer pointerBase deeper) := by
  rw [decode_eq_recurse, decode_eq_recurse]
  exact recurse_extends (decodeStep_sequential buffer pointerBase) le

theorem decode_of_le {depth deeper : Nat} (le : depth ≤ deeper) {offset : Nat} {result : Record × Nat}
    (returned : decode buffer pointerBase depth offset = .ok result) :
    decode buffer pointerBase deeper offset = .ok result := by
  rw [← returned]
  exact decode_extends buffer pointerBase le offset (by rw [returned]; exact nofun)

/-- Behind the end of the buffer there is no control byte. -/
theorem decodeStep_outside {offset : Nat} (outside : buffer.length ≤ offset) (decode : Nat → Decoded) :
    decodeStep buffer pointerBase decode offset = .error .indexError := by
  simp only [decodeStep, byteAtOffset, List.getElem?_eq_none outside]
  rfl

/-- One more nested call than the buffer has bytes is enough for every place: a
record that is not decoded then refers to itself, and no limit is enough. -/
theorem decode_of_length_lt {depth : Nat} (deep : buffer.length < depth) (offset : Nat) :
    decode buffer pointerBase depth offset = decode buffer pointerBase (buffer.length + 1) offset := by
  have outside : ∀ place ∉ Finset.range buffer.length, ∀ decode,
      decodeStep buffer pointerBase decode place ≠ .error .recursionError := by
    intro place out decode
    rw [decodeStep_outside buffer pointerBase (by simpa using out)]
    exact nofun
  rw [decode_eq_recurse, decode_eq_recurse]
  exact recurse_of_card_lt (decodeStep_sequential buffer pointerBase) outside (by simp) deep offset

/-- The recursion limit decides about nothing but whether there is an exception
for it, and from a limit on that the buffer gives not even about that. -/
theorem decode_any_limit (depth offset : Nat) :
    decode buffer pointerBase depth offset = decode buffer pointerBase (buffer.length + 1) offset ∨
      depth ≤ buffer.length ∧ decode buffer pointerBase depth offset = .error .recursionError := by
  by_cases deep : buffer.length < depth
  · exact .inl (decode_of_length_lt buffer pointerBase deep offset)
  · have le : depth ≤ buffer.length := Nat.le_of_not_lt deep
    by_cases stopped : decode buffer pointerBase depth offset = .error .recursionError
    · exact .inr ⟨le, stopped⟩
    · exact .inl (decode_extends buffer pointerBase (Nat.le_succ_of_le le) offset stopped).symm

end Limit

end SimpleCdn.MaxMindDb
