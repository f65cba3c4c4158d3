import SimpleCdn.MaxMindDb.Record

namespace SimpleCdn.MaxMindDb

abbrev Decoded := Except ReadError (Record × Nat)

/-- `buffer[offset]`. -/
def byteAtOffset (buffer : List UInt8) (offset : Nat) : Except ReadError Nat :=
  match buffer[offset]? with
  | some byte => .ok byte.toNat
  | none => .error .indexError

/-- `struct.unpack` of one unsigned number of a fixed width. -/
def unpack (width : Nat) (bytes : List UInt8) : Except ReadError Nat :=
  if bytes.length = width then .ok (beNat bytes) else .error .structError

/-- A number of 32 bits, read as a signed one. -/
def signed32 (n : Nat) : ℤ := if n < 2 ^ 31 then n else n - 2 ^ 32

/-- `bytes.rjust` with zeros. -/
def rjust (width : Nat) (bytes : List UInt8) : List UInt8 := List.replicate (width - bytes.length) 0 ++ bytes

/-- `bytes.decode("utf-8")`, which is strict. -/
def decodeUtf8 (bytes : List UInt8) : Except ReadError String :=
  match String.fromUTF8? ⟨bytes.toArray⟩ with
  | some text => .ok text
  | none => .error .unicodeDecodeError

def verifySize (expected actual : Nat) : Except ReadError Unit :=
  if expected = actual then .ok ()
  else .error (.invalidDatabaseError
    "The MaxMind DB file's data section contains bad data (unknown data type or corrupt data)")

section Scalars
variable (buffer : List UInt8) (size offset : Nat)

def decodeBoolean : Decoded := .ok (.bool (size ≠ 0), offset)

def decodeBytes : Decoded := .ok (.bytes (slice buffer offset (offset + size)), offset + size)

def decodeDouble : Decoded := do
  verifySize size 8
  let bits ← unpack 8 (slice buffer offset (offset + size))
  return (.float (.ofDouble bits), offset + size)

def decodeFloat : Decoded := do
  verifySize size 4
  let bits ← unpack 4 (slice buffer offset (offset + size))
  return (.float (.ofSingle bits), offset + size)

def decodeInt32 : Decoded :=
  if size = 0 then .ok (.int 0, offset)
  else do
    let packedBytes := slice buffer offset (offset + size)
    let bits ← unpack 4 (if size ≠ 4 then rjust 4 packedBytes else packedBytes)
    return (.int (signed32 bits), offset + size)

def decodeUint : Decoded := .ok (.int (beNat (slice buffer offset (offset + size))), offset + size)

def decodeUtf8String : Decoded := do
  let text ← decodeUtf8 (slice buffer offset (offset + size))
  return (.string text, offset + size)

/-- Where a pointer leads. The three low bits of the control byte are a part of
the pointer, except in the longest form. -/
def pointerTarget (pointerBase : Nat) : Except ReadError Nat := do
  let pointerSize := (size >>> 3) + 1
  let buf := slice buffer offset (offset + pointerSize)
  let top := UInt8.ofNat (size &&& 0x7)
  if pointerSize = 1 then
    return (← unpack 2 (top :: buf)) + pointerBase
  else if pointerSize = 2 then
    return (← unpack 4 (0 :: top :: buf)) + 2048 + pointerBase
  else if pointerSize = 3 then
    return (← unpack 4 (top :: buf)) + 526336 + pointerBase
  else
    return (← unpack 4 buf) + pointerBase

end Scalars

section Containers
variable (decode : Nat → Decoded)

/-- The loop of `_decode_array`. -/
def decodeItems : Nat → Nat → Except ReadError (List Record × Nat)
  | 0, offset => .ok ([], offset)
  | size + 1, offset => do
    let (value, offset) ← decode offset
    let (items, offset) ← decodeItems size offset
    return (value :: items, offset)

def decodeArray (size offset : Nat) : Decoded := do
  let (items, offset) ← decodeItems decode size offset
  return (.array items, offset)

/-- The loop of `_decode_map`. -/
def decodeEntries : Nat → Nat → List (RecordKey × Record) →
    Except ReadError (List (RecordKey × Record) × Nat)
  | 0, offset, container => .ok (container, offset)
  | size + 1, offset, container => do
    let (key, offset) ← decode offset
    let (value, offset) ← decode offset
    let key ← key.hashed
    decodeEntries size offset (setItem key value container)

def decodeMap (size offset : Nat) : Decoded := do
  let (container, offset) ← decodeEntries decode size offset []
  return (.map container, offset)

def decodePointer (buffer : List UInt8) (pointerBase size offset : Nat) : Decoded := do
  let pointer ← pointerTarget buffer size offset pointerBase
  let (value, _) ← decode pointer
  return (value, offset + ((size >>> 3) + 1))

/-- `_type_decoder`, and the exception for a number that is not in it. -/
def typeDecoder (buffer : List UInt8) (pointerBase : Nat) : Nat → Except ReadError (Nat → Nat → Decoded)
  | 1 => .ok (decodePointer decode buffer pointerBase)
  | 2 => .ok (decodeUtf8String buffer)
  | 3 => .ok (decodeDouble buffer)
  | 4 => .ok (decodeBytes buffer)
  | 5 => .ok (decodeUint buffer)
  | 6 => .ok (decodeUint buffer)
  | 7 => .ok (decodeMap decode)
  | 8 => .ok (decodeInt32 buffer)
  | 9 => .ok (decodeUint buffer)
  | 10 => .ok (decodeUint buffer)
  | 11 => .ok (decodeArray decode)
  | 14 => .ok decodeBoolean
  | 15 => .ok (decodeFloat buffer)
  | typeNum => .error (.invalidDatabaseError s!"Unexpected type number ({typeNum}) encountered")

end Containers

/-- A type number below 8 is an error in the source, but below 7 there is none:
the byte is not negative. -/
def readExtended (buffer : List UInt8) (offset : Nat) : Except ReadError (Nat × Nat) := do
  let nextByte ← byteAtOffset buffer offset
  let typeNum := nextByte + 7
  if typeNum < 7 then
    throw (.invalidDatabaseError ("Something went horribly wrong in the decoder. An " ++
      s!"extended type resolved to a type number < 8 ({typeNum})"))
  return (typeNum, offset + 1)

def sizeFromCtrlByte (buffer : List UInt8) (ctrlByte offset typeNum : Nat) : Except ReadError (Nat × Nat) := do
  let size := ctrlByte &&& 0x1F
  if typeNum = 1 ∨ size < 29 then
    return (size, offset)
  else if size = 29 then
    return (29 + (← byteAtOffset buffer offset), offset + 1)
  else if size = 30 then
    return (285 + (← unpack 2 (slice buffer offset (offset + 2))), offset + 2)
  else
    return ((← unpack 4 (0 :: slice buffer offset (offset + 3))) + 65821, offset + 3)

/-- The type number, and where the size begins. -/
def readType (buffer : List UInt8) (ctrlByte offset : Nat) : Except ReadError (Nat × Nat) :=
  let typeNum := ctrlByte >>> 5
  if typeNum = 0 then readExtended buffer offset else .ok (typeNum, offset)

/-- The body of `decode`, with its recursive calls as a parameter. -/
def decodeStep (buffer : List UInt8) (pointerBase : Nat) (decode : Nat → Decoded) (offset : Nat) : Decoded := do
  let ctrlByte ← byteAtOffset buffer offset
  let (typeNum, newOffset) ← readType buffer ctrlByte (offset + 1)
  let decoder ← typeDecoder decode buffer pointerBase typeNum
  let (size, newOffset) ← sizeFromCtrlByte buffer ctrlByte newOffset typeNum
  decoder size newOffset

/-- `Decoder.decode` where the interpreter's recursion limit leaves room for
this many nested calls of it. -/
def decode (buffer : List UInt8) (pointerBase : Nat) : Nat → Nat → Decoded
  | 0, _ => .error .recursionError
  | depth + 1, offset => decodeStep buffer pointerBase (decode buffer pointerBase depth) offset

end SimpleCdn.MaxMindDb
