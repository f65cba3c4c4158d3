import SimpleCdn.MaxMindDb.Depth
import SimpleCdn.MaxMindDb.SearchTree

namespace SimpleCdn.MaxMindDb

/-- The bytes in front of the metadata: `\xAB\xCD\xEFMaxMind.com`. -/
def metadataStartMarker : List UInt8 :=
  [0xAB, 0xCD, 0xEF, 0x4D, 0x61, 0x78, 0x4D, 0x69, 0x6E, 0x64, 0x2E, 0x63, 0x6F, 0x6D]

/-- `FileBuffer.rfind`, which reads one byte less than there is. -/
def fileBufferRfind (needle : List UInt8) (start : Nat) (buffer : List UInt8) : Option Nat :=
  (rfind needle 0 (slice buffer start (start + (buffer.length - start - 1)))).map (start + ·)

/-- How a file is opened: as a memory map, through `FileBuffer`, or read whole. -/
inductive Mode
  | mmap | file | memory | fd
  deriving DecidableEq

def Mode.rfind : Mode → List UInt8 → Nat → List UInt8 → Option Nat
  | file => fileBufferRfind
  | _ => SimpleCdn.rfind

/-- A size in the metadata. `Reader.__init__` multiplies the two sizes as soon as
it has the metadata, which fails for what is no number. -/
def number (value : Record) : Except ReadError PyNumber :=
  match value.number? with
  | some size => .ok size
  | none => .error (.typeError "unsupported operand type(s)")

def keyword (items : List (RecordKey × Record)) (key : String) : Except ReadError Record :=
  match findEntry (.string key) items with
  | some value => .ok value
  | none => .error (.keyError key)

def isString : RecordKey → Bool
  | .string _ => true
  | _ => false

/-- `Metadata(**metadata)`. -/
def Metadata.ofItems (items : List (RecordKey × Record)) : Except ReadError Metadata := do
  if !items.all (isString ·.1) then throw (.typeError "keywords must be strings")
  if (findEntry (.string "self") items).isSome then
    throw (.typeError "Metadata.__init__() got multiple values for argument 'self'")
  let nodeCount ← keyword items "node_count"
  let recordSize ← keyword items "record_size"
  let ipVersion ← keyword items "ip_version"
  let databaseType ← keyword items "database_type"
  let languages ← keyword items "languages"
  let binaryFormatMajorVersion ← keyword items "binary_format_major_version"
  let binaryFormatMinorVersion ← keyword items "binary_format_minor_version"
  let buildEpoch ← keyword items "build_epoch"
  let description ← keyword items "description"
  return ⟨← number nodeCount, ← number recordSize, ipVersion, databaseType, languages,
    binaryFormatMajorVersion, binaryFormatMinorVersion, buildEpoch, description⟩

/-- The metadata behind the marker. Its pointers count from its own start. -/
def readMetadata (limit : Nat) (filename : String) (buffer : List UInt8) (metadataStart : Nat) :
    Except ReadError Metadata := do
  let start := metadataStart + metadataStartMarker.length
  let (metadata, _) ← decode buffer start limit start
  match metadata with
  | .map items => Metadata.ofItems items
  | _ => throw (.invalidDatabaseError s!"Error reading metadata in database file ({filename}).")

/-- The reader for a file whose marker is found, or is not. -/
def readerAt (limit : Nat) (filename : String) (buffer : List UInt8) : Option Nat → Except ReadError Reader
  | none => .error (.invalidDatabaseError
      (s!"Error opening database file ({filename}). " ++ "Is this a valid MaxMind DB file?"))
  | some metadataStart => do return ⟨buffer, ← readMetadata limit filename buffer metadataStart⟩

/-- `Reader(database, mode)` on a file that is not empty. The marker is searched
for in the last 128 KiB. -/
def openReader (mode : Mode) (limit : Nat) (filename : String) (buffer : List UInt8) : Except ReadError Reader :=
  readerAt limit filename buffer (mode.rfind metadataStartMarker (buffer.length - 128 * 1024) buffer)

section FileBuffer
variable {needle buffer : List UInt8} {start : Nat}

theorem holds_dropLast_iff (nonempty : needle ≠ []) {place : Nat} : Holds buffer.dropLast place needle ↔
    Holds buffer place needle ∧ place + needle.length ≠ buffer.length := by
  have positive := List.length_pos_iff.mpr nonempty
  rw [Holds, List.dropLast_eq_take, List.drop_take, List.prefix_take_iff]
  constructor
  · rintro ⟨holds, short⟩
    exact ⟨holds, by omega⟩
  · rintro ⟨holds, before⟩
    have inside := Holds.end_le holds nonempty
    exact ⟨holds, by omega⟩

/-- `FileBuffer` does not search in the last byte of the file. -/
theorem fileBufferRfind_eq (nonempty : needle ≠ []) :
    fileBufferRfind needle start buffer = rfind needle start buffer.dropLast := by
  rw [fileBufferRfind, slice, Nat.add_sub_cancel_left, ← rfind_drop nonempty buffer.dropLast start,
    List.dropLast_eq_take, List.drop_take, Nat.sub_right_comm]

/-- It finds the same place as a search in the whole file, but for one that ends
where the file ends. -/
theorem fileBufferRfind_eq_iff (nonempty : needle ≠ []) :
    fileBufferRfind needle start buffer = rfind needle start buffer ↔
      ¬ (start + needle.length ≤ buffer.length ∧ Holds buffer (buffer.length - needle.length) needle) := by
  rw [fileBufferRfind_eq nonempty]
  constructor
  · rintro same ⟨long, holds⟩
    have found : rfind needle start buffer = some (buffer.length - needle.length) := by
      refine (rfind_eq_some_iff nonempty).mpr ⟨⟨by omega, holds⟩, fun later above held => ?_⟩
      have inside := held.end_le nonempty
      omega
    obtain ⟨⟨_, held⟩, _⟩ := (rfind_eq_some_iff nonempty).mp (same.trans found)
    have before := ((holds_dropLast_iff nonempty).mp held).2
    omega
  · intro open'
    have same : ∀ place, start ≤ place →
        (Holds buffer.dropLast place needle ↔ Holds buffer place needle) := by
      intro place first
      rw [holds_dropLast_iff nonempty]
      refine ⟨And.left, fun holds => ⟨holds, fun last => open' ⟨by omega, ?_⟩⟩⟩
      rwa [← last, Nat.add_sub_cancel]
    refine Option.ext fun place => ?_
    rw [rfind_eq_some_iff nonempty, rfind_eq_some_iff nonempty]
    constructor
    · rintro ⟨⟨first, holds⟩, none⟩
      exact ⟨⟨first, (same place first).mp holds⟩,
        fun later above held => none later above ((same later (by omega)).mpr held)⟩
    · rintro ⟨⟨first, holds⟩, none⟩
      exact ⟨⟨first, (same place first).mpr holds⟩,
        fun later above held => none later above ((same later (by omega)).mp held)⟩

end FileBuffer

section Modes
variable {buffer : List UInt8}

theorem Mode.rfind_eq (closed : ¬ Holds buffer (buffer.length - metadataStartMarker.length) metadataStartMarker)
    (mode : Mode) (start : Nat) :
    mode.rfind metadataStartMarker start buffer = SimpleCdn.rfind metadataStartMarker start buffer := by
  cases mode with
  | file => exact (fileBufferRfind_eq_iff (by decide)).mpr fun ending => closed ending.2
  | mmap => rfl
  | memory => rfl
  | fd => rfl

end Modes

end SimpleCdn.MaxMindDb
