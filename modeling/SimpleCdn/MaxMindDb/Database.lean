import SimpleCdn.MaxMindDb.Nodes
import SimpleCdn.MaxMindDb.Opening

namespace SimpleCdn.MaxMindDb

/-- The number that stands for a version in the metadata. -/
def IpVersion.number : IpVersion → Nat
  | v4 => 4 | v6 => 6

/-- What a database says: the data of the networks, and the metadata. All of it
can be written with records of the chosen size. -/
structure Database where
  zero : Trie Datum
  one : Trie Datum
  version : IpVersion
  recordSize : Nat
  databaseType : String
  languages : List String
  majorVersion : Fin (256 ^ 2)
  minorVersion : Fin (256 ^ 2)
  buildEpoch : Fin (256 ^ 8)
  description : List (String × String)
  recordSize_valid : IsRecordSize recordSize
  height_le : (Trie.node zero one).height ≤ version.size * 8
  records_fit : (Trie.node zero one).nodes + dataSectionSeparatorSize + (dataBytes (.node zero one)).length ≤
    2 ^ recordSize

namespace Database
variable (db : Database)

def tree : Trie Datum := .node db.zero db.one

theorem recordSize_lt : db.recordSize < 256 ^ 2 := by
  rcases db.recordSize_valid with size | size | size <;> rw [size] <;> decide

theorem nodes_lt : db.tree.nodes < 256 ^ 4 := by
  have fits : db.tree.nodes + dataSectionSeparatorSize + (dataBytes db.tree).length ≤ 2 ^ db.recordSize :=
    db.records_fit
  have separated : 0 < dataSectionSeparatorSize := by decide
  have wide : 2 ^ db.recordSize ≤ 256 ^ 4 := by
    rcases db.recordSize_valid with size | size | size <;> rw [size] <;> decide
  omega

theorem number_lt : db.version.number < 256 ^ 2 := by
  cases db.version <;> decide

def metadataEntries : List (String × Datum) := [
  ("node_count", .uint .uint32 ⟨db.tree.nodes, db.nodes_lt⟩),
  ("record_size", .uint .uint16 ⟨db.recordSize, db.recordSize_lt⟩),
  ("ip_version", .uint .uint16 ⟨db.version.number, db.number_lt⟩),
  ("database_type", .utf8String db.databaseType),
  ("languages", .array (db.languages.map .utf8String)),
  ("binary_format_major_version", .uint .uint16 db.majorVersion),
  ("binary_format_minor_version", .uint .uint16 db.minorVersion),
  ("build_epoch", .uint .uint64 db.buildEpoch),
  ("description", .map (db.description.map fun text => (text.1, .utf8String text.2)))]

def metadata : Datum := .map db.metadataEntries

/-- The file up to the metadata. -/
def sections : List UInt8 :=
  nodesBytes db.recordSize (layout db.tree.nodes db.tree 0 0) ++
    (List.replicate dataSectionSeparatorSize 0 ++ dataBytes db.tree)

/-- The database as a file: the search tree, the separator, the data section and
the metadata. -/
def file : List UInt8 := db.sections ++ (metadataStartMarker ++ db.metadata.encode)

/-- The metadata that is read from the file. -/
def readBack : Metadata where
  nodeCount := .int (db.tree.nodes : Nat)
  recordSize := .int (db.recordSize : Nat)
  ipVersion := .int (db.version.number : Nat)
  databaseType := .string db.databaseType
  languages := .array (values (db.languages.map .utf8String))
  binaryFormatMajorVersion := .int (db.majorVersion : Nat)
  binaryFormatMinorVersion := .int (db.minorVersion : Nat)
  buildEpoch := .int (db.buildEpoch : Nat)
  description := .map (dictionary (db.description.map fun text => (text.1, .utf8String text.2)) [])

/-- What is needed to write the metadata and to find them again: the marker must
not occur in them. -/
structure Readable (limit : Nat) : Prop where
  data : Fit limit db.tree
  metadata_fits : db.metadata.fits
  metadata_height : db.metadata.height ≤ limit
  near_end : metadataStartMarker.length + db.metadata.encode.length ≤ 128 * 1024
  no_marker : ∀ place, ¬ Holds db.metadata.encode place metadataStartMarker

theorem ofItems_metadata : Metadata.ofItems (dictionary db.metadataEntries []) = .ok db.readBack := rfl

variable {db} {limit : Nat}

/-- No marker begins behind the one in front of the metadata. -/
theorem Readable.marker_last (readable : db.Readable limit) {later : Nat} (behind : db.sections.length < later) :
    ¬ Holds db.file later metadataStartMarker := by
  intro holds
  rw [← Nat.add_sub_cancel' behind.le, file, holds_behind_iff] at holds
  by_cases far : metadataStartMarker.length ≤ later - db.sections.length
  · rw [← Nat.add_sub_cancel' far, holds_behind_iff] at holds
    exact readable.no_marker _ holds
  · have inside : ∀ k < metadataStartMarker.length, 0 < k → metadataStartMarker[k]? ≠ some 0xAB := by decide
    have first := holds.getElem?
    rw [List.getElem?_append_left (by omega)] at first
    exact inside _ (by omega) (by omega) first

theorem Readable.found (readable : db.Readable limit) :
    rfind metadataStartMarker (db.file.length - 128 * 1024) db.file = some db.sections.length := by
  have length : db.file.length = db.sections.length + (metadataStartMarker.length + db.metadata.encode.length) := by
    rw [file, List.length_append, List.length_append]
  have near := readable.near_end
  refine (rfind_eq_some_iff (by decide)).mpr ⟨⟨by omega, ?_⟩, fun later behind => readable.marker_last behind⟩
  rw [← Nat.add_zero db.sections.length, file, holds_behind_iff]
  exact List.prefix_append _ _

theorem Readable.readMetadata (readable : db.Readable limit) (filename : String) :
    MaxMindDb.readMetadata limit filename db.file db.sections.length = .ok db.readBack := by
  have holds : Holds db.file (db.sections.length + metadataStartMarker.length) db.metadata.encode := by
    rw [file, holds_behind_iff, ← Nat.add_zero metadataStartMarker.length, holds_behind_iff]
    exact List.prefix_rfl
  have read := decode_written (written_encode readable.metadata_fits
    (db.sections.length + metadataStartMarker.length) holds) readable.metadata_height
  simp only [MaxMindDb.readMetadata, read, ok_bind]
  exact db.ofItems_metadata

/-- Every mode opens the file, and finds its metadata. -/
theorem Readable.opened (readable : db.Readable limit) (mode : Mode) (filename : String) :
    openReader mode limit filename db.file = .ok ⟨db.file, db.readBack⟩ := by
  have nonempty : 0 < db.metadata.encode.length := length_encode_pos db.metadata
  have length : db.file.length = db.sections.length + (metadataStartMarker.length + db.metadata.encode.length) := by
    rw [file, List.length_append, List.length_append]
  have closed : ¬ Holds db.file (db.file.length - metadataStartMarker.length) metadataStartMarker :=
    readable.marker_last (by omega)
  rw [openReader, mode.rfind_eq closed, readable.found, readerAt, readable.readMetadata filename]
  rfl

/-- The reader of the file. -/
def reader (db : Database) : Reader := ⟨db.file, db.readBack⟩

theorem reader_hasSizes (db : Database) : db.reader.HasSizes db.tree.nodes db.recordSize :=
  ⟨rfl, rfl, db.recordSize_valid⟩

theorem reader_ipVersion (db : Database) (n : Nat) :
    db.reader.metadata.ipVersion.equals n ↔ n = db.version.number := by
  unfold Record.equals
  rw [beq_iff_eq]
  exact ⟨fun same => Int.ofNat_inj.mp (compare_eq_iff_eq.mp (Option.some.inj same)),
    fun same => congrArg some (compare_eq_iff_eq.mpr (congrArg Nat.cast same))⟩

theorem Readable.stores (readable : db.Readable limit) :
    db.reader.Stores limit db.tree.nodes db.recordSize 0 db.tree := by
  have tree : Holds db.file (0 * (db.recordSize / 4))
      (nodesBytes db.recordSize (layout db.tree.nodes db.tree 0 0)) := by
    rw [Nat.zero_mul, file, sections, List.append_assoc]
    exact List.prefix_append _ _
  have front : (nodesBytes db.recordSize (layout db.tree.nodes db.tree 0 0) ++
      List.replicate dataSectionSeparatorSize 0).length =
        db.tree.nodes * (db.recordSize / 4) + dataSectionSeparatorSize := by
    rw [List.length_append, length_nodesBytes db.recordSize_valid, length_layout, List.length_replicate]
  have data : Holds db.file (db.tree.nodes * (db.recordSize / 4) + dataSectionSeparatorSize + 0)
      (dataBytes db.tree) := by
    have parts : db.file = nodesBytes db.recordSize (layout db.tree.nodes db.tree 0 0) ++
        List.replicate dataSectionSeparatorSize 0 ++ dataBytes db.tree ++
          (metadataStartMarker ++ db.metadata.encode) := by
      simp only [file, sections, List.append_assoc]
    rw [← front, Nat.add_zero, parts]
    exact holds_between _ _ _
  exact (stores_layout db.reader_hasSizes readable.data (Nat.zero_add _).le db.records_fit tree data).2

/-- The bits that decide about an address, and how many of them are not counted:
in a database for IPv6 an IPv4 address has 96 zeros in front. -/
def skipped (db : Database) (address : IpAddress) : Nat :=
  if db.version = .v6 ∧ address.version = .v4 then 96 else 0

def bits (db : Database) (address : IpAddress) : List Bool :=
  List.replicate (db.skipped address) false ++ bitsOf address.packed

/-- An address and the network of the database that contains it. -/
def Contains (db : Database) (network : List Bool × Option Datum) (address : IpAddress) : Prop :=
  network ∈ db.tree.networks ∧ network.1 <+: db.bits address

theorem Contains.looked {network : List Bool × Option Datum} {address : IpAddress}
    (contains : db.Contains network address) :
    db.tree.lookup (db.bits address) = some (network.2, network.1.length) :=
  Trie.lookup_of_prefix contains.1 contains.2

theorem length_bits {address : IpAddress} (possible : ¬ (address.version = .v6 ∧ db.version = .v4)) :
    (db.bits address).length = db.version.size * 8 := by
  rw [bits, List.length_append, List.length_replicate, length_bitsOf, address.packed_length, skipped]
  cases kind : address.version with
  | v4 => cases db.version <;> rfl
  | v6 =>
    cases version : db.version with
    | v4 => exact absurd ⟨kind, version⟩ possible
    | v6 => rfl

/-- Every address that the database can have is in one of its networks. -/
theorem exists_contains {address : IpAddress} (possible : ¬ (address.version = .v6 ∧ db.version = .v4)) :
    ∃ network, db.Contains network address := by
  have long : db.tree.height ≤ (db.bits address).length := by
    rw [length_bits possible]
    exact db.height_le
  obtain ⟨found, n, looked⟩ := Trie.lookup_of_height_le long
  obtain ⟨_, member⟩ := Trie.lookup_eq_some_iff.mp looked
  exact ⟨_, member, List.take_prefix _ _⟩

/-- The addresses of the database's own version begin at the root. -/
theorem Readable.lookup_own (readable : db.Readable limit) {address : IpAddress} (own : address.version = db.version)
    {found : Option Datum} {n : Nat} (looked : db.tree.lookup (bitsOf address.packed) = some (found, n)) :
    db.reader.lookup limit address = .ok (found.map Datum.value, n) := by
  have allowed : ¬ (address.version = .v6 ∧ db.reader.metadata.ipVersion.equals 4) := by
    rintro ⟨six, four⟩
    have number := (db.reader_ipVersion 4).mp four
    rw [← own, six] at number
    exact absurd number (by decide)
  have begins : db.reader.start (address.packed.length * 8) = .ok 0 := by
    refine if_pos ?_
    rw [address.packed_length, own]
    cases version : db.version with
    | v4 =>
      refine .inl ?_
      rw [Bool.not_eq_true', ← Bool.not_eq_true]
      intro six
      have number := (db.reader_ipVersion 6).mp six
      rw [version] at number
      exact absurd number (by decide)
    | v6 => exact .inr rfl
  exact Reader.lookup_stored db.reader_hasSizes allowed begins readable.stores looked

theorem Readable.lookup (readable : db.Readable limit) {address : IpAddress}
    (possible : ¬ (address.version = .v6 ∧ db.version = .v4)) {network : List Bool × Option Datum}
    (contains : db.Contains network address) : db.reader.lookup limit address =
      .ok (network.2.map Datum.value, network.1.length - db.skipped address) := by
  have looked := contains.looked
  by_cases embedded : db.version = .v6 ∧ address.version = .v4
  · obtain ⟨six, four⟩ := embedded
    have skip : db.skipped address = 96 := if_pos ⟨six, four⟩
    let other : IpAddress := {
      version := .v6
      packed := List.replicate 12 0 ++ address.packed
      packed_length := by rw [List.length_append, List.length_replicate, address.packed_length, four]; rfl
      text := address.text }
    rw [bits, skip, show 96 = 12 * 8 from rfl, ← bitsOf_zeros] at looked
    have found : db.reader.lookup limit other = .ok (network.2.map Datum.value, network.1.length) :=
      readable.lookup_own six.symm looked
    have both : db.reader.metadata.ipVersion.equals 6 :=
      (db.reader_ipVersion 6).mpr (congrArg IpVersion.number six).symm
    have lowered : db.reader.lookup limit address = (db.reader.lookup limit other).map fun found =>
        (found.1, found.2 - 96) := Reader.lookup_ipv4_in_ipv6 both nofun four rfl rfl
    rw [lowered, found, skip]
    rfl
  · have skip : db.skipped address = 0 := if_neg embedded
    have own : address.version = db.version := by
      cases kind : address.version <;> cases version : db.version
      · rfl
      · exact absurd ⟨version, kind⟩ embedded
      · exact absurd ⟨kind, version⟩ possible
      · rfl
    rw [bits, skip] at looked
    rw [skip, Nat.sub_zero]
    exact readable.lookup_own own looked

/-- A database that is written to a file and opened again gives for each address
the datum of the network that contains it. -/
theorem database_read_back (readable : db.Readable limit) (mode : Mode) (filename : String) :
    ∃ reader, openReader mode limit filename db.file = .ok reader ∧
      ∀ address : IpAddress, ¬ (address.version = .v6 ∧ db.version = .v4) →
        (∃ network, db.Contains network address) ∧
        ∀ network, db.Contains network address → reader.lookup limit address =
          .ok (network.2.map Datum.value, network.1.length - db.skipped address) :=
  ⟨db.reader, readable.opened mode filename, fun _ possible =>
    ⟨exists_contains possible, fun _ contains => readable.lookup possible contains⟩⟩

def upperCity : Datum := .map [("location", .map [("latitude", .double 0x404D000000000000#64),
  ("longitude", .double 0xC010000000000000#64)])]

/-- The upper half of the addresses is in one city, the lower half in none. -/
def upperHalf : Database where
  zero := .empty
  one := .leaf upperCity
  version := .v4
  recordSize := 24
  databaseType := "GeoLite2-City"
  languages := ["en"]
  majorVersion := 2
  minorVersion := 0
  buildEpoch := 1668528000
  description := [("en", "GeoLite2 City database")]
  recordSize_valid := .inl rfl
  height_le := by decide
  records_fit := by decide +kernel

theorem upperHalf_readable : upperHalf.Readable 100 where
  data := by
    intro datum member
    obtain rfl : datum = upperCity := List.mem_singleton.mp member
    decide +kernel
  metadata_fits := by decide +kernel
  metadata_height := by decide +kernel
  near_end := by decide +kernel
  no_marker := by
    have nowhere : ∀ place < upperHalf.metadata.encode.length,
        ¬ Holds upperHalf.metadata.encode place metadataStartMarker := by decide +kernel
    intro place holds
    refine nowhere place ?_ holds
    have inside := holds.end_le (by decide)
    have some : 0 < metadataStartMarker.length := by decide
    omega

def inUpperHalf : IpAddress := ⟨.v4, [203, 0, 113, 7], rfl, "203.0.113.7"⟩

theorem upperHalf_read_back : ∃ reader, openReader .mmap 100 "GeoLite2-City.mmdb" upperHalf.file = .ok reader ∧
    reader.lookup 100 inUpperHalf = .ok (some upperCity.value, 1) := by
  have contains : upperHalf.Contains ([true], some upperCity) inUpperHalf :=
    ⟨List.mem_cons_of_mem _ (List.mem_cons_self ..), by decide⟩
  obtain ⟨reader, opened, answers⟩ := database_read_back upperHalf_readable .mmap "GeoLite2-City.mmdb"
  exact ⟨reader, opened, (answers inUpperHalf (by decide)).2 _ contains⟩

end Database

end SimpleCdn.MaxMindDb
