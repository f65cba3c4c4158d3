import SimpleCdn.Lib.Memo
import SimpleCdn.Lib.Trie
import SimpleCdn.MaxMindDb.Decoder

namespace SimpleCdn.MaxMindDb

/-- The metadata of a database file. -/
structure Metadata where
  nodeCount : PyNumber
  recordSize : PyNumber
  ipVersion : Record
  databaseType : Record
  languages : Record
  binaryFormatMajorVersion : Record
  binaryFormatMinorVersion : Record
  buildEpoch : Record
  description : Record

/-- The size of a node in bytes. -/
def nodeByteSize (recordSize : ℤ) : ℤ := recordSize / 4

def searchTreeSize (nodeCount recordSize : ℤ) : ℤ := nodeCount * nodeByteSize recordSize

inductive IpVersion
  | v4 | v6
  deriving DecidableEq

/-- The number of bytes of an address. -/
def IpVersion.size : IpVersion → Nat
  | v4 => 4 | v6 => 16

/-- An address with the text that stands for it in messages. -/
structure IpAddress where
  version : IpVersion
  packed : List UInt8
  packed_length : packed.length = version.size
  text : String

/-- The open database. Its buffer is never written. -/
structure Reader where
  buffer : List UInt8
  metadata : Metadata

/-- Calls of a reader, which remembers in `_ipv4_start` where IPv4 begins. -/
abbrev ReaderM := EStateM ReadError (Option Nat)

def raise {σ α : Type} (outcome : Except ReadError α) : EStateM ReadError σ α := fun s => answer outcome s

def dataSectionSeparatorSize : Nat := 16

namespace Reader
variable (reader : Reader)

/-- How the number of a node compares with the number of nodes. -/
def compareNode (node : Nat) : Option Ordering := reader.metadata.nodeCount.order node

/-- One of the two records of a node of so many bytes. With 28 bits a record has
half of the byte in the middle of the node. -/
def readRecord (recordSize : ℤ) (nodeNumber index : Nat) : Except ReadError Nat :=
  let baseOffset := nodeNumber * (nodeByteSize recordSize).toNat
  if recordSize = 24 then
    let offset := baseOffset + index * 3
    unpack 4 (0 :: slice reader.buffer offset (offset + 3))
  else if recordSize = 28 then
    let offset := baseOffset + 3 * index
    let nodeBytes := slice reader.buffer offset (offset + 4)
    if index ≠ 0 then
      match nodeBytes with
      | [] => .error .indexError
      | first :: rest => unpack 4 ((0x0F &&& first) :: rest)
    else
      match nodeBytes.getLast? with
      | none => .error .indexError
      | some last => unpack 4 (((0xF0 &&& last) >>> 4) :: nodeBytes.dropLast)
  else if recordSize = 32 then
    let offset := baseOffset + index * 4
    unpack 4 (slice reader.buffer offset (offset + 4))
  else .error (.invalidDatabaseError s!"Unknown record size: {recordSize}")

/-- `_read_node`. The buffer has no slice from a float to another. -/
def readNode (nodeNumber index : Nat) : Except ReadError Nat :=
  match reader.metadata.recordSize with
  | .int recordSize => reader.readRecord recordSize nodeNumber index
  | .float recordSize =>
    if [24, 28, 32].any fun size => (PyNumber.float recordSize).order size == some .eq then
      .error (.typeError "slice indices must be integers or None or have an __index__ method")
    else .error (.invalidDatabaseError "Unknown record size")

/-- The loop of `_start_node`, with so many of its 96 turns left. -/
def startLoop : Nat → Nat → Except ReadError Nat
  | 0, node => .ok node
  | turns + 1, node =>
    match reader.compareNode node with
    | some .gt | some .eq => .ok node
    | _ => do startLoop turns (← reader.readNode node 0)

def startNode (length : Nat) : ReaderM Nat := do
  if !reader.metadata.ipVersion.equals 6 ∨ length = 128 then
    return 0
  else
    match ← get with
    | some (node + 1) => return node + 1
    | _ =>
      let node ← raise (reader.startLoop 96 0)
      set (some node)
      return node

/-- A bit of an address, the most significant one first. -/
def addressBit (packed : List UInt8) (i : Nat) : Nat := 1 &&& ((packed.getD (i >>> 3) 0).toNat >>> (7 - i % 8))

/-- The loop of `_find_address_in_tree`, with so many bits left. -/
def findLoop (packed : List UInt8) : Nat → Nat → Nat → Except ReadError (Nat × Nat)
  | 0, node, i => .ok (node, i)
  | left + 1, node, i =>
    if reader.compareNode node = some .lt then do
      let next ← reader.readNode node (addressBit packed i)
      findLoop packed left next (i + 1)
    else .ok (node, i)

/-- What the end of the loop means: no record, or a pointer to one. -/
def endOfPath (node i : Nat) : Except ReadError (Nat × Nat) :=
  match reader.compareNode node with
  | some .eq => .ok (0, i)
  | some .gt => .ok (node, i)
  | _ => .error (.invalidDatabaseError "Invalid node in search tree")

def findAddressInTree (packed : List UInt8) : ReaderM (Nat × Nat) := do
  let bitCount := packed.length * 8
  let node ← reader.startNode bitCount
  let (node, i) ← raise (reader.findLoop packed bitCount node 0)
  raise (reader.endOfPath node i)

/-- The datum that a pointer leads to. The data section begins behind the tree
and a separator, and pointers in it count from there. -/
def readPointer (nodeCount recordSize : ℤ) (limit pointer : Nat) : Except ReadError Record := do
  let resolved := (pointer - nodeCount + searchTreeSize nodeCount recordSize).toNat
  if resolved ≥ reader.buffer.length then
    throw (.invalidDatabaseError "The MaxMind DB file's search tree is corrupt")
  let dataSection := (searchTreeSize nodeCount recordSize).toNat + dataSectionSeparatorSize
  let (data, _) ← decode reader.buffer dataSection limit resolved
  return data

/-- `_resolve_data_pointer`. A float may be too large, but is no place in the
buffer. -/
def resolveDataPointer (limit pointer : Nat) : Except ReadError Record :=
  match reader.metadata.nodeCount, reader.metadata.recordSize with
  | .int nodeCount, .int recordSize => reader.readPointer nodeCount recordSize limit pointer
  | .float (.finite negative magnitude), .int recordSize =>
    let nodeCount := signed negative magnitude
    if pointer - nodeCount + nodeCount * nodeByteSize recordSize ≥ reader.buffer.length then
      .error (.invalidDatabaseError "The MaxMind DB file's search tree is corrupt")
    else .error (.typeError "integer argument expected, got float")
  | _, _ => .error (.typeError "integer argument expected, got float")

/-- The record of an address and the length of its network's prefix. -/
def getWithPrefixLen (limit : Nat) (address : IpAddress) : ReaderM (Option Record × Nat) := do
  if address.version = .v6 ∧ reader.metadata.ipVersion.equals 4 then
    throw (.valueError (s!"Error looking up {address.text}. You attempted to look up " ++
      "an IPv6 address in an IPv4-only database."))
  let (pointer, prefixLen) ← reader.findAddressInTree address.packed
  if pointer ≠ 0 then
    return (some (← raise (reader.resolveDataPointer limit pointer)), prefixLen)
  return (none, prefixLen)

end Reader

end SimpleCdn.MaxMindDb
