import SimpleCdn.MaxMindDb.Lookups
import SimpleCdn.MaxMindDb.Encoding

namespace SimpleCdn.MaxMindDb

/-- The two records of a node, of 24, 28 or 32 bits each. -/
def nodeBytes (recordSize left right : Nat) : List UInt8 :=
  if recordSize = 24 then beBytes 3 left ++ beBytes 3 right
  else if recordSize = 28 then
    beBytes 3 (left % 256 ^ 3) ++ UInt8.ofNat (left / 256 ^ 3 * 16 + right / 256 ^ 3) :: beBytes 3 (right % 256 ^ 3)
  else beBytes 4 left ++ beBytes 4 right

/-- The sizes a record may have. -/
def IsRecordSize (recordSize : Nat) : Prop := recordSize = 24 ∨ recordSize = 28 ∨ recordSize = 32

theorem length_nodeBytes {recordSize : Nat} (size : IsRecordSize recordSize) (left right : Nat) :
    (nodeBytes recordSize left right).length = recordSize / 4 := by
  rcases size with rfl | rfl | rfl <;> simp [nodeBytes]

theorem high_half (byte : UInt8) : ((0xF0 &&& byte) >>> 4).toNat = byte.toNat / 16 := by
  have all : ∀ i : Fin 256, (0xF0 &&& i.val) >>> 4 = i.val / 16 := by decide +kernel
  exact all ⟨byte.toNat, byte.toNat_lt⟩

theorem low_half (byte : UInt8) : (0x0F &&& byte).toNat = byte.toNat % 16 := by
  have all : ∀ i : Fin 256, 0x0F &&& i.val = i.val % 16 := by decide +kernel
  exact all ⟨byte.toNat, byte.toNat_lt⟩

theorem unpack_byte_cons {byte : UInt8} {width low : Nat} (below : low < 256 ^ width) :
    unpack (width + 1) (byte :: beBytes width low) = .ok (byte.toNat * 256 ^ width + low) := by
  rw [unpack, if_pos (by simp), beNat_cons, length_beBytes, beNat_beBytes below]

theorem toNat_nodeByteSize (size : Nat) : (nodeByteSize size).toNat = size / 4 := by
  unfold nodeByteSize
  omega

theorem searchTreeSize_cast (count size : Nat) : searchTreeSize count size = (count * (size / 4) : Nat) := by
  unfold searchTreeSize nodeByteSize
  push_cast
  rfl

namespace Reader

/-- The metadata say how many nodes there are and how many bits a record has. -/
structure HasSizes (reader : Reader) (count size : Nat) : Prop where
  nodeCount : reader.metadata.nodeCount = .int count
  recordSize : reader.metadata.recordSize = .int size
  valid : IsRecordSize size

section Sizes
variable {reader : Reader} {count size : Nat}

theorem HasSizes.compareNode (sizes : reader.HasSizes count size) (node : Nat) :
    reader.compareNode node = some (compare node count) := by
  rw [Reader.compareNode, sizes.nodeCount, PyNumber.order]
  rcases lt_trichotomy node count with below | same | above
  · rw [compare_lt_iff_lt.mpr below, compare_lt_iff_lt.mpr (Int.ofNat_lt.mpr below)]
  · rw [compare_eq_iff_eq.mpr same, compare_eq_iff_eq.mpr (congrArg Nat.cast same)]
  · rw [compare_gt_iff_gt.mpr above, compare_gt_iff_gt.mpr (Int.ofNat_lt.mpr above)]

/-- Of two numbers of whole bytes, each is found by its place. -/
theorem slice_pair {buffer : List UInt8} {place width left right : Nat}
    (holds : Holds buffer place (beBytes width left ++ beBytes width right)) (bit : Bool) :
    slice buffer (place + bit.toNat * width) (place + bit.toNat * width + width) =
      beBytes width (if bit then right else left) := by
  obtain ⟨first, second⟩ := holds_append.mp holds
  rw [length_beBytes] at second
  cases bit with
  | false =>
    rw [Bool.toNat_false, Nat.zero_mul, Nat.add_zero]
    exact first.slice_of_length (length_beBytes width left)
  | true =>
    rw [Bool.toNat_true, Nat.one_mul]
    exact second.slice_of_length (length_beBytes width right)

theorem HasSizes.step_eq (sizes : reader.HasSizes count size) (node : Nat) (bit : Bool) :
    reader.step node bit = reader.readRecord size node bit.toNat := by
  unfold step readNode
  rw [sizes.recordSize]

/-- Where the middle byte is shared, either number is read with its half of it. -/
theorem HasSizes.step_shared (sizes : reader.HasSizes count 28) {left right node : Nat}
    (small : left < 2 ^ 28) (small' : right < 2 ^ 28)
    (holds : Holds reader.buffer (node * (28 / 4)) (beBytes 3 (left % 256 ^ 3) ++
      UInt8.ofNat (left / 256 ^ 3 * 16 + right / 256 ^ 3) :: beBytes 3 (right % 256 ^ 3))) (bit : Bool) :
    reader.step node bit = .ok (if bit then right else left) := by
  have middle : (UInt8.ofNat (left / 256 ^ 3 * 16 + right / 256 ^ 3)).toNat =
      left / 256 ^ 3 * 16 + right / 256 ^ 3 := by
    rw [UInt8.toNat_ofNat']
    omega
  simp only [sizes.step_eq, readRecord, toNat_nodeByteSize]
  simp only [Nat.cast_ofNat, Int.reduceEq, if_false, if_true]
  cases bit with
  | false =>
    rw [List.append_cons] at holds
    have front := (holds_append.mp holds).1.slice_of_length (show _ = 4 by simp)
    rw [Bool.toNat_false, Nat.mul_zero, Nat.add_zero, front]
    simp only [ne_eq, not_true_eq_false, if_false, List.getLast?_concat, List.dropLast_concat]
    rw [unpack_byte_cons (by omega), high_half, middle]
    exact congrArg Except.ok (show _ = left by omega)
  | true =>
    have back := (holds_append.mp holds).2.slice_of_length (show _ = 4 by simp)
    rw [length_beBytes] at back
    rw [Bool.toNat_true, Nat.mul_one, back]
    simp only [ne_eq, one_ne_zero, not_false_eq_true, if_true]
    rw [unpack_byte_cons (by omega), low_half, middle]
    exact congrArg Except.ok (show _ = right by omega)

/-- A node is read as it is written. -/
theorem HasSizes.step_nodeBytes (sizes : reader.HasSizes count size) {left right node : Nat}
    (small : left < 2 ^ size) (small' : right < 2 ^ size)
    (holds : Holds reader.buffer (node * (size / 4)) (nodeBytes size left right)) (bit : Bool) :
    reader.step node bit = .ok (if bit then right else left) := by
  have chosen : (if bit then right else left) < 2 ^ size := by
    cases bit <;> assumption
  rcases sizes.valid with rfl | rfl | rfl
  · rw [nodeBytes, if_pos rfl] at holds
    simp only [sizes.step_eq, readRecord, toNat_nodeByteSize]
    simp only [Nat.cast_ofNat, if_true]
    rw [slice_pair holds bit]
    exact unpack_zero (unpack_beBytes chosen)
  · rw [nodeBytes, if_neg (by decide), if_pos rfl] at holds
    exact sizes.step_shared small small' holds bit
  · rw [nodeBytes, if_neg (by decide), if_neg (by decide)] at holds
    simp only [sizes.step_eq, readRecord, toNat_nodeByteSize]
    simp only [Nat.cast_ofNat, Int.reduceEq, if_false, if_true]
    rw [slice_pair holds bit]
    exact unpack_beBytes chosen

theorem HasSizes.resolveDataPointer (sizes : reader.HasSizes count size) (limit : Nat) {pointer : Nat}
    (behind : count ≤ pointer) : reader.resolveDataPointer limit pointer =
      if pointer - count + count * (size / 4) ≥ reader.buffer.length then
        .error (.invalidDatabaseError "The MaxMind DB file's search tree is corrupt")
      else (decode reader.buffer (count * (size / 4) + dataSectionSeparatorSize) limit
        (pointer - count + count * (size / 4))).map Prod.fst := by
  have resolved : ((pointer : ℤ) - count + (count * (size / 4) : Nat)).toNat =
      pointer - count + count * (size / 4) := by omega
  simp only [Reader.resolveDataPointer, sizes.nodeCount, sizes.recordSize, readPointer, searchTreeSize_cast, resolved,
    Int.toNat_natCast]
  by_cases far : pointer - count + count * (size / 4) ≥ reader.buffer.length
  · rw [if_pos far, if_pos far]
    rfl
  · rw [if_neg far, if_neg far]
    cases decode reader.buffer (count * (size / 4) + dataSectionSeparatorSize) limit _ <;> rfl

end Sizes

section Stores
variable {reader : Reader} {limit count size : Nat}

/-- A number behind those of the nodes leads to a datum in the data section. -/
def Points (reader : Reader) (limit count size node : Nat) (datum : Datum) : Prop :=
  count < node ∧ ∃ depth ≤ limit, ∃ next, Written reader.buffer
    (count * (size / 4) + dataSectionSeparatorSize) depth
    (node - count + count * (size / 4)) [datum] next

/-- The search tree below a node is that of a trie. -/
def Stores (reader : Reader) (limit count size : Nat) : Nat → Trie Datum → Prop :=
  Unfolds reader.step reader.isNode count (reader.Points limit count size)

theorem decode_inside {buffer : List UInt8} {pointerBase depth offset : Nat} {result : Record × Nat}
    (run : decode buffer pointerBase depth offset = .ok result) : offset < buffer.length := by
  by_contra outside
  cases depth with
  | zero => cases run
  | succ depth =>
    rw [decode, decodeStep_outside buffer pointerBase (Nat.not_lt.mp outside)] at run
    cases run

theorem Points.resolved (sizes : reader.HasSizes count size) {node : Nat} {datum : Datum}
    (points : reader.Points limit count size node datum) :
    reader.resolveDataPointer limit node = .ok datum.value := by
  obtain ⟨behind, depth, enough, next, written⟩ := points
  have read := decode_written written enough
  have inside := decode_inside read
  rw [sizes.resolveDataPointer limit behind.le, if_neg (Nat.not_le.mpr inside), read]
  rfl

theorem recordAt_reached (sizes : reader.HasSizes count size) {last n : Nat} {found : Option Datum}
    (reached : Reached count (reader.Points limit count size) last found) :
    reader.recordAt limit (last, n) = .ok (found.map Datum.value, n) := by
  unfold recordAt endOfPath
  cases found with
  | none =>
    have empty : last = count := reached
    simp only [sizes.compareNode, empty, compare_eq_iff_eq.mpr rfl]
    rfl
  | some datum =>
    have points : reader.Points limit count size last datum := reached
    have behind := points.1
    simp only [sizes.compareNode, compare_gt_iff_gt.mpr behind, ok_bind]
    rw [if_pos (by omega), points.resolved sizes]
    rfl

/-- The reader finds what is looked up in the trie: the datum of the network
that contains the address. -/
theorem lookup_stored (sizes : reader.HasSizes count size) {address : IpAddress} {node n : Nat} {t : Trie Datum}
    {found : Option Datum} (possible : ¬ (address.version = .v6 ∧ reader.metadata.ipVersion.equals 4))
    (begins : reader.start (address.packed.length * 8) = .ok node) (stores : reader.Stores limit count size node t)
    (looked : t.lookup (bitsOf address.packed) = some (found, n)) :
    reader.lookup limit address = .ok (found.map Datum.value, n) := by
  obtain ⟨last, path, _, reached⟩ := stores.walk looked
  rw [lookup_eq reader limit possible, pathEnd, begins, ok_bind, path, ok_bind]
  exact recordAt_reached sizes reached

theorem HasSizes.isNode_of_lt (sizes : reader.HasSizes count size) {node : Nat} (below : node < count) :
    reader.isNode node = true :=
  Reader.isNode_of_lt reader ((sizes.compareNode node).trans (congrArg some (compare_lt_iff_lt.mpr below)))

theorem HasSizes.isNode_of_le (sizes : reader.HasSizes count size) {node : Nat} (above : count ≤ node) :
    reader.isNode node = false := by
  refine isNode_of_not_lt reader fun less => ?_
  have below := compare_lt_iff_lt.mp (Option.some.inj ((sizes.compareNode node).symm.trans less))
  omega

end Stores

end Reader

section Layout

/-- The data of a trie, from left to right. -/
def dataBytes (t : Trie Datum) : List UInt8 := t.values.flatMap Datum.encode

/-- The number by which a node refers to a trie: that of its first node, that of
no record, or a place in the data section. -/
def reference (nodeCount : Nat) : Trie Datum → Nat → Nat → Nat
  | .empty, _, _ => nodeCount
  | .leaf _, _, dataOffset => nodeCount + dataSectionSeparatorSize + dataOffset
  | .node _ _, node, _ => node

/-- The nodes of a trie, each before those below it, from a number on. Its data
begin at an offset of the data section. -/
def layout (nodeCount : Nat) : Trie Datum → Nat → Nat → List (Nat × Nat)
  | .node zero one, node, dataOffset =>
    let nodeOne := node + 1 + zero.nodes
    let offsetOne := dataOffset + (dataBytes zero).length
    (reference nodeCount zero (node + 1) dataOffset, reference nodeCount one nodeOne offsetOne) ::
      (layout nodeCount zero (node + 1) dataOffset ++ layout nodeCount one nodeOne offsetOne)
  | _, _, _ => []

def nodesBytes (recordSize : Nat) (nodes : List (Nat × Nat)) : List UInt8 :=
  nodes.flatMap fun node => nodeBytes recordSize node.1 node.2

theorem length_layout (nodeCount : Nat) (t : Trie Datum) (node dataOffset : Nat) :
    (layout nodeCount t node dataOffset).length = t.nodes := by
  induction t generalizing node dataOffset with
  | empty => rfl
  | leaf datum => rfl
  | node zero one ihZero ihOne =>
    simp only [layout, List.length_cons, List.length_append, ihZero, ihOne, Trie.nodes]

theorem length_nodesBytes {recordSize : Nat} (size : IsRecordSize recordSize) (nodes : List (Nat × Nat)) :
    (nodesBytes recordSize nodes).length = nodes.length * (recordSize / 4) := by
  induction nodes with
  | nil => simp [nodesBytes]
  | cons node rest ih =>
    rw [nodesBytes, List.flatMap_cons, List.length_append, length_nodeBytes size, List.length_cons, Nat.add_mul,
      Nat.one_mul, Nat.add_comm]
    exact congrArg (· + _) ih

/-- The two records of each node are read as they are written, for every size
that they may have. -/
theorem nodes_read_back {reader : Reader} {count size : Nat} (sizes : reader.HasSizes count size)
    {nodes : List (Nat × Nat)} (small : ∀ node ∈ nodes, node.1 < 2 ^ size ∧ node.2 < 2 ^ size)
    (tree : Holds reader.buffer 0 (nodesBytes size nodes)) (i : Nat) (inside : i < nodes.length) :
    reader.readNode i 0 = .ok nodes[i].1 ∧ reader.readNode i 1 = .ok nodes[i].2 := by
  have parts : nodesBytes size nodes = nodesBytes size (nodes.take i) ++
      (nodeBytes size nodes[i].1 nodes[i].2 ++ nodesBytes size (nodes.drop (i + 1))) := by
    conv_lhs => rw [← List.take_append_drop i nodes, List.drop_eq_getElem_cons inside]
    rw [nodesBytes, List.flatMap_append, List.flatMap_cons]
    rfl
  rw [parts] at tree
  obtain ⟨node, _⟩ := holds_append.mp (holds_append.mp tree).2
  rw [Nat.zero_add, length_nodesBytes sizes.valid, List.length_take, Nat.min_eq_left inside.le] at node
  obtain ⟨left, right⟩ := small nodes[i] (List.getElem_mem inside)
  exact ⟨sizes.step_nodeBytes left right node false, sizes.step_nodeBytes left right node true⟩

def twoNodes : Reader where
  buffer := nodesBytes 28 [(0x1234567, 0x89ABCDE), (5, 0xFFFFFFF)]
  metadata := ⟨.int 2, .int 28, .int 4, .string "Two", .array [], .int 2, .int 0, .int 0, .map []⟩

theorem nodes_read_back_twoNodes : twoNodes.readNode 1 0 = .ok 5 ∧ twoNodes.readNode 1 1 = .ok 0xFFFFFFF := by
  have sizes : twoNodes.HasSizes 2 28 := ⟨rfl, rfl, .inr (.inl rfl)⟩
  have small : ∀ node ∈ [(0x1234567, 0x89ABCDE), (5, 0xFFFFFFF)], node.1 < 2 ^ 28 ∧ node.2 < 2 ^ 28 := by decide
  exact nodes_read_back sizes small List.prefix_rfl 1 (by decide)

theorem nodesBytes_node (recordSize nodeCount node dataOffset : Nat) (zero one : Trie Datum) :
    nodesBytes recordSize (layout nodeCount (.node zero one) node dataOffset) =
      nodeBytes recordSize (reference nodeCount zero (node + 1) dataOffset)
          (reference nodeCount one (node + 1 + zero.nodes) (dataOffset + (dataBytes zero).length)) ++
        (nodesBytes recordSize (layout nodeCount zero (node + 1) dataOffset) ++
          nodesBytes recordSize
            (layout nodeCount one (node + 1 + zero.nodes) (dataOffset + (dataBytes zero).length))) := by
  rw [layout, nodesBytes, List.flatMap_cons, List.flatMap_append]
  rfl

theorem length_header_pos (typeNum size : Nat) : 0 < (header typeNum size).length := by
  unfold header controlBytes
  split_ifs <;> simp

theorem length_encode_pos (datum : Datum) : 0 < datum.encode.length := by
  have front : ∀ typeNum size rest, 0 < (header typeNum size ++ rest).length := by
    intro typeNum size rest
    rw [List.length_append]
    exact Nat.add_pos_left (length_header_pos typeNum size) _
  cases datum with
  | boolean value => exact length_header_pos 14 _
  | _ => exact front _ _ _

/-- All data of a trie can be written and decoded. -/
def Fit (limit : Nat) (t : Trie Datum) : Prop := ∀ datum ∈ t.values, datum.fits ∧ datum.height ≤ limit

section Stored
variable {reader : Reader} {limit count size : Nat} (sizes : reader.HasSizes count size)
include sizes

/-- A datum is stored behind the separator, where its place in the data section
says. -/
theorem stores_leaf {datum : Datum} (fits : datum.fits) (low : datum.height ≤ limit) {dataOffset : Nat}
    (data : Holds reader.buffer (count * (size / 4) + dataSectionSeparatorSize + dataOffset) datum.encode) :
    reader.Stores limit count size (count + dataSectionSeparatorSize + dataOffset) (.leaf datum) := by
  have separated : 0 < dataSectionSeparatorSize := by decide
  have behind : count < count + dataSectionSeparatorSize + dataOffset := by omega
  have place : count + dataSectionSeparatorSize + dataOffset - count + count * (size / 4) =
      count * (size / 4) + dataSectionSeparatorSize + dataOffset := by omega
  have written := written_encode fits (count * (size / 4) + dataSectionSeparatorSize) data
  rw [← place] at written
  exact .leaf (sizes.isNode_of_le behind.le) ⟨behind, datum.height, low, _, written⟩

omit sizes in
/-- The nodes of a trie are its root, those of its first branch and those of its
second one. -/
theorem holds_layout_node (valid : IsRecordSize size) {zero one : Trie Datum} {node dataOffset : Nat}
    (tree : Holds reader.buffer (node * (size / 4))
      (nodesBytes size (layout count (.node zero one) node dataOffset))) :
    Holds reader.buffer (node * (size / 4))
        (nodeBytes size (reference count zero (node + 1) dataOffset)
          (reference count one (node + 1 + zero.nodes) (dataOffset + (dataBytes zero).length))) ∧
      Holds reader.buffer ((node + 1) * (size / 4)) (nodesBytes size (layout count zero (node + 1) dataOffset)) ∧
      Holds reader.buffer ((node + 1 + zero.nodes) * (size / 4))
        (nodesBytes size
          (layout count one (node + 1 + zero.nodes) (dataOffset + (dataBytes zero).length))) := by
  rw [nodesBytes_node] at tree
  obtain ⟨first, rest⟩ := holds_append.mp tree
  obtain ⟨treeZero, treeOne⟩ := holds_append.mp rest
  have placeZero : node * (size / 4) + size / 4 = (node + 1) * (size / 4) := (Nat.succ_mul _ _).symm
  have placeOne : (node + 1) * (size / 4) + zero.nodes * (size / 4) = (node + 1 + zero.nodes) * (size / 4) :=
    (Nat.add_mul _ _ _).symm
  rw [length_nodeBytes valid, placeZero] at treeZero treeOne
  rw [length_nodesBytes valid, length_layout, placeOne] at treeOne
  exact ⟨first, treeZero, treeOne⟩

/-- Each part of a trie is stored where the layout has put it. -/
theorem stores_layout {t : Trie Datum} (fit : Fit limit t) {node dataOffset : Nat} (inside : node + t.nodes ≤ count)
    (small : count + dataSectionSeparatorSize + dataOffset + (dataBytes t).length ≤ 2 ^ size)
    (tree : Holds reader.buffer (node * (size / 4)) (nodesBytes size (layout count t node dataOffset)))
    (data : Holds reader.buffer (count * (size / 4) + dataSectionSeparatorSize + dataOffset) (dataBytes t)) :
    reference count t node dataOffset < 2 ^ size ∧
      reader.Stores limit count size (reference count t node dataOffset) t := by
  have separated : 0 < dataSectionSeparatorSize := by decide
  induction t generalizing node dataOffset with
  | empty => exact ⟨by simp only [reference]; omega, .empty (sizes.isNode_of_le le_rfl)⟩
  | leaf datum =>
    have bytes : dataBytes (.leaf datum) = datum.encode := List.append_nil _
    have nonempty := length_encode_pos datum
    obtain ⟨fits, low⟩ := fit datum (List.mem_singleton_self datum)
    rw [bytes] at small data
    exact ⟨by simp only [reference]; omega, stores_leaf sizes fits low data⟩
  | node zero one ihZero ihOne =>
    have bytes : dataBytes (.node zero one) = dataBytes zero ++ dataBytes one := List.flatMap_append
    rw [bytes] at data
    rw [bytes, List.length_append] at small
    rw [Trie.nodes] at inside
    have here : node < count := by omega
    obtain ⟨first, treeZero, treeOne⟩ := holds_layout_node sizes.valid tree
    obtain ⟨dataZero, dataOne⟩ := holds_append.mp data
    rw [Nat.add_assoc] at dataOne
    obtain ⟨smallZero, storesZero⟩ := ihZero (fun datum member => fit datum (List.mem_append_left _ member))
      (by omega) (by omega) treeZero dataZero
    obtain ⟨smallOne, storesOne⟩ := ihOne (fun datum member => fit datum (List.mem_append_right _ member))
      (by omega) (by omega) treeOne dataOne
    have step := sizes.step_nodeBytes smallZero smallOne first
    refine ⟨by simp only [reference]; omega, ?_⟩
    exact .node (sizes.isNode_of_lt here) (step false) (step true) storesZero storesOne

end Stored

end Layout

namespace Reader
variable {reader : Reader} {limit count size : Nat}

/-- However the search tree of a file is laid out, and whatever it shares, just
one network of its trie contains an address, and the reader gives the datum of
that one. -/
theorem stored_networks (sizes : reader.HasSizes count size) {address : IpAddress} {t : Trie Datum}
    (own : address.version = .v4 ∧ !reader.metadata.ipVersion.equals 6 ∨
      address.version = .v6 ∧ reader.metadata.ipVersion.equals 6)
    (stores : reader.Stores limit count size 0 t) (low : t.height ≤ address.version.size * 8) :
    (∃! network, network ∈ t.networks ∧ network.1 <+: bitsOf address.packed) ∧
      ∀ network ∈ t.networks, network.1 <+: bitsOf address.packed →
        reader.lookup limit address = .ok (network.2.map Datum.value, network.1.length) := by
  have possible : ¬ (address.version = .v6 ∧ reader.metadata.ipVersion.equals 4) := by
    rintro ⟨six, four⟩
    rcases own with ⟨other, _⟩ | ⟨_, other⟩
    · rw [six] at other
      cases other
    · exact absurd (Record.equals_unique four other) (by decide)
  have begins : reader.start (address.packed.length * 8) = .ok 0 := by
    rw [start, if_pos]
    rcases own with ⟨_, other⟩ | ⟨six, _⟩
    · exact .inl other
    · rw [address.packed_length, six]
      exact .inr rfl
  have long : t.height ≤ (bitsOf address.packed).length := by rwa [length_bitsOf, address.packed_length]
  obtain ⟨found, n, looked⟩ := Trie.lookup_of_height_le long
  obtain ⟨_, member⟩ := Trie.lookup_eq_some_iff.mp looked
  refine ⟨⟨_, ⟨member, List.take_prefix _ _⟩, ?_⟩, fun network inNetworks inside => ?_⟩
  · rintro ⟨path, found'⟩ ⟨other, inside⟩
    obtain ⟨same, data⟩ := Trie.networks_disjoint other member inside (List.take_prefix _ _)
    rw [same, data]
  · exact lookup_stored sizes possible begins stores (Trie.lookup_of_prefix inNetworks inside)

theorem stored_networks_oneNode :
    (oneNode 4).lookup 5 ⟨.v4, [203, 0, 113, 7], rfl, "203.0.113.7"⟩ = .ok (some (.bool true), 1) := by
  let t : Trie Datum := .node .empty (.leaf (.boolean true))
  have sizes : (oneNode 4).HasSizes 1 24 := ⟨rfl, rfl, .inl rfl⟩
  have fit : Fit 5 t := by
    intro datum member
    obtain rfl : datum = .boolean true := List.mem_singleton.mp member
    decide
  have tree : Holds (oneNode 4).buffer 0 (nodesBytes 24 (layout 1 t 0 0)) := by decide
  have data : Holds (oneNode 4).buffer 22 (dataBytes t) := by decide
  have stored : _ ∧ (oneNode 4).Stores 5 1 24 (reference 1 t 0 0) t :=
    stores_layout sizes fit le_rfl (by decide) tree data
  exact (stored_networks sizes (.inl ⟨rfl, by decide⟩) stored.2 (by decide)).2 ([true], some (.boolean true))
    (List.mem_cons_of_mem _ (List.mem_cons_self ..)) (by decide)

end Reader

end SimpleCdn.MaxMindDb
