import SimpleCdn.MaxMindDb.SearchTree
import SimpleCdn.MaxMindDb.Depth

namespace SimpleCdn.MaxMindDb

/-- A value equals at most one integer. -/
theorem Record.equals_unique {value : Record} {m n : ℤ} (first : value.equals m)
    (second : value.equals n) : m = n := by
  rw [equals, beq_iff_eq] at first second
  cases size : value.number? with
  | none => rw [size] at first; cases first
  | some number =>
    rw [size, Option.bind_some] at first second
    cases number with
    | int other =>
      have left := compare_eq_iff_eq.mp (Option.some.inj first)
      have right := compare_eq_iff_eq.mp (Option.some.inj second)
      rw [left, right]
    | float other =>
      cases other with
      | finite negative magnitude =>
        have left := compare_eq_iff_eq.mp (Option.some.inj first)
        have right := compare_eq_iff_eq.mp (Option.some.inj second)
        exact_mod_cast left.trans right.symm
      | infinite negative => cases negative <;> cases first
      | nan => cases first

namespace Reader
variable (reader : Reader)

section Walks

/-- One step in the search tree. -/
def step (node : Nat) (bit : Bool) : Except ReadError Nat := reader.readNode node bit.toNat

/-- The nodes of the search tree. Other numbers stand for what is found. -/
def isNode (node : Nat) : Bool := reader.compareNode node = some .lt

theorem isNode_of_lt {node : Nat} (below : reader.compareNode node = some .lt) : reader.isNode node = true :=
  decide_eq_true below

theorem isNode_of_not_lt {node : Nat} (above : reader.compareNode node ≠ some .lt) : reader.isNode node = false :=
  decide_eq_false above

/-- Every number of nodes but `nan` can be compared with. -/
theorem compareNode_ordered (ordered : reader.metadata.nodeCount ≠ .float .nan) (node : Nat) :
    reader.compareNode node ≠ none := by
  unfold compareNode
  cases count : reader.metadata.nodeCount with
  | int value => exact Option.some_ne_none _
  | float value =>
    cases value with
    | finite negative magnitude => exact Option.some_ne_none _
    | infinite negative => exact Option.some_ne_none _
    | nan => exact absurd count ordered

theorem addressBit_eq (packed : List UInt8) {i : Nat} (inside : i < packed.length * 8) :
    addressBit packed i = ((beNat packed).testBit (packed.length * 8 - 1 - i)).toNat := by
  have bit : ∀ x k : Nat, 1 &&& (x >>> k) = (x.testBit k).toNat := by
    intro x k
    rw [Nat.and_comm, Nat.and_one_is_mod, Nat.testBit, Nat.and_comm, Nat.and_one_is_mod]
    rcases Nat.mod_two_eq_zero_or_one (x >>> k) with even | odd
    · rw [even]; rfl
    · rw [odd]; rfl
  rw [testBit_beNat packed inside, addressBit, bit, Nat.shiftRight_eq_div_pow]

theorem findLoop_eq (packed : List UInt8) {left node i : Nat} (whole : i + left = packed.length * 8) :
    reader.findLoop packed left node i =
      walk reader.step reader.isNode ((bitsOf packed).drop i) node >>= fun found => .ok (found.1, i + found.2) := by
  induction left generalizing node i with
  | zero =>
    rw [List.drop_eq_nil_of_le (by rw [length_bitsOf]; omega)]
    rfl
  | succ left ih =>
    have inside : i < (bitsOf packed).length := by
      rw [length_bitsOf]
      omega
    have bit : addressBit packed i = ((bitsOf packed)[i]).toNat := by
      rw [addressBit_eq packed (by omega)]
      simp only [bitsOf, List.getElem_map, List.getElem_range]
    rw [List.drop_eq_getElem_cons inside]
    by_cases below : reader.compareNode node = some .lt
    · rw [findLoop, if_pos below, walk_of_inner (reader.isNode_of_lt below), bit, step]
      cases reader.readNode node ((bitsOf packed)[i]).toNat with
      | error raised => rfl
      | ok next =>
        rw [ok_bind, ok_bind, ih (by omega)]
        cases walk reader.step reader.isNode ((bitsOf packed).drop (i + 1)) next with
        | error raised => rfl
        | ok found =>
          simp only [ok_bind]
          rw [Nat.add_assoc, Nat.add_comm 1]
    · rw [findLoop, if_neg below, walk_of_not_inner (reader.isNode_of_not_lt below)]
      rfl

/-- Both loops go on at the same nodes, unless there are `nan` of them: then only
the loop of `_start_node` does not stop. -/
theorem startLoop_eq (ordered : reader.metadata.nodeCount ≠ .float .nan) (turns node : Nat) :
    reader.startLoop turns node =
      walk reader.step reader.isNode (List.replicate turns false) node >>= fun found => .ok found.1 := by
  induction turns generalizing node with
  | zero => rfl
  | succ turns ih =>
    rw [List.replicate_succ]
    cases compared : reader.compareNode node with
    | none => exact absurd compared (reader.compareNode_ordered ordered node)
    | some comparison =>
      cases comparison with
      | lt =>
        rw [walk_of_inner (reader.isNode_of_lt compared), step, Bool.toNat_false]
        simp only [startLoop, compared]
        cases reader.readNode node 0 with
        | error raised => rfl
        | ok next =>
          rw [ok_bind, ok_bind, ih]
          cases walk reader.step reader.isNode (List.replicate turns false) next <;> rfl
      | eq | gt =>
        rw [walk_of_not_inner (reader.isNode_of_not_lt (by simp [compared]))]
        simp only [startLoop, compared]
        rfl

end Walks

section Memory

/-- What a reader remembers is where its loop leads. -/
def Remembers (memory : Option Nat) : Prop := ∀ node, memory = some node → reader.startLoop 96 0 = .ok node

/-- The node where the addresses of a length begin. -/
def start (length : Nat) : Except ReadError Nat :=
  if !reader.metadata.ipVersion.equals 6 ∨ length = 128 then .ok 0 else reader.startLoop 96 0

theorem startNode_transparent (length : Nat) :
    Transparent reader.Remembers (reader.startNode length) (reader.start length) := by
  intro memory remembers
  unfold startNode start
  by_cases first : !reader.metadata.ipVersion.equals 6 ∨ length = 128
  · rw [if_pos first, if_pos first]
    exact ⟨memory, remembers, rfl⟩
  · rw [if_neg first, if_neg first]
    have compute : ∀ memory, reader.Remembers memory → ∃ t, reader.Remembers t ∧
        (do
          let node ← raise (reader.startLoop 96 0)
          set (some node)
          return node : ReaderM Nat).run memory = answer (reader.startLoop 96 0) t := by
      intro memory remembers
      cases run : reader.startLoop 96 0 with
      | error raised => exact ⟨memory, remembers, rfl⟩
      | ok node => exact ⟨some node, fun other same => by cases same; exact run, rfl⟩
    cases memory with
    | none => exact compute none remembers
    | some node =>
      cases node with
      | zero => exact compute (some 0) remembers
      | succ node =>
        refine ⟨some (node + 1), remembers, ?_⟩
        rw [remembers _ rfl]
        rfl

/-- Where an address leads, and how many of its bits are needed. -/
def pathEnd (packed : List UInt8) : Except ReadError (Nat × Nat) :=
  reader.start (packed.length * 8) >>= fun node => walk reader.step reader.isNode (bitsOf packed) node

theorem findAddressInTree_transparent (packed : List UInt8) : Transparent reader.Remembers
    (reader.findAddressInTree packed) (reader.pathEnd packed >>= fun found => reader.endOfPath found.1 found.2) := by
  have assoc : (reader.pathEnd packed >>= fun found => reader.endOfPath found.1 found.2) =
      (reader.start (packed.length * 8) >>= fun node =>
        reader.findLoop packed (packed.length * 8) node 0 >>= fun found => reader.endOfPath found.1 found.2) := by
    unfold pathEnd
    cases reader.start (packed.length * 8) with
    | error raised => rfl
    | ok node =>
      rw [ok_bind, ok_bind, findLoop_eq reader packed (Nat.zero_add _), List.drop_zero]
      cases walk reader.step reader.isNode (bitsOf packed) node with
      | error raised => rfl
      | ok found => simp only [ok_bind, Nat.zero_add]
  rw [assoc]
  exact (reader.startNode_transparent _).bind fun node _ =>
    (Transparent.unchanged fun _ => rfl).bind fun found _ => Transparent.unchanged fun _ => rfl

/-- The record behind the end of a path. -/
def recordAt (limit : Nat) (found : Nat × Nat) : Except ReadError (Option Record × Nat) :=
  reader.endOfPath found.1 found.2 >>= fun place =>
    if place.1 ≠ 0 then reader.resolveDataPointer limit place.1 >>= fun record => .ok (some record, place.2)
    else .ok (none, place.2)

/-- What a reader answers that has just been opened. -/
def lookup (limit : Nat) (address : IpAddress) : Except ReadError (Option Record × Nat) :=
  outcome ((reader.getWithPrefixLen limit address).run none)

theorem remembers_none : reader.Remembers none := nofun

/-- An address that the database can have is looked up in the tree. -/
theorem getWithPrefixLen_transparent_of (limit : Nat) {address : IpAddress}
    (possible : ¬ (address.version = .v6 ∧ reader.metadata.ipVersion.equals 4)) :
    Transparent reader.Remembers (reader.getWithPrefixLen limit address)
      (reader.pathEnd address.packed >>= reader.recordAt limit) := by
  have assoc : (reader.pathEnd address.packed >>= reader.recordAt limit) =
      ((reader.pathEnd address.packed >>= fun found => reader.endOfPath found.1 found.2) >>= fun place =>
        if place.1 ≠ 0 then reader.resolveDataPointer limit place.1 >>= fun record => .ok (some record, place.2)
        else .ok (none, place.2)) := by
    cases reader.pathEnd address.packed <;> rfl
  unfold getWithPrefixLen
  rw [if_neg possible, assoc]
  refine (reader.findAddressInTree_transparent address.packed).bind fun place _ => ?_
  by_cases found : place.1 ≠ 0
  · simp only [if_pos found]
    exact (Transparent.unchanged fun _ => rfl).bind fun record _ => Transparent.unchanged fun _ => rfl
  · simp only [if_neg found]
    exact Transparent.unchanged fun _ => rfl

theorem lookup_eq (limit : Nat) {address : IpAddress}
    (possible : ¬ (address.version = .v6 ∧ reader.metadata.ipVersion.equals 4)) :
    reader.lookup limit address = reader.pathEnd address.packed >>= reader.recordAt limit :=
  (reader.getWithPrefixLen_transparent_of limit possible).outcome_eq reader.remembers_none

/-- The answers of a reader do not depend on what it was asked before. -/
theorem getWithPrefixLen_transparent (limit : Nat) (address : IpAddress) :
    Transparent reader.Remembers (reader.getWithPrefixLen limit address) (reader.lookup limit address) := by
  by_cases possible : address.version = .v6 ∧ reader.metadata.ipVersion.equals 4
  · unfold lookup getWithPrefixLen
    rw [if_pos possible]
    exact Transparent.unchanged fun _ => rfl
  · rw [lookup_eq reader limit possible]
    exact reader.getWithPrefixLen_transparent_of limit possible

/-- However many lookups are made, with whatever outcomes, each one answers what
a reader answers that has just been opened. -/
theorem lookups_independent (limit : Nat) (addresses : List IpAddress) :
    outcomes (addresses.map (reader.getWithPrefixLen limit)) none = addresses.map (reader.lookup limit) :=
  Transparent.outcomes (reader.getWithPrefixLen_transparent limit) addresses reader.remembers_none

end Memory

section Networks

/-- Two addresses of one version whose first bits are the same. -/
structure SameNetwork (n : Nat) (address other : IpAddress) : Prop where
  version : other.version = address.version
  bits : beNat other.packed / 2 ^ (address.version.size * 8 - n) =
    beNat address.packed / 2 ^ (address.version.size * 8 - n)

variable {reader} {limit : Nat} {address other : IpAddress}

theorem recordAt_eq_ok {found : Nat × Nat} {result : Option Record × Nat}
    (run : reader.recordAt limit found = .ok result) :
    result.2 = found.2 := by
  obtain ⟨place, ended, run⟩ := bind_eq_ok.mp run
  have length : place.2 = found.2 := by
    unfold endOfPath at ended
    split at ended <;> cases ended <;> rfl
  split_ifs at run
  · obtain ⟨record, _, run⟩ := bind_eq_ok.mp run
    cases run
    exact length
  · cases run
    exact length

/-- The answer holds for the whole network: all addresses that begin with the
bits that were used have the same record. -/
theorem lookup_same_network {record : Option Record} {n : Nat}
    (found : reader.lookup limit address = .ok (record, n)) (near : SameNetwork n address other) :
    n ≤ address.version.size * 8 ∧ reader.lookup limit other = .ok (record, n) := by
  by_cases impossible : address.version = .v6 ∧ reader.metadata.ipVersion.equals 4
  · unfold lookup getWithPrefixLen at found
    rw [if_pos impossible] at found
    cases found
  · have possible : ¬ (other.version = .v6 ∧ reader.metadata.ipVersion.equals 4) := by rwa [near.version]
    rw [lookup_eq reader limit impossible] at found
    obtain ⟨⟨last, m⟩, path, found⟩ := bind_eq_ok.mp found
    have used : n = m := recordAt_eq_ok found
    subst used
    obtain ⟨node, first, path⟩ := bind_eq_ok.mp path
    have length : other.packed.length = address.packed.length := by
      rw [other.packed_length, address.packed_length, near.version]
    have short := walk_le path
    rw [length_bitsOf] at short
    have same : (bitsOf other.packed).take n = (bitsOf address.packed).take n := by
      rw [take_bitsOf_eq_iff length (by rwa [length]), length, address.packed_length]
      exact near.bits
    have again := walk_congr path (by rw [length_bitsOf, length_bitsOf, length]) same
    refine ⟨by rwa [address.packed_length] at short, ?_⟩
    rw [lookup_eq reader limit possible, pathEnd, length, first, ok_bind, again, ok_bind]
    exact found

/-- A tree of one node: no record for the addresses that begin with a zero, and
for the others a record behind the separator. -/
def oneNode (ipVersion : ℤ) : Reader where
  buffer := [0, 0, 1, 0, 0, 17] ++ List.replicate 16 0 ++ [0x01, 0x07]
  metadata := ⟨.int 1, .int 24, .int ipVersion, .string "One", .array [], .int 2, .int 0, .int 0, .map []⟩

theorem lookup_same_network_oneNode :
    1 ≤ 32 ∧ (oneNode 4).lookup 5 ⟨.v4, [203, 0, 113, 7], rfl, "203.0.113.7"⟩ = .ok (some (.bool true), 1) :=
  lookup_same_network (show (oneNode 4).lookup 5 ⟨.v4, [128, 0, 0, 1], rfl, "128.0.0.1"⟩ =
    .ok (some (.bool true), 1)
    from rfl) ⟨rfl, rfl⟩

theorem recordAt_shift {last i j : Nat} (shift : i - 96 = j) :
    reader.recordAt limit (last, j) = (reader.recordAt limit (last, i)).map fun found => (found.1, found.2 - 96) := by
  have behind : ∀ place : Nat,
      (if place ≠ 0 then reader.resolveDataPointer limit place >>= fun record => .ok (some record, j)
        else .ok (none, j) : Except ReadError (Option Record × Nat)) =
      (if place ≠ 0 then reader.resolveDataPointer limit place >>= fun record => .ok (some record, i)
        else .ok (none, i)).map fun found => (found.1, found.2 - 96) := by
    intro place
    by_cases pointer : place ≠ 0
    · rw [if_pos pointer, if_pos pointer]
      cases reader.resolveDataPointer limit place with
      | error raised => rfl
      | ok record => simp only [ok_bind, Except.map, shift]
    · rw [if_neg pointer, if_neg pointer]
      simp only [Except.map, shift]
  unfold recordAt endOfPath
  cases reader.compareNode last with
  | none => rfl
  | some comparison =>
    cases comparison with
    | lt => rfl
    | eq => exact behind 0
    | gt => exact behind last

/-- In a database for IPv6 an IPv4 address is the IPv6 address with the same
last bits. The prefix is counted without the 96 bits in front, and is empty
where these alone decide. -/
theorem lookup_ipv4_in_ipv6 (both : reader.metadata.ipVersion.equals 6)
    (ordered : reader.metadata.nodeCount ≠ .float .nan) (four : address.version = .v4)
    (six : other.version = .v6) (embedded : other.packed = List.replicate 12 0 ++ address.packed) :
    reader.lookup limit address = (reader.lookup limit other).map fun found => (found.1, found.2 - 96) := by
  have lengthFour : address.packed.length * 8 = 32 := by rw [address.packed_length, four]; rfl
  have lengthSix : other.packed.length * 8 = 128 := by rw [other.packed_length, six]; rfl
  have startFour : reader.start 32 =
      walk reader.step reader.isNode (List.replicate 96 false) 0 >>= fun found => .ok found.1 := by
    rw [start, if_neg (by simp [both]), startLoop_eq reader ordered]
  have startSix : reader.start 128 = .ok 0 := by rw [start, if_pos (.inr rfl)]
  have possible : ¬ (other.version = .v6 ∧ reader.metadata.ipVersion.equals 4) :=
    fun impossible => absurd (Record.equals_unique both impossible.2) (by decide)
  rw [lookup_eq reader limit (by simp [four]), lookup_eq reader limit possible, pathEnd, pathEnd, lengthFour,
    lengthSix, startFour, startSix, ok_bind, embedded, bitsOf_zeros, walk_append]
  cases zeros : walk reader.step reader.isNode (List.replicate (12 * 8) false) 0 with
  | error raised => rfl
  | ok middle =>
    obtain ⟨node, i⟩ := middle
    have short := walk_le zeros
    rw [List.length_replicate] at short
    by_cases inner : reader.isNode node = true
    · have all : i = 96 := by
        by_contra early
        have stopped := walk_stopped zeros (by rw [List.length_replicate]; omega)
        rw [inner] at stopped
        cases stopped
      simp only [ok_bind, inner, if_true]
      cases walk reader.step reader.isNode (bitsOf address.packed) node with
      | error raised => rfl
      | ok found => exact recordAt_shift (by omega)
    · have stopped := Bool.eq_false_of_not_eq_true inner
      simp only [ok_bind, stopped, walk_of_not_inner, Bool.false_eq_true, if_false]
      exact recordAt_shift (by omega)

/-- An IPv4 address and the IPv6 address with 96 zeros in front of its bits. -/
structure Embeds (address other : IpAddress) : Prop where
  four : address.version = .v4
  six : other.version = .v6
  packed : other.packed = List.replicate 12 0 ++ address.packed

/-- In a database for IPv6 any lookups of IPv4 addresses, although they begin at
a node that is remembered, have the outcomes that those of the IPv6 addresses
have. Only the prefixes are shorter. -/
theorem ipv4_lookups_embedded (both : reader.metadata.ipVersion.equals 6)
    (ordered : reader.metadata.nodeCount ≠ .float .nan) {addresses others : List IpAddress}
    (embeds : List.Forall₂ Embeds addresses others) :
    outcomes (addresses.map (reader.getWithPrefixLen limit)) none =
      (outcomes (others.map (reader.getWithPrefixLen limit)) none).map
        (Except.map fun found => (found.1, found.2 - 96)) := by
  rw [Transparent.outcomes (reader.getWithPrefixLen_transparent limit) addresses reader.remembers_none,
    Transparent.outcomes (reader.getWithPrefixLen_transparent limit) others reader.remembers_none, List.map_map]
  induction embeds with
  | nil => rfl
  | cons first _ ih =>
    rw [List.map_cons, List.map_cons, ih, lookup_ipv4_in_ipv6 both ordered first.four first.six first.packed]
    rfl

theorem ipv4_lookups_embedded_oneNode :
    outcomes ([⟨.v4, [203, 0, 113, 7], rfl, "203.0.113.7"⟩, ⟨.v4, [0, 0, 0, 1], rfl, "0.0.0.1"⟩].map
        ((oneNode 6).getWithPrefixLen 5)) none =
      (outcomes ([⟨.v6, List.replicate 12 0 ++ [203, 0, 113, 7], rfl, "::203.0.113.7"⟩,
        ⟨.v6, List.replicate 12 0 ++ [0, 0, 0, 1], rfl, "::1"⟩].map ((oneNode 6).getWithPrefixLen 5)) none).map
          (Except.map fun found => (found.1, found.2 - 96)) :=
  ipv4_lookups_embedded rfl (by decide) (.cons ⟨rfl, rfl, rfl⟩ (.cons ⟨rfl, rfl, rfl⟩ .nil))

end Networks

end Reader

end SimpleCdn.MaxMindDb
