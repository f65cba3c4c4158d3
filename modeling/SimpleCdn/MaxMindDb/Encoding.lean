import SimpleCdn.MaxMindDb.Format

namespace SimpleCdn.MaxMindDb

mutual

/-- The plainest way to write a datum: without pointers, numbers with all their
bytes. -/
def Datum.encode : Datum → List UInt8
  | .utf8String text => header 2 (utf8 text).length ++ utf8 text
  | .double bits => header 3 8 ++ beBytes 8 bits.toNat
  | .bytes content => header 4 content.length ++ content
  | .uint type value => header type.typeNum type.width ++ beBytes type.width value
  | .int32 value => header 8 4 ++ beBytes 4 value.toNat
  | .boolean value => header 14 value.toNat
  | .float bits => header 15 4 ++ beBytes 4 bits.toNat
  | .array items => header 11 items.length ++ encodeItems items
  | .map entries => header 7 entries.length ++ encodeEntries entries

def encodeItems : List Datum → List UInt8
  | [] => []
  | datum :: rest => datum.encode ++ encodeItems rest

def encodeEntries : List (String × Datum) → List UInt8
  | [] => []
  | (key, datum) :: rest => (header 2 (utf8 key).length ++ utf8 key) ++ (datum.encode ++ encodeEntries rest)

end

mutual

/-- How deep the parts of a datum are nested. -/
def Datum.height : Datum → Nat
  | .array items => itemsHeight items + 1
  | .map entries => entriesHeight entries + 1
  | _ => 1

def itemsHeight : List Datum → Nat
  | [] => 0
  | datum :: rest => max datum.height (itemsHeight rest)

def entriesHeight : List (String × Datum) → Nat
  | [] => 0
  | (_, datum) :: rest => max 1 (max datum.height (entriesHeight rest))

end

mutual

/-- All sizes in a datum can be written. -/
def Datum.fits : Datum → Bool
  | .utf8String text => (utf8 text).length < sizeLimit
  | .bytes content => content.length < sizeLimit
  | .array items => items.length < sizeLimit && itemsFit items
  | .map entries => entries.length < sizeLimit && entriesFit entries
  | _ => true

def itemsFit : List Datum → Bool
  | [] => true
  | datum :: rest => datum.fits && itemsFit rest

def entriesFit : List (String × Datum) → Bool
  | [] => true
  | (key, datum) :: rest => (utf8 key).length < sizeLimit && (datum.fits && entriesFit rest)

end

section Flattened
variable (entries : List (String × Datum))

theorem encodeEntries_eq : encodeEntries entries = encodeItems (flattened entries) := by
  induction entries with
  | nil => rfl
  | cons entry rest ih => rw [encodeEntries, ih]; rfl

theorem entriesHeight_eq : entriesHeight entries = itemsHeight (flattened entries) := by
  induction entries with
  | nil => rfl
  | cons entry rest ih => rw [entriesHeight, ih]; rfl

theorem entriesFit_eq : entriesFit entries = itemsFit (flattened entries) := by
  induction entries with
  | nil => rfl
  | cons entry rest ih => rw [entriesFit, ih]; rfl

end Flattened

/-- A datum is written where a buffer holds its bytes, whatever comes behind. -/
def Encodes (datum : Datum) : Prop :=
  datum.fits → ∀ {buffer : List UInt8} {pointerBase depth offset next : Nat} {rest : List Datum},
    datum.height ≤ depth → Holds buffer offset datum.encode →
    Written buffer pointerBase depth (offset + datum.encode.length) rest next →
    Written buffer pointerBase depth offset (datum :: rest) next

theorem encodes_scalar {datum : Datum} {typeNum size : Nat} {content : List UInt8}
    (payload : Payload datum typeNum size content) (bytes : datum.encode = header typeNum size ++ content)
    (height : 1 ≤ datum.height) (small : datum.fits → size < sizeLimit) : Encodes datum := by
  intro fits buffer pointerBase depth offset next rest deep holds behind
  rw [bytes] at holds behind
  cases depth with
  | zero => omega
  | succ depth => exact .scalar payload (small fits) holds behind

theorem encodes_key (key : String) : Encodes (.utf8String key) :=
  encodes_scalar (.utf8String key) rfl le_rfl fun fits => by simpa [Datum.fits] using fits

theorem written_items {items : List Datum} (each : ∀ datum ∈ items, Encodes datum) (fit : itemsFit items)
    {buffer : List UInt8} {depth offset : Nat} (pointerBase : Nat) (deep : itemsHeight items ≤ depth)
    (holds : Holds buffer offset (encodeItems items)) :
    Written buffer pointerBase depth offset items (offset + (encodeItems items).length) := by
  induction items generalizing offset with
  | nil => exact .done depth offset
  | cons datum rest ih =>
    obtain ⟨first, others⟩ := List.forall_mem_cons.mp each
    obtain ⟨fits, fitRest⟩ := Bool.and_eq_true_iff.mp fit
    obtain ⟨head, tail⟩ := holds_append.mp holds
    have deep := max_le_iff.mp deep
    rw [encodeItems, List.length_append, ← Nat.add_assoc]
    exact first fits deep.1 head (ih others fitRest deep.2 tail)

theorem encodes_array {items : List Datum} (each : ∀ datum ∈ items, Encodes datum) : Encodes (.array items) := by
  intro fits buffer pointerBase depth offset next rest deep holds behind
  obtain ⟨small, fit⟩ := Bool.and_eq_true_iff.mp fits
  obtain ⟨front, back⟩ := holds_append.mp holds
  rw [Datum.encode, List.length_append, ← Nat.add_assoc] at behind
  cases depth with
  | zero => exact absurd deep (Nat.not_succ_le_zero _)
  | succ depth =>
    exact .array (of_decide_eq_true small) front
      (written_items each fit pointerBase (Nat.le_of_succ_le_succ deep) back) behind

theorem encodes_map {entries : List (String × Datum)} (each : ∀ entry ∈ entries, Encodes entry.2) :
    Encodes (.map entries) := by
  intro fits buffer pointerBase depth offset next rest deep holds behind
  obtain ⟨small, fit⟩ := Bool.and_eq_true_iff.mp fits
  obtain ⟨front, back⟩ := holds_append.mp holds
  have parts : ∀ datum ∈ flattened entries, Encodes datum := by
    intro datum member
    obtain ⟨entry, inEntries, here⟩ := List.mem_flatMap.mp member
    rcases List.mem_pair.mp here with rfl | rfl
    · exact encodes_key entry.1
    · exact each entry inEntries
  rw [encodeEntries_eq] at back
  rw [entriesFit_eq] at fit
  rw [Datum.encode, List.length_append, ← Nat.add_assoc, encodeEntries_eq] at behind
  rw [Datum.height, entriesHeight_eq] at deep
  cases depth with
  | zero => exact absurd deep (Nat.not_succ_le_zero _)
  | succ depth =>
    exact .map (of_decide_eq_true small) front
      (written_items parts fit pointerBase (Nat.le_of_succ_le_succ deep) back) behind

theorem encodes (datum : Datum) : Encodes datum := by
  induction datum using Datum.induction with
  | scalar datum notArray notMap =>
    have small : ∀ n < 29, n < sizeLimit := fun n below => by
      unfold sizeLimit
      omega
    cases datum with
    | utf8String text => exact encodes_key text
    | double bits => exact encodes_scalar (.double bits) rfl le_rfl fun _ => small 8 (by omega)
    | bytes content =>
      exact encodes_scalar (.bytes content) rfl le_rfl fun fits => by simpa [Datum.fits] using fits
    | uint type value =>
      have payload : Payload (.uint type value) _ _ (beBytes type.width value) :=
        .uint (length_beBytes type.width value).le (beNat_beBytes value.isLt)
      rw [length_beBytes] at payload
      exact encodes_scalar payload rfl le_rfl fun _ => by cases type <;> exact small _ (by decide)
    | int32 value =>
      have payload : Payload (.int32 value) _ _ (beBytes 4 value.toNat) :=
        .int32 (length_beBytes 4 value.toNat).le (beNat_beBytes value.isLt)
      rw [length_beBytes] at payload
      exact encodes_scalar payload rfl le_rfl fun _ => small 4 (by omega)
    | boolean value =>
      refine encodes_scalar (.boolean value) (List.append_nil _).symm le_rfl fun _ => ?_
      cases value <;> exact small _ (by decide)
    | float bits => exact encodes_scalar (.float bits) rfl le_rfl fun _ => small 4 (by omega)
    | array items => exact absurd rfl (notArray items)
    | map entries => exact absurd rfl (notMap entries)
  | array items each => exact encodes_array each
  | map entries each => exact encodes_map each

theorem written_encode {datum : Datum} (fits : datum.fits) {buffer : List UInt8} {offset : Nat} (pointerBase : Nat)
    (holds : Holds buffer offset datum.encode) :
    Written buffer pointerBase datum.height offset [datum] (offset + datum.encode.length) :=
  encodes datum fits le_rfl holds (.done _ _)

section TooDeep
variable {buffer : List UInt8} {pointerBase depth : Nat}

/-- A datum that is nested too deep runs into the recursion limit. -/
def RunsDeep (buffer : List UInt8) (pointerBase depth : Nat) (datum : Datum) : Prop :=
  ∀ offset, Holds buffer offset datum.encode → depth < datum.height →
    decode buffer pointerBase depth offset = .error .recursionError

theorem decodeItems_deep {items : List Datum} (each : ∀ datum ∈ items, datum.fits →
    RunsDeep buffer pointerBase depth datum)
    (fit : itemsFit items) {offset : Nat} (holds : Holds buffer offset (encodeItems items))
    (deep : depth < itemsHeight items) :
    decodeItems (decode buffer pointerBase depth) items.length offset = .error .recursionError := by
  induction items generalizing offset with
  | nil => exact absurd deep (Nat.not_lt_zero _)
  | cons datum rest ih =>
    obtain ⟨first, others⟩ := List.forall_mem_cons.mp each
    obtain ⟨fits, fitRest⟩ := Bool.and_eq_true_iff.mp fit
    obtain ⟨head, tail⟩ := holds_append.mp holds
    by_cases low : datum.height ≤ depth
    · have read := decode_written (written_encode fits pointerBase head) low
      have later : depth < itemsHeight rest := by
        rw [itemsHeight] at deep
        omega
      simp only [List.length_cons, decodeItems, read, ok_bind, ih others fitRest tail later]
      rfl
    · simp only [List.length_cons, decodeItems, first fits offset head (by omega)]
      rfl

theorem decodeEntries_deep {entries : List (String × Datum)}
    (each : ∀ entry ∈ entries, entry.2.fits → RunsDeep buffer pointerBase depth entry.2)
    (fit : entriesFit entries)
    {offset : Nat} (holds : Holds buffer offset (encodeEntries entries)) (deep : depth < entriesHeight entries)
    (container : List (RecordKey × Record)) :
    decodeEntries (decode buffer pointerBase depth) entries.length offset container = .error .recursionError := by
  induction entries generalizing offset container with
  | nil => exact absurd deep (Nat.not_lt_zero _)
  | cons entry rest ih =>
    obtain ⟨key, datum⟩ := entry
    obtain ⟨first, others⟩ := List.forall_mem_cons.mp each
    obtain ⟨keyFits, fit⟩ := Bool.and_eq_true_iff.mp fit
    obtain ⟨fits, fitRest⟩ := Bool.and_eq_true_iff.mp fit
    obtain ⟨front, back⟩ := holds_append.mp holds
    obtain ⟨head, tail⟩ := holds_append.mp back
    cases depth with
    | zero => rfl
    | succ depth =>
      have keyRead := decode_written (written_encode
        (show (Datum.utf8String key).fits from keyFits) pointerBase front)
        (Nat.le_add_left 1 depth)
      simp only [List.length_cons, decodeEntries, keyRead, ok_bind]
      by_cases low : datum.height ≤ depth + 1
      · have read := decode_written (written_encode fits pointerBase head) low
        have later : depth + 1 < entriesHeight rest := by
          rw [entriesHeight] at deep
          omega
        simp only [Datum.encode, read, ok_bind]
        exact ih others fitRest tail later _
      · have stopped := first fits _ head (Nat.lt_of_not_le low)
        simp only [Datum.encode, stopped]
        rfl

theorem runsDeep {datum : Datum} (fits : datum.fits) (buffer : List UInt8) (pointerBase depth : Nat) :
    RunsDeep buffer pointerBase depth datum := by
  induction datum using Datum.induction generalizing depth with
  | scalar datum notArray notMap =>
    intro offset _ deep
    have flat : datum.height = 1 := by
      cases datum with
      | array items => exact absurd rfl (notArray items)
      | map entries => exact absurd rfl (notMap entries)
      | _ => rfl
    obtain rfl : depth = 0 := by omega
    rfl
  | array items each =>
    intro offset holds deep
    obtain ⟨small, fit⟩ := Bool.and_eq_true_iff.mp fits
    obtain ⟨front, back⟩ := holds_append.mp holds
    cases depth with
    | zero => rfl
    | succ depth =>
      have typed : typeDecoder (decode buffer pointerBase depth) buffer pointerBase 11 = .ok (decodeArray _) := rfl
      have deeper := decodeItems_deep (fun datum member fits => each datum member fits depth) fit back
        (Nat.lt_of_succ_lt_succ deep)
      rw [decode, decodeStep_header (by decide) (of_decide_eq_true small) typed front, decodeArray, deeper]
      rfl
  | map entries each =>
    intro offset holds deep
    obtain ⟨small, fit⟩ := Bool.and_eq_true_iff.mp fits
    obtain ⟨front, back⟩ := holds_append.mp holds
    cases depth with
    | zero => rfl
    | succ depth =>
      have typed : typeDecoder (decode buffer pointerBase depth) buffer pointerBase 7 = .ok (decodeMap _) := rfl
      have deeper := decodeEntries_deep (fun entry member fits => each entry member fits depth) fit back
        (Nat.lt_of_succ_lt_succ deep) []
      rw [decode, decodeStep_header (by decide) (of_decide_eq_true small) typed front, decodeMap, deeper]
      rfl

/-- What is encoded is decoded, wherever it stands and whatever is around it,
just when the recursion limit leaves room for its height. -/
theorem decode_encode {datum : Datum} (fits : datum.fits) {buffer : List UInt8} {offset : Nat}
    (pointerBase limit : Nat)
    (holds : Holds buffer offset datum.encode) : decode buffer pointerBase limit offset =
      if datum.height ≤ limit then .ok (datum.value, offset + datum.encode.length) else .error .recursionError := by
  by_cases low : datum.height ≤ limit
  · rw [if_pos low]
    exact decode_written (written_encode fits pointerBase holds) low
  · rw [if_neg low]
    exact runsDeep fits buffer pointerBase limit offset holds (Nat.lt_of_not_le low)

theorem decode_encode_flags : decode [0xFF, 0x02, 0x04, 0x01, 0x07, 0x00, 0x07, 0xFF] 0 2 1 =
    .ok (.array [.bool true, .bool false], 7) := by
  have fits : (Datum.array [.boolean true, .boolean false]).fits := by decide
  have holds : Holds [0xFF, 0x02, 0x04, 0x01, 0x07, 0x00, 0x07, 0xFF] 1
      (Datum.array [.boolean true, .boolean false]).encode := by decide
  exact (decode_encode fits 0 2 holds).trans (if_pos (by decide))

end TooDeep

end SimpleCdn.MaxMindDb
