import SimpleCdn.Dns.Threads.Heap
import SimpleCdn.Lib.Interleaving

namespace SimpleCdn

/-- The six evaluations of `CLIENT_REPLICA_ROUTING_TABLE[client][replica]` in
`update_latency`, in program order. The values carried are computed already. -/
inductive Stage
  | sum
  | minRead
  | minWrite (value : WithTop ℚ)
  | maxRead
  | maxWrite (value : ℚ)
  | samples
  deriving DecidableEq

/-- Where a call of `update_latency` is. The augmented assignments write their
item in a step of its own, after the read and the addition. -/
inductive UpdatePc
  | start
  | access (stage : Stage) (item : ItemAccess)
  | sumWrite (entry : Nat) (value : ℚ)
  | samplesWrite (entry : Nat) (value : Nat)
  | done
  deriving DecidableEq

/-- A call of `update_latency` on a numeric ping record. Reading the record
touches nothing shared, so the call starts with what the record holds. -/
structure UpdateCall where
  record : Measurement
  pc : UpdatePc
  deriving DecidableEq

/-- One step with an entry in hand: read the item, or write the value computed
before. -/
def Stage.arrive (heap : Heap) (latency : ℚ) (e : Nat) : Stage → Heap × UpdatePc
  | .sum => (heap, .sumWrite e ((heap.entries e).sum + latency))
  | .minRead =>
    (heap, .access (.minWrite (Min.min (latency : WithTop ℚ) (heap.entries e).min)) (.client .lookup))
  | .minWrite value =>
    (heap.assign e (.min value), .access .maxRead (.client .lookup))
  | .maxRead => (heap, .access (.maxWrite (Max.max latency (heap.entries e).max)) (.client .lookup))
  | .maxWrite value =>
    (heap.assign e (.max value), .access .samples (.client .lookup))
  | .samples => (heap, .samplesWrite e ((heap.entries e).samples + 1))

def UpdateCall.step (heap : Heap) (call : UpdateCall) : Option (Heap × UpdateCall) :=
  match call.pc with
  | .start => some (heap, { call with pc := .access .sum (.client .lookup) })
  | .access stage (.found e) =>
    let next := stage.arrive heap call.record.latency e
    some (next.1, { call with pc := next.2 })
  | .access stage item =>
    let next := item.step heap call.record.client call.record.replica
    some (next.1, { call with pc := .access stage next.2 })
  | .sumWrite e value =>
    some (heap.assign e (.sum value),
      { call with pc := .access .minRead (.client .lookup) })
  | .samplesWrite e value =>
    some (heap.assign e (.samples value), { call with pc := .done })
  | .done => none

namespace UpdateCall

def effect (call : UpdateCall) : Effect :=
  match call.pc with
  | .access (.minWrite value) (.found e) => .assign e (.min value)
  | .access (.maxWrite value) (.found e) => .assign e (.max value)
  | .access _ item => item.effect
  | .sumWrite e value => .assign e (.sum value)
  | .samplesWrite e value => .assign e (.samples value)
  | _ => .quiet

def heldTable (call : UpdateCall) : Option Nat :=
  match call.pc with
  | .access _ item => item.heldTable
  | _ => none

def heldEntry (call : UpdateCall) : Option Nat :=
  match call.pc with
  | .access _ item => item.heldEntry
  | .sumWrite entry _ => some entry
  | .samplesWrite entry _ => some entry
  | _ => none

/-- A call is in progress between its first and its last step. -/
def InProgress (call : UpdateCall) : Prop := call.pc ≠ .start ∧ call.pc ≠ .done

def SumWritten (call : UpdateCall) : Prop :=
  match call.pc with
  | .start => False
  | .access .sum _ => False
  | .sumWrite _ _ => False
  | _ => True

def Processed (call : UpdateCall) : Prop := call.pc = .done

instance (call : UpdateCall) : Decidable call.SumWritten := by
  unfold SumWritten
  split <;> infer_instance

instance (call : UpdateCall) : Decidable call.Processed := inferInstanceAs (Decidable (call.pc = .done))

/-- A step does to the shared objects what its effect says, and keeps the record. -/
theorem step_effect {heap heap' : Heap} {call call' : UpdateCall} (taken : call.step heap = some (heap', call')) :
    heap' = call.effect.apply heap call.record.client call.record.replica ∧ call'.record = call.record := by
  obtain ⟨record, pc⟩ := call
  cases pc with
  | start => cases taken; exact ⟨rfl, rfl⟩
  | done => cases taken
  | sumWrite e value => cases taken; exact ⟨rfl, rfl⟩
  | samplesWrite e value => cases taken; exact ⟨rfl, rfl⟩
  | access stage item =>
    by_cases found : ∃ e, item = .found e
    · obtain ⟨e, rfl⟩ := found
      cases stage <;> (cases taken; exact ⟨rfl, rfl⟩)
    · have moves := item.step_heap heap record.client record.replica
      rcases item with access | table | table | e
      case found => exact absurd ⟨e, rfl⟩ found
      all_goals
        cases taken
        refine ⟨moves.trans ?_, rfl⟩
        cases stage <;> rfl

/-- The sum counts as written from the step that writes it. -/
theorem step_sumWritten {heap heap' : Heap} {call call' : UpdateCall}
    (taken : call.step heap = some (heap', call')) :
    (call'.SumWritten ↔ call.SumWritten ∨ ∃ e value, call.effect = .assign e (.sum value)) ∧
      ∀ e value, call.effect = .assign e (.sum value) → ¬ call.SumWritten := by
  obtain ⟨record, pc⟩ := call
  cases pc with
  | start => cases taken; simp [SumWritten, effect]
  | done => cases taken
  | sumWrite e value => cases taken; simp [SumWritten, effect]
  | samplesWrite e value => cases taken; simp [SumWritten, effect]
  | access stage item =>
    rcases item with (_ | _ | _ | table) | table | table | e <;>
      cases stage <;> cases taken <;> simp [SumWritten, effect, ItemAccess.effect, Stage.arrive]

theorem step_processed {heap heap' : Heap} {call call' : UpdateCall}
    (taken : call.step heap = some (heap', call')) :
    (call'.Processed ↔ ∃ e value, call.effect = .assign e (.samples value)) ∧ ¬ call.Processed := by
  obtain ⟨record, pc⟩ := call
  cases pc with
  | start => cases taken; simp [Processed, effect]
  | done => cases taken
  | sumWrite e value => cases taken; simp [Processed, effect]
  | samplesWrite e value => cases taken; simp [Processed, effect]
  | access stage item =>
    rcases item with (_ | _ | _ | table) | table | table | e <;>
      cases stage <;> cases taken <;> simp [Processed, effect, ItemAccess.effect, Stage.arrive]

theorem step_heldTable {heap heap' : Heap} {call call' : UpdateCall} {table : Nat}
    (taken : call.step heap = some (heap', call')) (held : call'.heldTable = some table) :
    call.heldTable = some table ∨ heap.outer.get? call.record.client = some table ∨
      (call.effect = .newTable ∧ table = heap.nextTable) := by
  obtain ⟨record, pc⟩ := call
  cases pc with
  | start => cases taken; cases held
  | done => cases taken
  | sumWrite e value => cases taken; cases held
  | samplesWrite e value => cases taken; cases held
  | access stage item =>
    by_cases found : ∃ e, item = .found e
    · obtain ⟨e, rfl⟩ := found
      cases stage <;> (cases taken; cases held)
    · have moves := @ItemAccess.step_heldTable heap record.client record.replica item table
      rcases item with access | t | t | e
      case found => exact absurd ⟨e, rfl⟩ found
      all_goals
        cases taken
        rcases moves held with old | known | ⟨new, fresh⟩
        · exact Or.inl old
        · exact Or.inr (Or.inl known)
        · exact Or.inr (Or.inr ⟨by cases stage <;> exact new, fresh⟩)

theorem step_heldEntry {heap heap' : Heap} {call call' : UpdateCall} {entry : Nat}
    (taken : call.step heap = some (heap', call')) (held : call'.heldEntry = some entry) :
    call.heldEntry = some entry ∨ ∃ table, call.heldTable = some table ∧
      ((heap.tables table).get? call.record.replica = some entry ∨
        (call.effect = .newEntry table ∧ entry = heap.nextEntry)) := by
  obtain ⟨record, pc⟩ := call
  cases pc with
  | start => cases taken; cases held
  | done => cases taken
  | sumWrite e value => cases taken; cases held
  | samplesWrite e value => cases taken; cases held
  | access stage item =>
    by_cases found : ∃ e, item = .found e
    · obtain ⟨e, rfl⟩ := found
      cases stage <;> cases taken <;> first | exact Or.inl held | cases held
    · have moves := @ItemAccess.step_heldEntry heap record.client record.replica item entry
      rcases item with access | t | t | e
      case found => exact absurd ⟨e, rfl⟩ found
      all_goals
        cases taken
        rcases moves held with old | ⟨table, known, present | ⟨new, fresh⟩⟩
        · exact Or.inl old
        · exact Or.inr ⟨table, known, Or.inl present⟩
        · exact Or.inr ⟨table, known, Or.inr ⟨by cases stage <;> exact new, fresh⟩⟩

/-- An insertion goes to the dictionary in hand. -/
theorem effect_newEntry {call : UpdateCall} {table : Nat} (effect : call.effect = .newEntry table) :
    call.heldTable = some table := by
  obtain ⟨record, pc⟩ := call
  cases pc with
  | access stage item =>
    rcases item with (_ | _ | _ | t) | t | t | e <;> cases stage <;> first | cases effect; rfl | cases effect
  | _ => cases effect

theorem effect_assign {call : UpdateCall} {entry : Nat} {item : Item} (effect : call.effect = .assign entry item) :
    call.heldEntry = some entry := by
  obtain ⟨record, pc⟩ := call
  cases pc with
  | access stage item =>
    rcases item with (_ | _ | _ | t) | t | t | e <;> cases stage <;> first | cases effect; rfl | cases effect
  | start => cases effect
  | done => cases effect
  | sumWrite e value => cases effect; rfl
  | samplesWrite e value => cases effect; rfl

end UpdateCall

end SimpleCdn
