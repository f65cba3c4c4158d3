import SimpleCdn.Lib.Effects
import SimpleCdn.Dns.Json
import Mathlib.Algebra.Order.Ring.Rat
import Mathlib.Order.WithBot

namespace SimpleCdn

/-- What the routing table holds for one client and one replica. The top
element of `min` is the float `inf`. -/
structure Entry where
  sum : ℚ
  min : WithTop ℚ
  max : ℚ
  samples : Nat
  deriving DecidableEq

/-- The default factory of the inner dictionaries. -/
def Entry.new : Entry where
  sum := 0
  min := ⊤
  max := -1
  samples := 0

def Entry.add (entry : Entry) (latency : ℚ) : Entry where
  sum := entry.sum + latency
  min := Min.min (latency : WithTop ℚ) entry.min
  max := Max.max latency entry.max
  samples := entry.samples + 1

def Entry.mean (entry : Entry) : ℚ := entry.sum / entry.samples

/-- `CLIENT_REPLICA_ROUTING_TABLE`. -/
abbrev RoutingTable := Dict Key (Dict Key Entry)

namespace RoutingTable

def inner (table : RoutingTable) (client : Key) : Dict Key Entry := (table.get? client).getD ∅

def entry (table : RoutingTable) (client replica : Key) : Entry :=
  ((table.inner client).get? replica).getD Entry.new

def store (table : RoutingTable) (client replica : Key) (entry : Entry) : RoutingTable :=
  table.set client ((table.inner client).set replica entry)

def record (table : RoutingTable) (m : Measurement) : RoutingTable :=
  table.store m.client m.replica ((table.entry m.client m.replica).add m.latency)

/-- There is an entry for the client, and no entry for it is without a sample. -/
def Complete (table : RoutingTable) (client : Key) : Prop :=
  (table.inner client).keys ≠ [] ∧
    ∀ replica ∈ (table.inner client).keys, (table.entry client replica).samples ≠ 0

@[simp] theorem inner_set (table : RoutingTable) (client : Key) (d : Dict Key Entry) :
    inner (table.set client d) client = d := by
  simp [inner]

theorem inner_set_other (table : RoutingTable) {client other : Key} (d : Dict Key Entry)
    (differs : other ≠ client) : inner (table.set client d) other = table.inner other := by
  rw [inner, Dict.get?_set_of_ne table d differs, ← inner]

@[simp] theorem entry_store (table : RoutingTable) (client replica : Key) (e : Entry) :
    (table.store client replica e).entry client replica = e := by
  simp [store, entry]

theorem inner_store (table : RoutingTable) (client replica : Key) (e : Entry) (other : Key) :
    (table.store client replica e).inner other =
      if other = client then (table.inner client).set replica e else table.inner other := by
  by_cases same : other = client
  · subst same
    rw [if_pos rfl, store, inner_set]
  · rw [if_neg same, store, inner_set_other table _ same]

theorem entry_store_apply (table : RoutingTable) (client replica : Key) (e : Entry) (client' replica' : Key) :
    (table.store client replica e).entry client' replica' =
      if client' = client ∧ replica' = replica then e else table.entry client' replica' := by
  rw [entry, inner_store]
  by_cases same : client' = client
  · subst same
    rw [if_pos rfl, Dict.get?_set]
    by_cases here : replica' = replica
    · simp [here]
    · simp only [here, and_false, if_false]
      rfl
  · simp only [same, false_and, if_false]
    rfl

@[simp] theorem store_store (table : RoutingTable) (client replica : Key) (first second : Entry) :
    (table.store client replica first).store client replica second = table.store client replica second := by
  simp [store]

theorem store_entry_of_mem {table : RoutingTable} {client replica : Key}
    (member : replica ∈ table.inner client) :
    table.store client replica (table.entry client replica) = table := by
  obtain ⟨entry, found⟩ := Dict.mem_iff_get?.mp member
  have present : table.get? client = some (table.inner client) := by
    cases known : table.get? client with
    | some d => simp [inner, known]
    | none => simp [inner, known] at member
  have same : table.entry client replica = entry := by
    simp [RoutingTable.entry, found]
  rw [store, same, Dict.set_of_get? found, Dict.set_of_get? present]

end RoutingTable

abbrev TableM := EStateM PyError RoutingTable

def raising {σ α : Type} : Except PyError α → EStateM PyError σ α
  | .ok value => return value
  | .error raised => throw raised

@[simp] theorem raising_ok {σ α : Type} (value : α) (state : σ) :
    (raising (.ok value)).run state = .ok value state := rfl

@[simp] theorem raising_error {σ α : Type} (raised : PyError) (state : σ) :
    (raising (.error raised : Except PyError α)).run state = .error raised state := rfl

/-- `CLIENT_REPLICA_ROUTING_TABLE[client]`: a missing client is given an empty
inner dictionary. -/
def clientItem (client : Key) : TableM (Dict Key Entry) := do
  match (← get).get? client with
  | some inner => return inner
  | none =>
    modify fun table => table.set client ∅
    return ∅

/-- `CLIENT_REPLICA_ROUTING_TABLE[client][replica]`: a missing replica is given
the default entry. -/
def replicaItem (client replica : Key) : TableM Entry := do
  let inner ← clientItem client
  match inner.get? replica with
  | some entry => return entry
  | none =>
    modify fun table => table.set client (inner.set replica Entry.new)
    return Entry.new

def storeItem (client replica : Key) (entry : Entry) : TableM Unit :=
  modify fun table => table.store client replica entry

/-- The four assignments of `update_latency`. The two augmented ones look the
entry up once, the other two look it up for the value and for the target. -/
def updateEntry (client replica : Key) (latency : Json) : TableM Unit := do
  let entry ← replicaItem client replica
  let value ← raising latency.numeric
  storeItem client replica { entry with sum := entry.sum + value }
  let seen ← replicaItem client replica
  let entry ← replicaItem client replica
  storeItem client replica { entry with min := Min.min (value : WithTop ℚ) seen.min }
  let seen ← replicaItem client replica
  let entry ← replicaItem client replica
  storeItem client replica { entry with max := Max.max value seen.max }
  let entry ← replicaItem client replica
  storeItem client replica { entry with samples := entry.samples + 1 }

/-- The two keys are hashed one after the other, so an unhashable replica is
noticed when the client's dictionary exists already, and a latency that is no
number when the entry does. -/
def updateLatency (output : Json) : TableM Unit := do
  let type ← raising (output.item "type")
  if type.isString "ping" then
    let statistics ← raising (output.item "statistics")
    if ← raising (statistics.contains "avg") then
      let client ← raising (output.item "dst")
      let replica ← raising (output.item "src")
      let latency ← raising (statistics.item "avg")
      let clientKey ← raising client.key
      let _ ← clientItem clientKey
      let replicaKey ← raising replica.key
      updateEntry clientKey replicaKey latency

theorem clientItem_run (client : Key) (table : RoutingTable) :
    (clientItem client).run table = .ok (table.inner client) (table.set client (table.inner client)) := by
  cases found : table.get? client with
  | some inner => simp [clientItem, RoutingTable.inner, found, Dict.set_of_get? found]
  | none =>
    simp only [clientItem, EStateM.run_bind, EStateM.run_get, found, RoutingTable.inner]
    rfl

/-- An access stores the default where nothing is stored and changes nothing
otherwise; both are the same store of what is read. -/
theorem replicaItem_run (client replica : Key) (table : RoutingTable) :
    (replicaItem client replica).run table =
      .ok (table.entry client replica) (table.store client replica (table.entry client replica)) := by
  cases found : (table.inner client).get? replica with
  | some entry =>
    simp [replicaItem, clientItem_run, RoutingTable.store, RoutingTable.entry, found, Dict.set_of_get? found]
  | none =>
    simp only [replicaItem, EStateM.run_bind, clientItem_run, found, RoutingTable.store, RoutingTable.entry]
    simp only [EStateM.run_modify, EStateM.run_pure, Dict.set_set, Option.getD_none]

theorem storeItem_run (client replica : Key) (entry : Entry) (table : RoutingTable) :
    (storeItem client replica entry).run table = .ok () (table.store client replica entry) := rfl

theorem updateEntry_run {latency : Json} {value : ℚ} (numeric : latency.numeric = .ok value)
    (client replica : Key) (table : RoutingTable) :
    (updateEntry client replica latency).run table = .ok () (table.record ⟨client, replica, value⟩) := by
  simp [updateEntry, replicaItem_run, storeItem_run, numeric, RoutingTable.record, Entry.add]

/-- A latency that is no number is noticed after the entry has been created. -/
theorem updateEntry_raises {latency : Json} {raised : PyError} (numeric : latency.numeric = .error raised)
    (client replica : Key) (table : RoutingTable) :
    (updateEntry client replica latency).run table =
      .error raised (table.store client replica (table.entry client replica)) := by
  simp [updateEntry, replicaItem_run, numeric]

/-- A computation does to every table what a record holds: nothing, one
measurement, or an exception. -/
def Realizes (call : TableM Unit) (plan : Except PyError (Option Measurement)) : Prop :=
  ∀ table : RoutingTable,
    match plan with
    | .ok none => call.run table = .ok () table
    | .ok (some m) => call.run table = .ok () (table.record m)
    | .error raised => ∃ left, call.run table = .error raised left

theorem Realizes.read {α : Type} {field : Except PyError α} {call : α → TableM Unit}
    {plan : α → Except PyError (Option Measurement)} (rest : ∀ value, Realizes (call value) (plan value)) :
    Realizes (raising field >>= call) (field >>= plan) := by
  intro table
  cases field with
  | ok value => exact rest value table
  | error raised => exact ⟨table, rfl⟩

theorem updateEntry_realizes (client replica : Key) (latency : Json) :
    Realizes (updateEntry client replica latency)
      (latency.numeric >>= fun value => .ok (some ⟨client, replica, value⟩)) := by
  intro table
  cases numeric : latency.numeric with
  | ok value => exact updateEntry_run numeric client replica table
  | error raised => exact ⟨_, updateEntry_raises numeric client replica table⟩

/-- The client's dictionary is created between the two hashings, and a record
that is accepted creates it anyway. -/
theorem clientItem_realizes {client : Key} {call : TableM Unit} {plan : Except PyError (Option Measurement)}
    (rest : Realizes call plan) (own : ∀ found, plan = .ok found → ∃ m ∈ found, m.client = client) :
    Realizes (clientItem client >>= fun _ => call) plan := by
  intro table
  have after := rest (table.set client (table.inner client))
  rw [EStateM.run_bind, clientItem_run]
  cases plan with
  | error raised => exact after
  | ok found =>
    obtain ⟨m, member, rfl⟩ := own found rfl
    cases member
    simpa [RoutingTable.record, RoutingTable.store, RoutingTable.entry] using after

/-- What `update_latency` does with the fields. -/
def updateFields : Option (Json × Json × Json) → TableM Unit
  | none => return ()
  | some (client, replica, latency) => do
    let clientKey ← raising client.key
    let _ ← clientItem clientKey
    let replicaKey ← raising replica.key
    updateEntry clientKey replicaKey latency

theorem reads_field {α : Type} {field : Except PyError α} {call : α → TableM Unit}
    {plan : α → Except PyError (Option (Json × Json × Json))}
    (rest : ∀ value, call value = raising (plan value) >>= updateFields) :
    raising field >>= call = raising (field >>= plan) >>= updateFields := by
  cases field with
  | ok value => exact rest value
  | error raised => rfl

/-- Every field is read before the table is looked at. -/
theorem updateLatency_eq (output : Json) : updateLatency output = raising output.pingFields >>= updateFields := by
  refine reads_field fun type => ?_
  split
  · refine reads_field fun statistics => reads_field fun timed => ?_
    split
    · exact reads_field fun client => reads_field fun replica => reads_field fun latency => rfl
    · rfl
  · rfl

theorem updateFields_realizes (client replica latency : Json) :
    Realizes (updateFields (some (client, replica, latency))) (do
      return some ⟨← client.key, ← replica.key, ← latency.numeric⟩) := by
  refine Realizes.read fun clientKey => clientItem_realizes ?_ ?_
  · exact Realizes.read fun replicaKey => updateEntry_realizes clientKey replicaKey latency
  · intro found accepted
    cases hashed : replica.key with
    | error raised => rw [hashed] at accepted; cases accepted
    | ok replicaKey =>
      cases numeric : latency.numeric with
      | error raised => rw [hashed, numeric] at accepted; cases accepted
      | ok value =>
        rw [hashed, numeric] at accepted
        cases accepted
        exact ⟨_, rfl, rfl⟩

theorem updateLatency_realizes (output : Json) : Realizes (updateLatency output) output.measurement := by
  rw [updateLatency_eq]
  refine Realizes.read fun fields => ?_
  cases fields with
  | none => exact fun table => rfl
  | some read => exact updateFields_realizes read.1 read.2.1 read.2.2

/-- A record is rejected or not whatever the table holds. -/
theorem updateLatency_run_ok {output : Json} {found : Option Measurement}
    (read : output.measurement = .ok found) (table : RoutingTable) :
    (updateLatency output).run table = .ok () (found.elim table table.record) := by
  have realized := updateLatency_realizes output table
  rw [read] at realized
  cases found <;> exact realized

theorem updateLatency_run_error {output : Json} {raised : PyError}
    (read : output.measurement = .error raised) (table : RoutingTable) :
    ∃ left, (updateLatency output).run table = .error raised left := by
  have realized := updateLatency_realizes output table
  rwa [read] at realized

end SimpleCdn
