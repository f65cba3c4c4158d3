import SimpleCdn.Dns.RoutingTable

namespace SimpleCdn

/-- The measurements recorded so far, oldest first. This is what the routing
table is about; the table itself only keeps totals. -/
abbrev History := List Measurement

namespace History

/-- The replicas measured for a client, once for each measurement. -/
def replicas (h : History) (client : Key) : List Key :=
  (h.filter (fun m => m.client = client)).map Measurement.replica

def latencies (h : History) (client replica : Key) : List ℚ :=
  (h.filter (fun m => m.client = client ∧ m.replica = replica)).map Measurement.latency

def mean (h : History) (client replica : Key) : ℚ :=
  (h.latencies client replica).sum / (h.latencies client replica).length

theorem mem_replicas {h : History} {client replica : Key} :
    replica ∈ h.replicas client ↔ ∃ m ∈ h, m.client = client ∧ m.replica = replica := by
  simp only [replicas, List.mem_map, List.mem_filter, decide_eq_true_eq]
  constructor
  · rintro ⟨m, ⟨member, atClient⟩, atReplica⟩
    exact ⟨m, member, atClient, atReplica⟩
  · rintro ⟨m, member, atClient, atReplica⟩
    exact ⟨m, ⟨member, atClient⟩, atReplica⟩

theorem latencies_nonempty_iff {h : History} {client replica : Key} :
    h.latencies client replica ≠ [] ↔ replica ∈ h.replicas client := by
  rw [mem_replicas, Ne, latencies, List.map_eq_nil_iff, List.filter_eq_nil_iff]
  simp

theorem replicas_append (h : History) (m : Measurement) (client : Key) :
    replicas (h ++ [m]) client =
      if m.client = client then h.replicas client ++ [m.replica] else h.replicas client := by
  by_cases same : m.client = client <;> simp [replicas, same]

theorem latencies_append (h : History) (m : Measurement) (client replica : Key) :
    latencies (h ++ [m]) client replica =
      if m.client = client ∧ m.replica = replica then h.latencies client replica ++ [m.latency]
      else h.latencies client replica := by
  by_cases same : m.client = client ∧ m.replica = replica <;> simp [latencies, same]

end History

/-- The entry that a list of latencies leads to. -/
def Entry.ofLatencies (latencies : List ℚ) : Entry := latencies.foldl Entry.add Entry.new

theorem Entry.ofLatencies_append (latencies : List ℚ) (latency : ℚ) :
    Entry.ofLatencies (latencies ++ [latency]) = (Entry.ofLatencies latencies).add latency := by
  rw [Entry.ofLatencies, List.foldl_append]
  rfl

theorem Entry.ofLatencies_sum (latencies : List ℚ) : (Entry.ofLatencies latencies).sum = latencies.sum := by
  induction latencies using List.reverseRecOn with
  | nil => rfl
  | append_singleton earlier latency ih =>
    rw [Entry.ofLatencies_append, List.sum_append, List.sum_singleton, ← ih]
    rfl

theorem Entry.ofLatencies_samples (latencies : List ℚ) :
    (Entry.ofLatencies latencies).samples = latencies.length := by
  induction latencies using List.reverseRecOn with
  | nil => rfl
  | append_singleton earlier latency ih =>
    rw [Entry.ofLatencies_append, List.length_append, List.length_singleton, ← ih]
    rfl

/-- The routing table is the summary of a history: which clients and replicas
it knows, in which order the replicas came, and the entry of each pair. -/
structure Represents (table : RoutingTable) (h : History) : Prop where
  clients : ∀ client, client ∈ table ↔ h.replicas client ≠ []
  order : ∀ client, (table.inner client).keys = (h.replicas client).eraseDups
  entries : ∀ client replica, table.entry client replica = Entry.ofLatencies (h.latencies client replica)

theorem represents_empty : Represents ∅ [] where
  clients client := by simp [History.replicas]
  order client := by simp [RoutingTable.inner, History.replicas]
  entries client replica := rfl

theorem RoutingTable.entry_record (table : RoutingTable) (m : Measurement) (client replica : Key) :
    (table.record m).entry client replica =
      if m.client = client ∧ m.replica = replica then (table.entry client replica).add m.latency
      else table.entry client replica := by
  rw [RoutingTable.record, RoutingTable.entry_store_apply]
  by_cases same : m.client = client ∧ m.replica = replica
  · rw [if_pos same, if_pos ⟨same.1.symm, same.2.symm⟩, same.1, same.2]
  · rw [if_neg same, if_neg fun back => same ⟨back.1.symm, back.2.symm⟩]

/-- One measurement is recorded for its own pair and leaves every other pair,
and the order of every other client's replicas, as they were. -/
theorem Represents.record {table : RoutingTable} {h : History} (rep : Represents table h) (m : Measurement) :
    Represents (table.record m) (h ++ [m]) where
  clients client := by
    rw [RoutingTable.record, RoutingTable.store, Dict.mem_set, rep.clients, History.replicas_append]
    by_cases same : m.client = client
    · simp [same]
    · simp [same, Ne.symm same]
  order client := by
    rw [History.replicas_append]
    by_cases same : m.client = client
    · subst same
      rw [RoutingTable.record, RoutingTable.inner_store, if_pos rfl, if_pos rfl]
      exact Dict.keys_set_eraseDups (rep.order m.client) _ _
    · rw [RoutingTable.record, RoutingTable.inner_store, if_neg (Ne.symm same), if_neg same, rep.order]
  entries client replica := by
    rw [RoutingTable.entry_record, History.latencies_append]
    by_cases same : m.client = client ∧ m.replica = replica
    · rw [if_pos same, if_pos same, rep.entries, Entry.ofLatencies_append]
    · rw [if_neg same, if_neg same, rep.entries]

theorem Represents.record_all {table : RoutingTable} {h : History} (rep : Represents table h)
    (later : History) : Represents (later.foldl RoutingTable.record table) (h ++ later) := by
  induction later generalizing table h with
  | nil => simpa using rep
  | cons m rest ih => simpa using ih (rep.record m)

theorem Represents.mem_inner {table : RoutingTable} {h : History} (rep : Represents table h)
    {client replica : Key} : replica ∈ table.inner client ↔ replica ∈ h.replicas client := by
  rw [← Dict.mem_keys, rep.order, List.mem_eraseDups]

/-- An entry that is present holds at least one sample, and its quotient is the
mean of the recorded latencies. -/
theorem Represents.samples_pos {table : RoutingTable} {h : History} (rep : Represents table h)
    {client replica : Key} (member : replica ∈ table.inner client) :
    0 < (table.entry client replica).samples := by
  rw [rep.entries, Entry.ofLatencies_samples]
  exact List.length_pos_of_ne_nil (History.latencies_nonempty_iff.mpr (rep.mem_inner.mp member))

theorem Represents.mean_eq {table : RoutingTable} {h : History} (rep : Represents table h)
    (client replica : Key) : (table.entry client replica).mean = h.mean client replica := by
  rw [Entry.mean, rep.entries, Entry.ofLatencies_sum, Entry.ofLatencies_samples, History.mean]

/-- What a history leaves of a client can be averaged. -/
theorem Represents.complete {table : RoutingTable} {h : History} (rep : Represents table h) {client : Key}
    (known : client ∈ table) : table.Complete client := by
  constructor
  · obtain ⟨replica, member⟩ := List.exists_mem_of_ne_nil _ ((rep.clients client).mp known)
    exact List.ne_nil_of_mem (Dict.mem_keys.mpr (rep.mem_inner.mpr member))
  · intro replica member
    have positive := rep.samples_pos (Dict.mem_keys.mp member)
    omega

def recordedBy (records : List ScamperRecord) : History := records.filterMap ScamperRecord.measurement

theorem recordedBy_foldl (records : List ScamperRecord) (table : RoutingTable) :
    (recordedBy records).foldl RoutingTable.record table =
      records.foldl (fun t record => record.measurement.elim t t.record) table := by
  induction records generalizing table with
  | nil => rfl
  | cons record rest ih =>
    cases found : record.measurement with
    | none => simpa [recordedBy, found] using ih table
    | some m => simpa [recordedBy, found] using ih (table.record m)

end SimpleCdn
