import SimpleCdn.Dns.Resolve

namespace SimpleCdn

/-- The record is noticed to be a bad one when something has been stored: the
replica is not hashable and the client is new to the table, or the latency is
no number and the replica is new for the client. -/
def SpoilsTable (table : RoutingTable) (output : Json) : Prop :=
  ∃ dst src avg client, output.pingFields = .ok (some (dst, src, avg)) ∧ dst.key = .ok client ∧
    (client ∉ table ∧ (∃ raised, src.key = .error raised) ∨
      ∃ replica, src.key = .ok replica ∧ replica ∉ table.inner client ∧
        ∃ raised, avg.numeric = .error raised)

theorem RoutingTable.set_inner_eq_iff (table : RoutingTable) (client : Key) :
    table.set client (table.inner client) = table ↔ client ∈ table := by
  constructor
  · intro same
    rw [← same]
    exact Dict.mem_set.mpr (Or.inl rfl)
  · intro known
    obtain ⟨inner, found⟩ := Dict.mem_iff_get?.mp known
    have here : table.inner client = inner := by simp [RoutingTable.inner, found]
    rw [here, Dict.set_of_get? found]

theorem RoutingTable.store_entry_eq_iff (table : RoutingTable) (client replica : Key) :
    table.store client replica (table.entry client replica) = table ↔ replica ∈ table.inner client := by
  constructor
  · intro same
    rw [← same, RoutingTable.inner_store, if_pos rfl]
    exact Dict.mem_set.mpr (Or.inl rfl)
  · exact RoutingTable.store_entry_of_mem

/-- The tables that a call for these fields leaves when it raises. -/
theorem updateFields_raises_iff (table : RoutingTable) (dst src avg : Json) :
    (∀ raised left, (updateFields (some (dst, src, avg))).run table = .error raised left → left = table) ↔
      ∀ client, dst.key = .ok client → ((∃ raised, src.key = .error raised) → client ∈ table) ∧
        ∀ replica, src.key = .ok replica → (∃ raised, avg.numeric = .error raised) →
          replica ∈ table.inner client := by
  simp only [updateFields, EStateM.run_bind]
  cases hashed : dst.key with
  | error raised => simp
  | ok client =>
    simp only [raising_ok, clientItem_run]
    cases hashedReplica : src.key with
    | error raised => simp [RoutingTable.set_inner_eq_iff]
    | ok replica =>
      simp only [raising_ok]
      cases numeric : avg.numeric with
      | ok value => simp [updateEntry_run numeric]
      | error raised =>
        have stored : RoutingTable.store (table.set client (table.inner client)) client replica
            (RoutingTable.entry (table.set client (table.inner client)) client replica) =
              table.store client replica (table.entry client replica) := by
          simp [RoutingTable.store, RoutingTable.entry]
        simp [updateEntry_raises numeric, stored, RoutingTable.store_entry_eq_iff]

theorem updateLatency_raises_iff (table : RoutingTable) (output : Json) :
    (∀ raised left, (updateLatency output).run table = .error raised left → left = table) ↔
      ¬ SpoilsTable table output := by
  rw [updateLatency_eq, SpoilsTable]
  simp only [EStateM.run_bind]
  cases fields : output.pingFields with
  | error raised => simp
  | ok found =>
    simp only [raising_ok]
    cases found with
    | none => simp [updateFields]
    | some read =>
      obtain ⟨dst, src, avg⟩ := read
      simp only [updateFields_raises_iff]
      constructor
      · rintro kept ⟨_, _, _, client, same, hashed, unhashable | ⟨replica, hashedReplica, new, unreadable⟩⟩
        · cases same
          exact unhashable.1 ((kept client hashed).1 unhashable.2)
        · cases same
          exact new ((kept client hashed).2 replica hashedReplica unreadable)
      · intro harmless client hashed
        constructor
        · intro unhashable
          by_contra new
          exact harmless ⟨dst, src, avg, client, rfl, hashed, Or.inl ⟨new, unhashable⟩⟩
        · intro replica hashedReplica unreadable
          by_contra new
          exact harmless ⟨dst, src, avg, client, rfl, hashed,
            Or.inr ⟨replica, hashedReplica, new, unreadable⟩⟩

section Resolve
variable {R D : Type} [LinearOrder D] (loads : String → Option Json) (replicas : List String)
  (city : String → Option (Location R)) (distanceBetweenLocations : R × R → R × R → D)

/-- A call that raises leaves the server as it was, and every client of the
table can still be answered. -/
def RejectedSafely (server : DnsServer) (output : Json) : Prop :=
  ∀ raised after, (onTable (updateLatency output)).run server = .error raised after →
    after = server ∧ ∀ post address, .string address.1 ∈ server.clientReplicaRoutingTable →
      Returns (resolve loads replicas city distanceBetweenLocations post address) after

/-- Where every client of the table can be averaged, a rejected record changes
nothing unless it spoils the table. -/
theorem rejected_safely_iff {server : DnsServer}
    (complete : ∀ client ∈ server.clientReplicaRoutingTable, server.clientReplicaRoutingTable.Complete client)
    (output : Json) : RejectedSafely loads replicas city distanceBetweenLocations server output ↔
      ¬ SpoilsTable server.clientReplicaRoutingTable output := by
  rw [← updateLatency_raises_iff]
  constructor
  · intro safely raised left run
    obtain ⟨same, _⟩ := safely raised _ (onTable_run_error run)
    exact congrArg DnsServer.clientReplicaRoutingTable same
  · intro kept raised after run
    have unchanged : after = server := by
      cases called : (updateLatency output).run server.clientReplicaRoutingTable with
      | ok value left =>
        rw [onTable_run_ok called] at run
        cases run
      | error found left =>
        rw [onTable_run_error called] at run
        cases run
        rw [kept raised left called]
        rfl
    refine ⟨unchanged, fun post address known => ?_⟩
    obtain ⟨replica, _, least⟩ := leastLatency_run known (complete _ known)
    refine ⟨replica, server, ?_⟩
    rw [unchanged]
    simp only [resolve, EStateM.run_bind, EStateM.run_get, if_pos known]
    exact onTable_run_ok least

end Resolve

/-- A ping record whose `avg` is `null`. -/
def nullOutput (src dst : String) : Json :=
  .object [("type", .string "ping"), ("src", .string src), ("dst", .string dst),
    ("statistics", .object [("avg", .null)])]

theorem nullOutput_spoils_iff (table : RoutingTable) (src dst : String) :
    SpoilsTable table (nullOutput src dst) ↔ .string src ∉ table.inner (.string dst) := by
  have fields : (nullOutput src dst).pingFields = .ok (some (.string dst, .string src, .null)) := rfl
  constructor
  · rintro ⟨_, _, _, client, read, hashed, unhashable | ⟨replica, hashedReplica, new, _⟩⟩
    · rw [fields] at read
      cases read
      obtain ⟨raised, impossible⟩ := unhashable.2
      cases impossible
    · rw [fields] at read
      cases read
      cases hashed
      cases hashedReplica
      exact new
  · exact fun new => ⟨_, _, _, _, fields, rfl, Or.inr ⟨_, rfl, new, _, rfl⟩⟩

/-- The record of a pair that has been measured is rejected and does no harm. -/
theorem rejected_safely_measured :
    RejectedSafely (fun _ => none) replicaServers (fun _ => (none : Option (Location ℚ))) (fun _ _ => (0 : ℚ))
      (DnsServer.initial.withTable (RoutingTable.record ∅ ⟨.string "52.53.228.21", .string "185.3.95.25", 70⟩))
      (nullOutput "185.3.95.25" "52.53.228.21") := by
  have rep := represents_empty.record ⟨.string "52.53.228.21", .string "185.3.95.25", 70⟩
  refine (rejected_safely_iff _ _ _ _ (fun client known => rep.complete known) _).mpr fun spoils => ?_
  exact (nullOutput_spoils_iff _ _ _).mp spoils (rep.mem_inner.mpr (List.mem_singleton.mpr rfl))

/-- The record of a new pair leaves an entry without a sample. -/
theorem null_latency_spoils_table :
    (∀ client ∈ DnsServer.initial.clientReplicaRoutingTable,
      DnsServer.initial.clientReplicaRoutingTable.Complete client) ∧
    ¬ RejectedSafely (fun _ => none) replicaServers (fun _ => (none : Option (Location ℚ))) (fun _ _ => (0 : ℚ))
      DnsServer.initial (nullOutput "185.3.95.25" "52.53.228.21") := by
  refine ⟨fun client known => absurd known (Dict.not_mem_empty client), fun safely => ?_⟩
  have spoils : SpoilsTable DnsServer.initial.clientReplicaRoutingTable (nullOutput "185.3.95.25" "52.53.228.21") :=
    (nullOutput_spoils_iff _ _ _).mpr (Dict.not_mem_empty _)
  refine (updateLatency_raises_iff _ _).mp (fun raised left run => ?_) spoils
  exact congrArg DnsServer.clientReplicaRoutingTable (safely raised _ (onTable_run_error run)).1

end SimpleCdn
