import SimpleCdn.Dns.Resolve

namespace SimpleCdn

/-- The replica that latency routing owes a client: one that was measured for
it, with the least mean, and among equal means the one measured first. -/
structure LeastMean (h : History) (client replica : Key) : Prop where
  sampled : replica ∈ h.replicas client
  least : ∀ other ∈ h.replicas client, h.mean client replica ≤ h.mean client other
  first : ∀ other ∈ h.replicas client, other ≠ replica → h.mean client other = h.mean client replica →
    (h.replicas client).idxOf replica < (h.replicas client).idxOf other

/-- The first key of least mean, in the order of the inner dictionary, is the
first measured replica of least mean. -/
theorem Represents.least_mean {table : RoutingTable} {h : History} (rep : Represents table h)
    {client replica : Key} (least : (table.inner client).keys.argmin (h.mean client) = some replica) :
    LeastMean h client replica := by
  rw [rep.order] at least
  obtain ⟨member, below, earlier⟩ := List.mem_argmin_iff.mp (Option.mem_def.mpr least)
  have sampled := List.mem_eraseDups.mp member
  refine ⟨sampled, fun other here => below other (List.mem_eraseDups.mpr here), ?_⟩
  intro other here differs equal
  have notLater := earlier other (List.mem_eraseDups.mpr here) equal.le
  have distinct : (h.replicas client).eraseDups.idxOf replica ≠ (h.replicas client).eraseDups.idxOf other :=
    fun same => differs (List.idxOf_inj member |>.mp same).symm
  exact (idxOf_eraseDups_lt_iff sampled here).mp (lt_of_le_of_ne notLater distinct)

section
variable {R D : Type} [LinearOrder D] (loads : String → Option Json) (replicas : List String)
  (city : String → Option (Location R)) (distanceBetweenLocations : R × R → R × R → D)

/-- After any records, a client with a measurement is sent to the replica of
least mean, and answering it changes nothing. -/
theorem resolve_least_mean (records : List ScamperRecord) (server : DnsServer)
    (fresh : server.clientReplicaRoutingTable = ∅) (address : Address)
    (recorded : ∃ m ∈ recordedBy records, m.client = .string address.1) (post : HttpPost) :
    ∃ after replica, (updateRecords records).run server = .ok () after ∧
      (resolve loads replicas city distanceBetweenLocations post address).run after = .ok replica after ∧
      LeastMean (recordedBy records) (.string address.1) replica := by
  have processed := updateRecords_run records server
  rw [fresh] at processed
  let after := server.withTable ((recordedBy records).foldl RoutingTable.record ∅)
  have rep : Represents after.clientReplicaRoutingTable (recordedBy records) := by
    simpa [after] using represents_empty.record_all (recordedBy records)
  obtain ⟨m, member, atClient⟩ := recorded
  have known := (rep.clients (.string address.1)).mpr
    (List.ne_nil_of_mem (History.mem_replicas.mpr ⟨m, member, atClient, rfl⟩))
  obtain ⟨replica, least, run⟩ := resolve_run_known loads replicas city distanceBetweenLocations
    rep known post
  exact ⟨after, replica, processed, run, rep.least_mean least⟩

end

theorem resolve_least_mean_two_replicas :
    ∃ after replica,
      (updateRecords [.ping "139.144.69.56" "52.53.228.21" 80 (by decide),
        .ping "185.3.95.25" "52.53.228.21" 70 (by decide)]).run DnsServer.initial = .ok () after ∧
      (resolve (fun _ => none) replicaServers (fun _ => (none : Option (Location ℚ))) (fun _ _ => (0 : ℚ))
        (fun _ _ => none) ("52.53.228.21", 53)).run after = .ok replica after ∧
      LeastMean (recordedBy [.ping "139.144.69.56" "52.53.228.21" 80 (by decide),
        .ping "185.3.95.25" "52.53.228.21" 70 (by decide)]) (.string "52.53.228.21") replica :=
  resolve_least_mean _ _ _ _ _ DnsServer.initial rfl ("52.53.228.21", 53)
    ⟨⟨.string "52.53.228.21", .string "139.144.69.56", 80⟩, List.mem_cons_self .., rfl⟩ _

end SimpleCdn
