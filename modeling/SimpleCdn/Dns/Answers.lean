import SimpleCdn.Dns.Resolve

namespace SimpleCdn

/-- An answer to a ping request that raises nothing: there is one, and each of
its lines that is not empty is a JSON value that `update_latency` accepts. -/
def Handled (loads : String → Option Json) (answer : Option HttpResponse) : Prop :=
  ∃ response, answer = some response ∧ ∀ line ∈ responseLines response.text,
    ∃ value found, loads line = some value ∧ value.measurement = .ok found

theorem onTable_keeps_clients {α : Type} (call : TableM α) (clients : List String) :
    Keeps (fun server : DnsServer => server.clients = clients) (onTable call) := by
  intro server same
  cases run : call.run server.clientReplicaRoutingTable with
  | ok value table => rwa [onTable_run_ok run]
  | error raised table => rwa [onTable_run_error run]

section PingRounds
variable {loads : String → Option Json}

theorem updateLatency_returns_iff (output : Json) (server : DnsServer) :
    Returns (onTable (updateLatency output)) server ↔ ∃ found, output.measurement = .ok found := by
  cases read : output.measurement with
  | ok found => exact ⟨fun _ => ⟨found, rfl⟩, fun _ =>
      ⟨(), _, onTable_run_ok (updateLatency_run_ok read _)⟩⟩
  | error raised =>
    obtain ⟨left, run⟩ := updateLatency_run_error read server.clientReplicaRoutingTable
    constructor
    · rintro ⟨value, after, returned⟩
      rw [onTable_run_error run] at returned
      cases returned
    · rintro ⟨found, accepted⟩
      cases accepted

theorem handleOutput_returns_iff (output : Option Json) (server : DnsServer) :
    Returns (handleOutput (fun value => onTable (updateLatency value)) output) server ↔
      ∃ value found, output = some value ∧ value.measurement = .ok found := by
  cases output with
  | some value =>
    rw [handleOutput, updateLatency_returns_iff]
    constructor
    · rintro ⟨found, accepted⟩
      exact ⟨value, found, rfl, accepted⟩
    · rintro ⟨_, found, same, accepted⟩
      cases same
      exact ⟨found, accepted⟩
  | none =>
    constructor
    · rintro ⟨value, after, returned⟩
      cases returned
    · rintro ⟨value, found, same, _⟩
      cases same

theorem pingReplica_returns_iff (post : HttpPost) (replica : String) (server : DnsServer) :
    Returns (pingReplica loads post replica) server ↔
      Handled loads (post (pingUrl replica) (" ".intercalate server.clients)) := by
  unfold Handled Returns
  simp only [pingReplica, EStateM.run_bind, EStateM.run_get]
  cases post (pingUrl replica) (" ".intercalate server.clients) with
  | none =>
    constructor
    · rintro ⟨value, after, returned⟩
      cases returned
    · rintro ⟨response, same, _⟩
      cases same
  | some response =>
    have lines := forM_returns_iff (fun _ => True) (l := (responseLines response.text).map loads)
      (fun _ _ _ _ => trivial) (fun output _ server _ => handleOutput_returns_iff output server)
      (s := server) trivial
    rw [← handleResponse_eq, List.forall_mem_map] at lines
    refine lines.trans ⟨fun all => ⟨response, rfl, all⟩, ?_⟩
    rintro ⟨_, same, all⟩
    cases same
    exact all

/-- A round returns when the request to every replica is handled. -/
theorem pingReplicaServers_returns_iff (replicas : List String) (post : HttpPost) (server : DnsServer) :
    Returns (pingReplicaServers loads replicas post) server ↔
      ∀ replica ∈ replicas, Handled loads (post (pingUrl replica) (" ".intercalate server.clients)) := by
  refine forM_returns_iff (fun s => s.clients = server.clients)
    (fun replica _ => pingReplica_keeps fun _ _ _ _ _ value _ => onTable_keeps_clients (updateLatency value) _)
    (fun replica _ s same => ?_) rfl
  rw [pingReplica_returns_iff, same]

end PingRounds

section Answers
variable {R D : Type} [LinearOrder D] (loads : String → Option Json) (replicas : List String)
  (city : String → Option (Location R)) (distanceBetweenLocations : R × R → R × R → D)

/-- The replica that is chosen is the first of least distance. -/
theorem findClosestReplicaServer_argmin {σ : Type} {sourceIp : String} {source : R × R}
    (found : findLocationCoordinates city sourceIp = .ok source) {coordinates : String → R × R}
    (located : ∀ replica ∈ replicas, findLocationCoordinates city replica = .ok (coordinates replica)) (s : σ) :
    (findClosestReplicaServer city distanceBetweenLocations replicas sourceIp).run s =
      .ok ((replicas.argmin fun repl => distanceBetweenLocations source (coordinates repl)).getD defaultReplicaServer)
        s := by
  have scan : (minByKey (fun repl => do
      let there ← raising (findLocationCoordinates city repl)
      return distanceBetweenLocations source there) replicas).run s =
        .ok (replicas.argmin fun repl => distanceBetweenLocations source (coordinates repl)) s := by
    refine minByKey_run fun repl member => ?_
    rw [located repl member]
    rfl
  simp only [findClosestReplicaServer, found, EStateM.run_bind, raising_ok, scan]
  rfl

theorem findClosestReplicaServer_run {σ : Type} {sourceIp : String} {source : R × R}
    (found : findLocationCoordinates city sourceIp = .ok source)
    (located : ∀ replica ∈ replicas, ∃ coordinates, findLocationCoordinates city replica = .ok coordinates)
    (nonempty : replicas ≠ []) (s : σ) :
    ∃ closest ∈ replicas,
      (findClosestReplicaServer city distanceBetweenLocations replicas sourceIp).run s = .ok closest s := by
  have here : ∀ replica ∈ replicas, findLocationCoordinates city replica =
      .ok ((findLocationCoordinates city replica).toOption.getD source) := by
    intro replica member
    obtain ⟨coordinates, there⟩ := located replica member
    simp [there, Except.toOption]
  rw [findClosestReplicaServer_argmin replicas city distanceBetweenLocations found here]
  cases least : replicas.argmin fun repl =>
      distanceBetweenLocations source ((findLocationCoordinates city repl).toOption.getD source) with
  | none => exact absurd (List.argmin_eq_none.mp least) nonempty
  | some closest => exact ⟨closest, List.argmin_mem (Option.mem_def.mpr least), rfl⟩

/-- A query is answered with the address of a replica server. -/
def GivesReplica (post : HttpPost) (server : DnsServer) (address : Address) : Prop :=
  ∃ answer after, (resolve loads replicas city distanceBetweenLocations post address).run server =
      .ok answer after ∧ ∃ replica ∈ replicaServers, answer = .string replica

/-- What an answer depends on. A client of the table needs finished entries. Any
other client needs an answer to every ping request, in lines that can be read,
and coordinates of its own. -/
def Answerable (post : HttpPost) (server : DnsServer) (address : Address) : Prop :=
  if .string address.1 ∈ server.clientReplicaRoutingTable then
    server.clientReplicaRoutingTable.Complete (.string address.1)
  else
    (∀ replica ∈ replicas, Handled loads
      (post (pingUrl replica) (" ".intercalate (server.addClient address.1).clients))) ∧
    ∃ coordinates, findLocationCoordinates city address.1 = .ok coordinates

theorem resolve_run_unknown {server : DnsServer} {address : Address}
    (unknown : .string address.1 ∉ server.clientReplicaRoutingTable) (post : HttpPost) :
    (resolve loads replicas city distanceBetweenLocations post address).run server =
      (pingReplicaServers loads replicas post >>= fun _ => do
        return Key.string (← findClosestReplicaServer city distanceBetweenLocations replicas address.1)).run
          (server.addClient address.1) := by
  simp only [resolve, EStateM.run_bind, EStateM.run_get, if_neg unknown, EStateM.run_modify]

theorem resolve_unknown_returns {server : DnsServer} {address : Address}
    (unknown : .string address.1 ∉ server.clientReplicaRoutingTable) {post : HttpPost}
    (returns : Returns (resolve loads replicas city distanceBetweenLocations post address) server) :
    (∀ replica ∈ replicas, Handled loads
      (post (pingUrl replica) (" ".intercalate (server.addClient address.1).clients))) ∧
    ∃ coordinates, findLocationCoordinates city address.1 = .ok coordinates := by
  obtain ⟨answer, after, run⟩ := returns
  rw [resolve_run_unknown loads replicas city distanceBetweenLocations unknown] at run
  obtain ⟨_, middle, pinged, later⟩ := returns_bind_iff.mp ⟨answer, after, run⟩
  refine ⟨(pingReplicaServers_returns_iff replicas post _).mp ⟨_, middle, pinged⟩, ?_⟩
  obtain ⟨closest, last, chosen, _⟩ := returns_bind_iff.mp later
  cases found : findLocationCoordinates city address.1 with
  | ok coordinates => exact ⟨coordinates, rfl⟩
  | error raised =>
    simp only [findClosestReplicaServer, found, EStateM.run_bind, raising_error] at chosen
    cases chosen

/-- In every state, whatever happened before, a query returns just when the
table, the replicas and the location database give it what it needs. -/
theorem resolve_returns_iff (order : replicas.Perm replicaServers)
    (located : ∀ replica ∈ replicaServers, ∃ coordinates,
      findLocationCoordinates city replica = .ok coordinates)
    (post : HttpPost) (server : DnsServer) (address : Address) :
    Returns (resolve loads replicas city distanceBetweenLocations post address) server ↔
      Answerable loads replicas city post server address := by
  unfold Answerable
  by_cases known : .string address.1 ∈ server.clientReplicaRoutingTable
  · rw [if_pos known]
    have same : (resolve loads replicas city distanceBetweenLocations post address).run server =
        (onTable (leastLatency (.string address.1))).run server := by
      simp only [resolve, EStateM.run_bind, EStateM.run_get, if_pos known]
    rw [Returns, same]
    constructor
    · rintro ⟨answer, after, run⟩
      cases table : (leastLatency (.string address.1)).run server.clientReplicaRoutingTable with
      | ok replica left => exact leastLatency_complete known ⟨replica, left, table⟩
      | error raised left =>
        rw [onTable_run_error table] at run
        cases run
    · intro complete
      obtain ⟨replica, _, run⟩ := leastLatency_run known complete
      exact ⟨replica, server, onTable_run_ok run⟩
  · rw [if_neg known]
    constructor
    · exact resolve_unknown_returns loads replicas city distanceBetweenLocations known
    · rintro ⟨handled, coordinates, found⟩
      have nonempty : replicas ≠ [] := by
        rintro rfl
        exact absurd order.length_eq (by decide)
      obtain ⟨_, middle, pinged⟩ := (pingReplicaServers_returns_iff replicas post _).mpr handled
      obtain ⟨closest, _, chosen⟩ := findClosestReplicaServer_run replicas city distanceBetweenLocations
        found (fun replica here => located replica (order.mem_iff.mp here)) nonempty middle
      refine ⟨.string closest, middle, ?_⟩
      rw [resolve_run_unknown loads replicas city distanceBetweenLocations known, EStateM.run_bind, pinged]
      simp only [EStateM.run_bind, chosen, EStateM.run_pure]

end Answers

end SimpleCdn
