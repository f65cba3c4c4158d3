import SimpleCdn.Dns.Answers
import SimpleCdn.Dns.LatencyRouting
import SimpleCdn.Dns.PingRounds

namespace SimpleCdn

/-- The server's table summarises a history in which every measurement is of
the given kind. -/
def Summarises (kind : Measurement → Prop) (server : DnsServer) : Prop :=
  ∃ h, Represents server.clientReplicaRoutingTable h ∧ ∀ m ∈ h, kind m

/-- The JSON values among the lines that the replicas answer with are accepted
by `update_latency`, and what it records of them is of the given kind. -/
def Readable (loads : String → Option Json) (replicas : List String) (kind : Measurement → Prop)
    (post : HttpPost) : Prop :=
  ∀ replica ∈ replicas, ∀ data response, post (pingUrl replica) data = some response →
    ∀ line ∈ responseLines response.text, ∀ value, loads line = some value →
      ∃ found, value.measurement = .ok found ∧ ∀ m ∈ found, kind m

theorem updateLatency_keeps {kind : Measurement → Prop} {output : Json} {found : Option Measurement}
    (read : output.measurement = .ok found) (fits : ∀ m ∈ found, kind m) :
    Keeps (Summarises kind) (onTable (updateLatency output)) := by
  rintro server ⟨h, rep, kinds⟩
  rw [onTable_run_ok (updateLatency_run_ok read _)]
  cases found with
  | none => exact ⟨h, rep, kinds⟩
  | some m =>
    refine ⟨h ++ [m], rep.record m, fun other member => ?_⟩
    rcases List.mem_append.mp member with old | new
    · exact kinds other old
    · rw [List.mem_singleton.mp new]
      exact fits m rfl

section Rounds
variable {loads : String → Option Json} {replicas : List String} {kind : Measurement → Prop} {post : HttpPost}

theorem pingReplicaServers_keeps (readable : Readable loads replicas kind post) :
    Keeps (Summarises kind) (pingReplicaServers loads replicas post) :=
  Keeps.forM fun replica asked => pingReplica_keeps fun data response answer line inText value parsed => by
    obtain ⟨found, read, fits⟩ := readable replica asked data response answer line inText value parsed
    exact updateLatency_keeps read fits

end Rounds

section Runs
variable {R D : Type} [LinearOrder D] (loads : String → Option Json) (replicas : List String)
  (city : String → Option (Location R)) (distanceBetweenLocations : R × R → R × R → D)

theorem findClosestReplicaServer_keeps {σ : Type} (inv : σ → Prop) (sourceIp : String) :
    Keeps inv (findClosestReplicaServer city distanceBetweenLocations replicas sourceIp) := by
  have reads : ∀ ip, Keeps inv (raising (findLocationCoordinates city ip) : EStateM PyError σ (R × R)) := by
    intro ip
    cases findLocationCoordinates city ip with
    | ok coordinates => exact Keeps.pure coordinates
    | error raised => exact Keeps.throw raised
  refine Keeps.bind (reads sourceIp) fun source => Keeps.bind (minByKey_keeps (fun repl => ?_) replicas) ?_
  · exact Keeps.bind (reads repl) fun coordinates => Keeps.pure _
  · exact fun closest => Keeps.pure _

/-- Answering a query keeps the summary: a known client is only read, and for a
new one there is a round of pings. -/
theorem resolve_keeps {kind : Measurement → Prop} {post : HttpPost}
    (readable : Readable loads replicas kind post) (address : Address) :
    Keeps (Summarises kind) (resolve loads replicas city distanceBetweenLocations post address) := by
  rintro server ⟨h, rep, kinds⟩
  by_cases known : .string address.1 ∈ server.clientReplicaRoutingTable
  · obtain ⟨replica, _, run⟩ := resolve_run_known loads replicas city distanceBetweenLocations rep known post
    rw [run]
    exact ⟨h, rep, kinds⟩
  · rw [resolve_run_unknown loads replicas city distanceBetweenLocations known]
    refine Keeps.bind (pingReplicaServers_keeps readable) (fun _ => ?_) _ ⟨h, by simpa using rep, kinds⟩
    exact Keeps.bind (findClosestReplicaServer_keeps replicas city distanceBetweenLocations _ _)
      fun _ => Keeps.pure _

/-- The states that a sequence of queries and ping rounds leads to. A call that
ends in an exception leaves what it wrote before. -/
inductive Reachable (allowed : HttpPost → Prop) : DnsServer → Prop
  | start : Reachable allowed DnsServer.initial
  | query {server} (post : HttpPost) (address : Address) : Reachable allowed server → allowed post →
      Reachable allowed
        (finalState ((resolve loads replicas city distanceBetweenLocations post address).run server))
  | round {server} (post : HttpPost) : Reachable allowed server → allowed post →
      Reachable allowed (finalState ((pingReplicaServers loads replicas post).run server))

variable {loads replicas city distanceBetweenLocations}

theorem Reachable.summarises {kind : Measurement → Prop} {server : DnsServer}
    (reach : Reachable loads replicas city distanceBetweenLocations (Readable loads replicas kind) server) :
    Summarises kind server := by
  induction reach with
  | start => exact ⟨[], represents_empty, fun m member => absurd member (List.not_mem_nil)⟩
  | query post address _ readable ih => exact resolve_keeps _ _ _ _ readable address _ ih
  | round post _ readable ih => exact pingReplicaServers_keeps readable _ ih

/-- A measurement whose source is the address of a replica server. -/
def FromReplica (m : Measurement) : Prop := ∃ replica ∈ replicaServers, m.replica = .string replica

theorem findClosestReplicaServer_mem (order : replicas.Perm replicaServers) {σ : Type} {sourceIp closest : String}
    {s t : σ} (run : (findClosestReplicaServer city distanceBetweenLocations replicas sourceIp).run s =
      .ok closest t) : closest ∈ replicaServers := by
  obtain ⟨source, _, _, rest⟩ := bind_run_eq_ok.mp run
  obtain ⟨least, _, scanned, ends⟩ := bind_run_eq_ok.mp rest
  cases ends
  cases least with
  | some replica => exact order.mem_iff.mp (minByKey_mem scanned)
  | none => exact List.mem_cons_self ..

/-- A table that summarises measurements of the replica servers gives one of
them, and so does the comparison of the distances. -/
theorem resolve_mem (order : replicas.Perm replicaServers) {server : DnsServer}
    (summary : Summarises FromReplica server)
    {post : HttpPost} {address : Address} {answer : Key} {after : DnsServer}
    (run : (resolve loads replicas city distanceBetweenLocations post address).run server = .ok answer after) :
    ∃ replica ∈ replicaServers, answer = .string replica := by
  by_cases known : .string address.1 ∈ server.clientReplicaRoutingTable
  · obtain ⟨h, rep, fromReplica⟩ := summary
    obtain ⟨replica, least, returned⟩ :=
      resolve_run_known loads replicas city distanceBetweenLocations rep known post
    rw [run] at returned
    cases returned
    obtain ⟨m, member, _, rfl⟩ := History.mem_replicas.mp (rep.least_mean least).sampled
    exact fromReplica m member
  · rw [resolve_run_unknown loads replicas city distanceBetweenLocations known] at run
    obtain ⟨_, middle, _, rest⟩ := bind_run_eq_ok.mp run
    obtain ⟨closest, _, chosen, ends⟩ := bind_run_eq_ok.mp rest
    cases ends
    exact ⟨closest, findClosestReplicaServer_mem order chosen, rfl⟩

/-- After any queries and rounds in which every JSON value that came was
accepted, and recorded for a replica server, a client is answered with one of
them if the table knows it, and otherwise just when all replicas can be heard
and its own location is known. -/
theorem gives_replica_in_runs_iff (order : replicas.Perm replicaServers)
    (located : ∀ replica ∈ replicaServers, ∃ coordinates,
      findLocationCoordinates city replica = .ok coordinates)
    {server : DnsServer} (reach : Reachable loads replicas city distanceBetweenLocations
      (Readable loads replicas FromReplica) server) (post : HttpPost) (address : Address) :
    GivesReplica loads replicas city distanceBetweenLocations post server address ↔
      .string address.1 ∈ server.clientReplicaRoutingTable ∨
        ((∀ replica ∈ replicas, Handled loads
          (post (pingUrl replica) (" ".intercalate (server.addClient address.1).clients))) ∧
        ∃ coordinates, findLocationCoordinates city address.1 = .ok coordinates) := by
  have returns : Returns (resolve loads replicas city distanceBetweenLocations post address) server ↔
      GivesReplica loads replicas city distanceBetweenLocations post server address := by
    constructor
    · rintro ⟨answer, after, run⟩
      exact ⟨answer, after, run, resolve_mem order reach.summarises run⟩
    · rintro ⟨answer, after, run, _⟩
      exact ⟨answer, after, run⟩
  rw [← returns, resolve_returns_iff loads replicas city distanceBetweenLocations order located, Answerable]
  by_cases known : .string address.1 ∈ server.clientReplicaRoutingTable
  · obtain ⟨h, rep, _⟩ := reach.summarises
    rw [if_pos known]
    exact ⟨fun _ => Or.inl known, fun _ => rep.complete known⟩
  · rw [if_neg known]
    exact ⟨Or.inr, fun either => either.resolve_left known⟩

end Runs

def oneCity (_ : String) : Option (Location ℚ) := some ⟨some 0, some 0⟩

def difference (a b : ℚ × ℚ) : ℚ := a.1 - b.1

/-- Every replica prints one ping of 52.53.228.21, with its own source address. -/
def printsPing (src : String) : HttpPost := fun _ _ => some ⟨200, pingLine src⟩

def afterPing (src : String) : DnsServer :=
  finalState ((pingReplicaServers (loadsPing src) replicaServers (printsPing src)).run DnsServer.initial)

theorem readable_printsPing :
    Readable (loadsPing "185.3.95.25") replicaServers FromReplica (printsPing "185.3.95.25") := by
  intro replica _ data response answer line _ value parsed
  rw [loadsPing_eq_some parsed]
  refine ⟨_, pingOutput_measurement .., ?_⟩
  rintro m ⟨⟩
  exact ⟨"185.3.95.25", by decide, rfl⟩

/-- After a round that has measured one client, that client is answered from the
table, and a new one by its location. -/
theorem gives_replica_after_ping :
    GivesReplica (loadsPing "185.3.95.25") replicaServers oneCity difference (fun _ _ => none)
        (afterPing "185.3.95.25") ("52.53.228.21", 53) ∧
      GivesReplica (loadsPing "185.3.95.25") replicaServers oneCity difference (printsPing "185.3.95.25")
        (afterPing "185.3.95.25") ("203.0.113.7", 53) := by
  have located : ∀ replica ∈ replicaServers, ∃ coordinates,
      findLocationCoordinates oneCity replica = .ok coordinates :=
    fun _ _ => ⟨(0, 0), rfl⟩
  have known : .string "52.53.228.21" ∈ (afterPing "185.3.95.25").clientReplicaRoutingTable := by decide +kernel
  have one : ∀ line ∈ responseLines (pingLine "185.3.95.25"), line = pingLine "185.3.95.25" := by decide +kernel
  constructor
  · exact (gives_replica_in_runs_iff (.refl _) located (.round _ .start readable_printsPing) _ _).mpr (.inl known)
  · refine (gives_replica_in_runs_iff (.refl _) located (.round _ .start readable_printsPing) _ _).mpr
      (.inr ⟨fun replica _ => ⟨_, rfl, fun line member => ?_⟩, (0, 0), rfl⟩)
    rw [one line member]
    exact ⟨_, _, if_pos rfl, pingOutput_measurement ..⟩

/-- No replica can be reached, and a new client gets no answer. -/
theorem no_answer_when_unreachable :
    ∃ server, Reachable (fun _ => none) replicaServers oneCity difference (fun _ => True) server ∧
      ¬ GivesReplica (fun _ => none) replicaServers oneCity difference (fun _ _ => none) server
        ("203.0.113.7", 53) := by
  refine ⟨DnsServer.initial, .start, ?_⟩
  rintro ⟨answer, after, run, _⟩
  have needed := resolve_unknown_returns _ _ _ _ (Dict.not_mem_empty _) ⟨answer, after, run⟩
  obtain ⟨response, answered, _⟩ := needed.1 "139.144.30.25" (List.mem_cons_self ..)
  cases answered

/-- Where every recorded ping came from the address of a replica server, only
replica servers are handed out. -/
theorem only_replicas_handed_out {R D : Type} [LinearOrder D] {loads : String → Option Json}
    {replicas : List String}
    {city : String → Option (Location R)} {distanceBetweenLocations : R × R → R × R → D}
    (order : replicas.Perm replicaServers) {server : DnsServer}
    (reach : Reachable loads replicas city distanceBetweenLocations (Readable loads replicas FromReplica) server)
    {post : HttpPost} {address : Address} {answer : Key} {after : DnsServer}
    (run : (resolve loads replicas city distanceBetweenLocations post address).run server = .ok answer after) :
    ∃ replica ∈ replicaServers, answer = .string replica :=
  resolve_mem order reach.summarises run

theorem only_replicas_handed_out_after_ping :
    ∃ answer, (∃ after, (resolve (loadsPing "185.3.95.25") replicaServers oneCity difference
        (printsPing "185.3.95.25") ("52.53.228.21", 53)).run (afterPing "185.3.95.25") = .ok answer after) ∧
      ∃ replica ∈ replicaServers, answer = .string replica := by
  have run : returned ((resolve (loadsPing "185.3.95.25") replicaServers oneCity difference
      (printsPing "185.3.95.25") ("52.53.228.21", 53)).run (afterPing "185.3.95.25")) =
        some (.string "185.3.95.25") := by
    decide +kernel
  obtain ⟨after, ends⟩ := returned_eq_some.mp run
  exact ⟨_, ⟨after, ends⟩, only_replicas_handed_out (List.Perm.refl _)
    (.round _ .start readable_printsPing) ends⟩

/-- The source address is that of another interface of the replica, and the
client is sent there. -/
theorem interface_address_handed_out :
    ∃ server, Reachable (loadsPing "192.168.144.7") replicaServers oneCity difference
        (fun post => post = printsPing "192.168.144.7") server ∧
      (∃ after, (resolve (loadsPing "192.168.144.7") replicaServers oneCity difference
        (printsPing "192.168.144.7") ("52.53.228.21", 53)).run server = .ok (.string "192.168.144.7") after) ∧
      "192.168.144.7" ∉ replicaServers := by
  refine ⟨afterPing "192.168.144.7", .round _ .start rfl, returned_eq_some.mp ?_, by decide⟩
  decide +kernel

end SimpleCdn
