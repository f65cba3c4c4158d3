import SimpleCdn.Dns.Runs

namespace SimpleCdn

/-- What a run of the server can be seen to do: a query comes, it starts a
round of pings, a replica is asked, `update_latency` is called. -/
inductive Event
  | query (clientIp : String)
  | measure
  | request (replica : String)
  | update (output : Json)

abbrev Trace := List Event

/-- One thing that happens to the server, with what the replicas answer in it. -/
inductive Step
  | query (post : HttpPost) (address : Address)
  | round (post : HttpPost)

def Step.post : Step → HttpPost
  | query post _ => post
  | round post => post

/-- The JSON values among the lines that the replicas answer with are of this kind. -/
def AnswersWith (loads : String → Option Json) (replicas : List String) (kind : Json → Prop) (post : HttpPost) :
    Prop :=
  ∀ replica ∈ replicas, ∀ data response, post (pingUrl replica) data = some response →
    ∀ line ∈ responseLines response.text, ∀ value, loads line = some value → kind value

def Scampers (loads : String → Option Json) (replicas : List String) (post : HttpPost) : Prop :=
  AnswersWith loads replicas IsScamper post

abbrev TracedM := EStateM PyError (DnsServer × Trace)

namespace Traced
variable (loads : String → Option Json)

/-- The functions of the server, with their events. -/
def update (output : Json) : TracedM Unit := observed [.update output] (onTable (updateLatency output))

def pingReplica (post : HttpPost) (replica : String) : TracedM Unit := do
  observed [.request replica] (pure () : ServerM Unit)
  match post (pingUrl replica) (" ".intercalate (← get).1.clients) with
  | some response => handleResponse loads update response
  | none => throw .connectionError

def pingReplicaServers (replicas : List String) (post : HttpPost) : TracedM Unit :=
  forM replicas (pingReplica loads post)

section Resolve
variable {R D : Type} [LinearOrder D] (replicas : List String) (city : String → Option (Location R))
  (distanceBetweenLocations : R × R → R × R → D)

def resolve (post : HttpPost) (clientAddress : Address) : TracedM Key := do
  let clientIp := clientAddress.1
  observed [.query clientIp] (pure () : ServerM Unit)
  if .string clientIp ∈ (← get).1.clientReplicaRoutingTable then
    observed [] (onTable (leastLatency (.string clientIp)))
  else
    observed [.measure] (modify fun server => server.addClient clientIp : ServerM Unit)
    pingReplicaServers loads replicas post
    return .string (← findClosestReplicaServer city distanceBetweenLocations replicas clientIp)

end Resolve

theorem update_forgets (output : Json) : Forgets (update output) (onTable (updateLatency output)) :=
  Forgets.observed _ _

theorem handleResponse_forgets (response : HttpResponse) : Forgets (handleResponse loads update response)
    (handleResponse loads (fun output => onTable (updateLatency output)) response) := by
  rw [handleResponse_eq, handleResponse_eq]
  refine Forgets.forM fun output _ => ?_
  cases output with
  | some value => exact update_forgets value
  | none => exact Forgets.throw PyError.jsonDecodeError

theorem pingReplica_run (post : HttpPost) (replica : String) (server : DnsServer) (trace : Trace) :
    (pingReplica loads post replica).run (server, trace) =
      (match post (pingUrl replica) (" ".intercalate server.clients) with
        | some response => handleResponse loads update response
        | none => throw .connectionError : TracedM Unit).run (server, trace ++ [.request replica]) := by
  simp only [pingReplica, EStateM.run_bind, EStateM.run_get]
  rw [observed_run_ok (EStateM.run_pure () server)]

theorem pingReplica_forgets (post : HttpPost) (replica : String) :
    Forgets (pingReplica loads post replica) (SimpleCdn.pingReplica loads post replica) := by
  intro server trace
  rw [pingReplica_run]
  simp only [SimpleCdn.pingReplica, EStateM.run_bind, EStateM.run_get]
  cases post (pingUrl replica) (" ".intercalate server.clients) with
  | some response => exact handleResponse_forgets loads response _ _
  | none => rfl

theorem pingReplicaServers_forgets (replicas : List String) (post : HttpPost) :
    Forgets (pingReplicaServers loads replicas post) (SimpleCdn.pingReplicaServers loads replicas post) :=
  Forgets.forM fun replica _ => pingReplica_forgets loads post replica

theorem findClosestReplicaServer_forgets {R D : Type} [LinearOrder D] (replicas : List String)
    (city : String → Option (Location R)) (distanceBetweenLocations : R × R → R × R → D) (sourceIp : String) :
    Forgets (findClosestReplicaServer city distanceBetweenLocations replicas sourceIp : TracedM String)
      (findClosestReplicaServer city distanceBetweenLocations replicas sourceIp : ServerM String) := by
  have reads : ∀ ip, Forgets (raising (findLocationCoordinates city ip) : TracedM (R × R))
      (raising (findLocationCoordinates city ip)) := by
    intro ip
    cases findLocationCoordinates city ip with
    | ok coordinates => exact Forgets.pure coordinates
    | error raised => exact Forgets.throw raised
  refine Forgets.bind (reads sourceIp) fun source => Forgets.bind (Forgets.minByKey fun repl => ?_) fun closest => ?_
  · exact Forgets.bind (reads repl) fun coordinates => Forgets.pure _
  · exact Forgets.pure _

theorem resolve_run {R D : Type} [LinearOrder D] (replicas : List String) (city : String → Option (Location R))
    (distanceBetweenLocations : R × R → R × R → D) (post : HttpPost) (address : Address) (server : DnsServer)
    (trace : Trace) :
    (resolve loads replicas city distanceBetweenLocations post address).run (server, trace) =
      (if .string address.1 ∈ server.clientReplicaRoutingTable then
        observed [] (onTable (leastLatency (.string address.1)))
      else do
        observed [.measure] (modify fun server => server.addClient address.1 : ServerM Unit)
        pingReplicaServers loads replicas post
        return .string (← findClosestReplicaServer city distanceBetweenLocations replicas address.1) :
          TracedM Key).run (server, trace ++ [.query address.1]) := by
  simp only [resolve, EStateM.run_bind, EStateM.run_get]
  rw [observed_run_ok (EStateM.run_pure () server)]

theorem resolve_forgets {R D : Type} [LinearOrder D] (replicas : List String)
    (city : String → Option (Location R)) (distanceBetweenLocations : R × R → R × R → D) (post : HttpPost)
    (address : Address) : Forgets (resolve loads replicas city distanceBetweenLocations post address)
      (SimpleCdn.resolve loads replicas city distanceBetweenLocations post address) := by
  intro server trace
  rw [resolve_run]
  simp only [SimpleCdn.resolve, EStateM.run_bind, EStateM.run_get]
  by_cases known : .string address.1 ∈ server.clientReplicaRoutingTable
  · rw [if_pos known, if_pos known]
    exact Forgets.observed _ _ server _
  · rw [if_neg known, if_neg known]
    refine Forgets.bind (Forgets.observed _ _) (fun _ => ?_) server _
    refine Forgets.bind (pingReplicaServers_forgets loads replicas post) fun _ => ?_
    exact Forgets.bind (findClosestReplicaServer_forgets replicas city distanceBetweenLocations address.1)
      fun closest => Forgets.pure _

/-- What is kept by a request and by each call for an answer is kept by a round. -/
theorem pingReplicaServers_keeps {loads : String → Option Json} {replicas : List String} {post : HttpPost}
    {kind : Json → Prop} {inv : DnsServer × Trace → Prop}
    (requests : ∀ server trace replica, inv (server, trace) → inv (server, trace ++ [.request replica]))
    (updates : ∀ output, kind output → Keeps inv (update output))
    (answers : AnswersWith loads replicas kind post) :
    Keeps inv (pingReplicaServers loads replicas post) := by
  refine Keeps.forM fun replica asked => ?_
  rintro ⟨server, trace⟩ start
  have next := requests server trace replica start
  rw [pingReplica_run]
  cases answer : post (pingUrl replica) (" ".intercalate server.clients) with
  | none => exact next
  | some response =>
    simp only [handleResponse_eq]
    refine Keeps.forM (fun output member => ?_) _ next
    obtain ⟨line, inText, rfl⟩ := List.mem_map.mp member
    cases parsed : loads line with
    | none => exact Keeps.throw PyError.jsonDecodeError
    | some value => exact updates value (answers replica asked _ response answer line inText value parsed)

section Queries
variable {R D : Type} [LinearOrder D] (loads : String → Option Json) (replicas : List String)
  (city : String → Option (Location R)) (distanceBetweenLocations : R × R → R × R → D)

/-- A client that the table knows is answered from it, and nothing else happens. -/
theorem resolve_run_known {server : DnsServer} {h : History}
    (rep : Represents server.clientReplicaRoutingTable h) {address : Address}
    (known : .string address.1 ∈ server.clientReplicaRoutingTable) (post : HttpPost) (trace : Trace) :
    ∃ answer, (resolve loads replicas city distanceBetweenLocations post address).run (server, trace) =
      .ok answer (server, trace ++ [.query address.1]) := by
  obtain ⟨answer, _, run⟩ := leastLatency_run known (rep.complete known)
  refine ⟨answer, ?_⟩
  rw [resolve_run, if_pos known, observed_run_ok (onTable_run_ok run), List.append_nil]
  rfl

theorem resolve_run_unknown {server : DnsServer} {address : Address}
    (unknown : .string address.1 ∉ server.clientReplicaRoutingTable) (post : HttpPost) (trace : Trace) :
    (resolve loads replicas city distanceBetweenLocations post address).run (server, trace) =
      (pingReplicaServers loads replicas post >>= fun _ => do
        return Key.string (← findClosestReplicaServer city distanceBetweenLocations replicas address.1)).run
          (server.addClient address.1, trace ++ [.query address.1] ++ [.measure]) := by
  have added : (modify fun server => server.addClient address.1 : ServerM Unit).run server =
    .ok () (server.addClient address.1) := rfl
  rw [resolve_run, if_neg unknown, EStateM.run_bind, observed_run_ok added]

/-- What a round keeps is kept by a query that starts one. -/
theorem resolve_keeps_unknown {inv : DnsServer × Trace → Prop} {post : HttpPost}
    (round : Keeps inv (pingReplicaServers loads replicas post)) {server : DnsServer} {address : Address}
    (unknown : .string address.1 ∉ server.clientReplicaRoutingTable) (trace : Trace)
    (start : inv (server.addClient address.1, trace ++ [.query address.1] ++ [.measure])) :
    inv (finalState ((resolve loads replicas city distanceBetweenLocations post address).run (server, trace))) := by
  rw [resolve_run_unknown loads replicas city distanceBetweenLocations unknown]
  refine Keeps.bind round (fun _ => ?_) _ start
  exact Keeps.bind (findClosestReplicaServer_keeps replicas city distanceBetweenLocations inv address.1)
    fun closest => Keeps.pure _

end Queries

section Runs
variable {R D : Type} [LinearOrder D] (loads : String → Option Json) (replicas : List String)
  (city : String → Option (Location R)) (distanceBetweenLocations : R × R → R × R → D)

def step : Step → DnsServer × Trace → DnsServer × Trace
  | .query post address, state =>
    finalState ((resolve loads replicas city distanceBetweenLocations post address).run state)
  | .round post, state => finalState ((pingReplicaServers loads replicas post).run state)

/-- The states and traces that a sequence of queries and rounds leads to. -/
inductive Run (allowed : DnsServer × Trace → Step → Prop) : DnsServer × Trace → Prop
  | start : Run allowed (DnsServer.initial, [])
  | next {state : DnsServer × Trace} (action : Step) : Run allowed state → allowed state action →
      Run allowed (step loads replicas city distanceBetweenLocations action state)

variable {loads replicas city distanceBetweenLocations}

theorem Run.invariant {allowed : DnsServer × Trace → Step → Prop} (inv : DnsServer × Trace → Prop)
    {state : DnsServer × Trace} (run : Run loads replicas city distanceBetweenLocations allowed state)
    (start : inv (DnsServer.initial, []))
    (queries : ∀ state post address, inv state → allowed state (.query post address) →
      inv (finalState ((resolve loads replicas city distanceBetweenLocations post address).run state)))
    (rounds : ∀ state post, inv state → allowed state (.round post) →
      inv (finalState ((pingReplicaServers loads replicas post).run state))) : inv state := by
  induction run with
  | start => exact start
  | @next before action _ fits ih =>
    cases action with
    | query post address => exact queries before post address ih fits
    | round post => exact rounds before post ih fits

/-- Without their traces, these are the states of the server's runs. -/
theorem reachable_iff_run {allowed : HttpPost → Prop} {server : DnsServer} :
    Reachable loads replicas city distanceBetweenLocations allowed server ↔
      ∃ trace, Run loads replicas city distanceBetweenLocations (fun _ action => allowed action.post)
        (server, trace) := by
  constructor
  · intro reach
    induction reach with
    | start => exact ⟨[], .start⟩
    | @query before post address _ fits ih =>
      obtain ⟨trace, run⟩ := ih
      rw [← (resolve_forgets loads replicas city distanceBetweenLocations post address).finalState before trace]
      exact ⟨_, run.next (.query post address) fits⟩
    | @round before post _ fits ih =>
      obtain ⟨trace, run⟩ := ih
      rw [← (pingReplicaServers_forgets loads replicas post).finalState before trace]
      exact ⟨_, run.next (.round post) fits⟩
  · rintro ⟨trace, run⟩
    refine Run.invariant (fun state => Reachable loads replicas city distanceBetweenLocations allowed state.1) run
      .start ?_ ?_
    · rintro ⟨server, trace⟩ post address reach fits
      rw [(resolve_forgets loads replicas city distanceBetweenLocations post address).finalState server trace]
      exact reach.query post address fits
    · rintro ⟨server, trace⟩ post reach fits
      rw [(pingReplicaServers_forgets loads replicas post).finalState server trace]
      exact reach.round post fits

end Runs

end Traced

end SimpleCdn
