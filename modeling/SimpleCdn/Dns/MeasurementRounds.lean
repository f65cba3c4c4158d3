import SimpleCdn.Dns.Totals
import Mathlib.Data.Finset.Card

namespace SimpleCdn

def Event.querier : Event → Option String
  | query clientIp => some clientIp
  | _ => none

def Event.isMeasure : Event → Bool
  | measure => true
  | _ => false

namespace Trace

/-- The clients of the queries, once for each query. -/
def queriers (trace : Trace) : List String := trace.filterMap Event.querier

/-- How many rounds of pings were started by queries. -/
def rounds (trace : Trace) : Nat := trace.countP Event.isMeasure

theorem queriers_append (trace : Trace) (event : Event) :
    queriers (trace ++ [event]) = trace.queriers ++ event.querier.toList := by
  rw [queriers, List.filterMap_append, ← queriers]
  cases event <;> simp [Event.querier]

theorem rounds_append (trace : Trace) (event : Event) :
    rounds (trace ++ [event]) = trace.rounds + if event.isMeasure then 1 else 0 := by
  rw [rounds, List.countP_append, ← rounds]
  cases event <;> simp [Event.isMeasure]

end Trace

/-- The table has been given an entry for the client. -/
def Trace.Measured (trace : Trace) (clientIp : String) : Prop :=
  ∃ replica, trace.recordedAvgs (.string clientIp) replica ≠ []

/-- When a client comes back, some ping of it has been answered in the meantime. -/
def Step.MeasuredOnReturn (trace : Trace) : Step → Prop
  | query _ address => address.1 ∈ trace.queriers → trace.Measured address.1
  | round _ => True

theorem Recorded.measured_iff {state : DnsServer × Trace} (recorded : Recorded state) (clientIp : String) :
    state.2.Measured clientIp ↔ .string clientIp ∈ state.1.clientReplicaRoutingTable := by
  have pinged : ∀ replica, state.2.recordedAvgs (.string clientIp) replica ≠ [] ↔
      replica ∈ state.2.history.replicas (.string clientIp) := by
    intro replica
    rw [Trace.recordedAvgs_eq recorded.scampers, History.latencies_nonempty_iff]
  rw [recorded.table.clients]
  constructor
  · rintro ⟨replica, measured⟩
    exact List.ne_nil_of_mem ((pinged replica).mp measured)
  · intro nonempty
    obtain ⟨replica, member⟩ := List.exists_mem_of_ne_nil _ nonempty
    exact ⟨replica, (pinged replica).mpr member⟩

section Rounds
variable (loads : String → Option Json) (replicas : List String) (post : HttpPost)

/-- The answers do not matter where only the events are looked at. -/
theorem answersWith_any : AnswersWith loads replicas (fun _ => True) post :=
  fun _ _ _ _ _ _ _ _ _ => trivial

/-- In a round of pings no query is answered and no further round started. -/
theorem Traced.pingReplicaServers_counts (queriers : List String) (rounds : Nat) :
    Keeps (fun state => state.2.queriers = queriers ∧ state.2.rounds = rounds)
      (Traced.pingReplicaServers loads replicas post) := by
  refine Traced.pingReplicaServers_keeps ?_ ?_ (answersWith_any loads replicas post)
  · rintro server trace replica ⟨sameQueriers, sameRounds⟩
    simp [Trace.queriers_append, Trace.rounds_append, Event.querier, Event.isMeasure, sameQueriers, sameRounds]
  · intro output _
    refine observed_keeps fun server trace => ?_
    rintro ⟨sameQueriers, sameRounds⟩
    simp [Trace.queriers_append, Trace.rounds_append, Event.querier, Event.isMeasure, sameQueriers, sameRounds]

theorem Traced.pingReplicaServers_prefix (start : Trace) :
    Keeps (fun state => start <+: state.2) (Traced.pingReplicaServers loads replicas post) := by
  refine Traced.pingReplicaServers_keeps ?_ ?_ (answersWith_any loads replicas post)
  · exact fun server trace replica before => before.trans (List.prefix_append _ _)
  · exact fun output _ => observed_keeps fun server trace before => before.trans (List.prefix_append _ _)

variable {loads replicas post}

/-- A round in which nothing is measured leaves the table as it was. -/
theorem Traced.pingReplicaServers_blocked
    (blocked : AnswersWith loads replicas (fun output => output.measurement = .ok none) post) (table : RoutingTable) :
    Keeps (fun state => state.1.clientReplicaRoutingTable = table)
      (Traced.pingReplicaServers loads replicas post) := by
  refine Traced.pingReplicaServers_keeps (fun server trace replica same => same) ?_ blocked
  intro output read
  refine observed_keeps fun server trace same => ?_
  rw [onTable_run_ok (updateLatency_run_ok read _)]
  exact same

end Rounds

section Runs
variable {R D : Type} [LinearOrder D] {loads : String → Option Json} {replicas : List String}
  {city : String → Option (Location R)} {distanceBetweenLocations : R × R → R × R → D}

/-- The query is answered, and nothing is to be seen but the query itself. -/
def AnsweredAtOnce (loads : String → Option Json) (replicas : List String) (city : String → Option (Location R))
    (distanceBetweenLocations : R × R → R × R → D) (post : HttpPost) (address : Address)
    (state : DnsServer × Trace) :
    Prop :=
  ∃ answer, (Traced.resolve loads replicas city distanceBetweenLocations post address).run state =
    .ok answer (state.1, state.2 ++ [.query address.1])

variable (loads replicas city distanceBetweenLocations) in
/-- A client that the table does not know costs a round. -/
theorem resolve_counts_unknown {server : DnsServer} {address : Address}
    (unknown : .string address.1 ∉ server.clientReplicaRoutingTable) (post : HttpPost) (trace : Trace) :
    let after := finalState ((Traced.resolve loads replicas city distanceBetweenLocations post address).run
      (server, trace))
    after.2.queriers = trace.queriers ++ [address.1] ∧ after.2.rounds = trace.rounds + 1 := by
  have queriers : Trace.queriers (trace ++ [.query address.1] ++ [.measure]) = trace.queriers ++ [address.1] := by
    rw [Trace.queriers_append, Trace.queriers_append]
    exact List.append_nil _
  have rounds : Trace.rounds (trace ++ [.query address.1] ++ [.measure]) = trace.rounds + 1 := by
    rw [Trace.rounds_append, Trace.rounds_append]
    rfl
  exact Traced.resolve_keeps_unknown loads replicas city distanceBetweenLocations
    (Traced.pingReplicaServers_counts loads replicas post _ _) unknown trace ⟨queriers, rounds⟩

theorem answeredAtOnce_iff {state : DnsServer × Trace} (recorded : Recorded state) (post : HttpPost)
    (address : Address) :
    AnsweredAtOnce loads replicas city distanceBetweenLocations post address state ↔
      state.2.Measured address.1 := by
  obtain ⟨server, trace⟩ := state
  rw [recorded.measured_iff]
  constructor
  · rintro ⟨answer, run⟩
    by_contra unknown
    have started := Traced.resolve_keeps_unknown loads replicas city distanceBetweenLocations
      (Traced.pingReplicaServers_prefix loads replicas post (trace ++ [.query address.1] ++ [.measure])) unknown
      trace (List.prefix_refl _)
    rw [run] at started
    have longer := started.length_le
    simp at longer
  · exact fun known => Traced.resolve_run_known loads replicas city distanceBetweenLocations recorded.table known
      post trace

/-- A client costs one round at most: as many rounds as clients have been
started by queries, and a client that comes back is answered at once. -/
structure OneRoundEach (loads : String → Option Json) (replicas : List String)
    (city : String → Option (Location R))
    (distanceBetweenLocations : R × R → R × R → D) (state : DnsServer × Trace) : Prop where
  rounds : state.2.rounds ≤ state.2.queriers.toFinset.card
  later : ∀ post address, address.1 ∈ state.2.queriers →
    (AnsweredAtOnce loads replicas city distanceBetweenLocations post address state ↔ state.2.Measured address.1)

theorem one_round_each {state : DnsServer × Trace}
    (run : Traced.Run loads replicas city distanceBetweenLocations (fun state action =>
      Scampers loads replicas action.post ∧ action.MeasuredOnReturn state.2) state) :
    OneRoundEach loads replicas city distanceBetweenLocations state := by
  have recorded := Recorded.of_run (fun _ _ fits => fits.1) run
  refine ⟨?_, fun post address _ => answeredAtOnce_iff recorded post address⟩
  have invariant := run.invariant
    (fun state => Recorded state ∧ state.2.rounds ≤ state.2.queriers.toFinset.card)
    ⟨⟨represents_empty, fun _ member => absurd member List.not_mem_nil⟩, le_rfl⟩ ?_ ?_
  · exact invariant.2
  · rintro ⟨server, trace⟩ post address ⟨recorded, below⟩ ⟨answers, onReturn⟩
    have scampers : Scampers loads replicas post := answers
    refine ⟨Recorded.resolve scampers address _ recorded, ?_⟩
    by_cases known : .string address.1 ∈ server.clientReplicaRoutingTable
    · obtain ⟨answer, run⟩ :=
        Traced.resolve_run_known loads replicas city distanceBetweenLocations recorded.table known post trace
      rw [run, finalState_ok, Trace.rounds_append, Trace.queriers_append, List.toFinset_append]
      exact below.trans (Finset.card_le_card Finset.subset_union_left)
    · have new : address.1 ∉ trace.queriers := fun seen => known ((recorded.measured_iff _).mp (onReturn seen))
      have counted := resolve_counts_unknown loads replicas city distanceBetweenLocations known post trace
      rw [counted.1, counted.2, List.toFinset_append, Finset.card_union_of_disjoint]
      · simpa using below
      · simpa using new
  · rintro ⟨server, trace⟩ post ⟨recorded, below⟩ ⟨answers, _⟩
    have scampers : Scampers loads replicas post := answers
    refine ⟨Recorded.pingReplicaServers scampers _ recorded, ?_⟩
    have counted := Traced.pingReplicaServers_counts loads replicas post trace.queriers trace.rounds
      (server, trace) ⟨rfl, rfl⟩
    rw [counted.1, counted.2]
    exact below

end Runs

theorem one_round_each_after_query :
    OneRoundEach (loadsPing "185.3.95.25") replicaServers oneCity difference
      (Traced.step (loadsPing "185.3.95.25") replicaServers oneCity difference
        (.query (printsPing "185.3.95.25") ("52.53.228.21", 53)) (DnsServer.initial, [])) :=
  one_round_each (.next (.query (printsPing "185.3.95.25") ("52.53.228.21", 53)) .start
    ⟨scampers_printsPing "185.3.95.25", fun seen => absurd seen List.not_mem_nil⟩)

/-- Every replica can be reached, and prints records only. -/
def AllAnswer (loads : String → Option Json) (replicas : List String) (post : HttpPost) : Prop :=
  ∀ replica ∈ replicas, ∀ data, ∃ response, post (pingUrl replica) data = some response ∧
    ∀ line ∈ responseLines response.text, ∃ record : ScamperRecord, loads line = some record.output

/-- The line that scamper prints for a ping that was not answered. -/
def blockedLine (dst : String) : String := blockedHead ++ dst ++ blockedTail
where
  blockedHead := "\x7b\"type\":\"ping\",\"src\":\"185.3.95.25\",\"dst\":\""
  blockedTail := "\",\"statistics\":\x7b\x7d\x7d"

theorem blockedLine_nonempty (dst : String) : blockedLine dst ≠ "" := by
  intro empty
  have nothing : blockedLine.blockedTail = "" := (String.append_eq_empty_iff.mp empty).2
  exact absurd nothing (by decide)

theorem blockedLine_oneLine {dst : String} (plain : '\n' ∉ dst.toList) : '\n' ∉ (blockedLine dst).toList := by
  rw [blockedLine, String.toList_append, String.toList_append, List.mem_append, List.mem_append, not_or, not_or]
  exact ⟨⟨by decide, plain⟩, by decide⟩

def blockedOutput (dst : String) : Json :=
  .object [("type", .string "ping"), ("src", .string "185.3.95.25"), ("dst", .string dst), ("statistics", .object [])]

def blockedRecord (dst : String) : ScamperRecord where
  output := blockedOutput dst
  scamper := .ping "185.3.95.25" dst [] rfl rfl rfl rfl fun _ found => by cases found

def pingedClients : List String := DnsServer.initial.clients ++ ["203.0.113.7"]

theorem pingedClients_plain : ∀ dst ∈ pingedClients, '\n' ∉ dst.toList := by decide

def loadsBlocked (line : String) : Option Json :=
  (pingedClients.find? fun dst => line = blockedLine dst).map blockedOutput

/-- Every replica prints a line for every client, and none of them answers pings. -/
def allBlocked : HttpPost := fun _ _ =>
  some ⟨200, String.join ((pingedClients.map blockedLine).map (·.push '\n'))⟩

theorem allBlocked_answers : AllAnswer loadsBlocked replicaServers allBlocked := by
  have lines : responseLines (String.join ((pingedClients.map blockedLine).map (·.push '\n'))) =
      pingedClients.map blockedLine := by
    refine responseLines_terminated ?_ ?_
    · intro line member
      obtain ⟨dst, _, rfl⟩ := List.mem_map.mp member
      exact blockedLine_nonempty dst
    · intro line member
      obtain ⟨dst, pinged, rfl⟩ := List.mem_map.mp member
      exact blockedLine_oneLine (pingedClients_plain dst pinged)
  intro replica _ data
  refine ⟨_, rfl, fun line member => ?_⟩
  rw [lines] at member
  obtain ⟨dst, pinged, rfl⟩ := List.mem_map.mp member
  cases found : pingedClients.find? fun other => blockedLine dst = blockedLine other with
  | none => exact absurd rfl (of_decide_eq_false (Bool.eq_false_iff.mpr (List.find?_eq_none.mp found dst pinged)))
  | some other => exact ⟨blockedRecord other, by rw [loadsBlocked, found]; rfl⟩

theorem allBlocked_blocked :
    AnswersWith loadsBlocked replicaServers (fun output => output.measurement = .ok none) allBlocked := by
  intro replica _ data response _ line _ value parsed
  obtain ⟨dst, _, rfl⟩ := Option.map_eq_some_iff.mp parsed
  rfl

theorem allBlocked_scampers : Scampers loadsBlocked replicaServers allBlocked := by
  intro replica _ data response _ line _ value parsed
  obtain ⟨dst, _, rfl⟩ := Option.map_eq_some_iff.mp parsed
  exact (blockedRecord dst).scamper

/-- A run in which all pings are blocked. -/
abbrev BlockedRun := Traced.Run loadsBlocked replicaServers oneCity difference fun _ action =>
  AllAnswer loadsBlocked replicaServers action.post ∧ Scampers loadsBlocked replicaServers action.post

def returningClient : Address := ("203.0.113.7", 53)

/-- A client that answers no pings can start any number of rounds. -/
theorem blocked_client_rounds (visits : Nat) : ∃ state, BlockedRun state ∧
    state.1.clientReplicaRoutingTable = ∅ ∧ state.2.queriers = List.replicate visits returningClient.1 ∧
      state.2.rounds = visits := by
  induction visits with
  | zero => exact ⟨_, .start, rfl, rfl, rfl⟩
  | succ visits ih =>
    obtain ⟨⟨server, trace⟩, run, empty, queriers, rounds⟩ := ih
    have unknown : .string returningClient.1 ∉ server.clientReplicaRoutingTable := by
      rw [empty]
      exact Dict.not_mem_empty _
    have counted := resolve_counts_unknown loadsBlocked replicaServers oneCity difference unknown allBlocked trace
    have still := Traced.resolve_keeps_unknown loadsBlocked replicaServers oneCity difference
      (Traced.pingReplicaServers_blocked allBlocked_blocked ∅) unknown trace (by simpa using empty)
    refine ⟨_, run.next (.query allBlocked returningClient) ⟨allBlocked_answers, allBlocked_scampers⟩, still,
      ?_, ?_⟩
    · rw [List.replicate_succ', ← queriers]
      exact counted.1
    · rw [← rounds]
      exact counted.2

/-- One client has asked twice, and two rounds were started. -/
theorem blocked_client_measured_twice :
    ∃ state, BlockedRun state ∧ ¬ state.2.rounds ≤ state.2.queriers.toFinset.card := by
  obtain ⟨state, run, _, queriers, rounds⟩ := blocked_client_rounds 2
  refine ⟨state, run, ?_⟩
  rw [queriers, rounds]
  decide

end SimpleCdn
