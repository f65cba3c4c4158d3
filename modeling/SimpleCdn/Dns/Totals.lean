import SimpleCdn.Dns.Traces
import Mathlib.Algebra.Order.BigOperators.Group.List

namespace SimpleCdn

/-- The entry holds the totals of these latencies, of which there is one at
least, and their mean is between its two bounds. -/
structure Entry.SumsUp (entry : Entry) (latencies : List ℚ) : Prop where
  sum : entry.sum = latencies.sum
  min : entry.min = latencies.minimum
  max : (entry.max : WithBot ℚ) = latencies.maximum
  samples : entry.samples = latencies.length
  sampled : 1 ≤ entry.samples
  above : ∃ least : ℚ, entry.min = least ∧ entry.samples * least ≤ entry.sum
  below : entry.sum ≤ entry.samples * entry.max

theorem Entry.ofLatencies_min (latencies : List ℚ) : (Entry.ofLatencies latencies).min = latencies.minimum := by
  induction latencies using List.reverseRecOn with
  | nil => rfl
  | append_singleton earlier latency ih =>
    rw [Entry.ofLatencies_append, List.minimum_concat, ← ih, min_comm]
    rfl

/-- The maximum starts below every latency that is not negative. -/
theorem Entry.ofLatencies_max (latencies : List ℚ) :
    ((Entry.ofLatencies latencies).max : WithBot ℚ) = Max.max ((-1 : ℚ) : WithBot ℚ) latencies.maximum := by
  induction latencies using List.reverseRecOn with
  | nil => rfl
  | append_singleton earlier latency ih =>
    rw [Entry.ofLatencies_append, List.maximum_concat, ← max_assoc, ← ih, max_comm, Entry.add]
    exact WithBot.coe_max _ _

theorem Entry.ofLatencies_sumsUp {latencies : List ℚ} (nonempty : latencies ≠ [])
    (nonneg : ∀ latency ∈ latencies, 0 ≤ latency) : (Entry.ofLatencies latencies).SumsUp latencies := by
  obtain ⟨least, isLeast⟩ := WithTop.ne_top_iff_exists.mp (List.minimum_ne_top_of_ne_nil nonempty)
  obtain ⟨greatest, isGreatest⟩ := WithBot.ne_bot_iff_exists.mp (List.maximum_ne_bot_of_ne_nil nonempty)
  have lower := (List.minimum_eq_coe_iff.mp isLeast.symm).2
  obtain ⟨reached, upper⟩ := List.maximum_eq_coe_iff.mp isGreatest.symm
  have maximum : ((Entry.ofLatencies latencies).max : WithBot ℚ) = latencies.maximum := by
    rw [Entry.ofLatencies_max, ← isGreatest, max_eq_right]
    exact WithBot.coe_le_coe.mpr (neg_one_lt_zero.le.trans (nonneg greatest reached))
  have atGreatest : (Entry.ofLatencies latencies).max = greatest := by
    rw [← isGreatest] at maximum
    exact WithBot.coe_inj.mp maximum
  refine ⟨Entry.ofLatencies_sum _, Entry.ofLatencies_min _, maximum, Entry.ofLatencies_samples _, ?_,
    ⟨least, ?_, ?_⟩, ?_⟩
  · rw [Entry.ofLatencies_samples]
    exact List.length_pos_of_ne_nil nonempty
  · rw [Entry.ofLatencies_min, isLeast]
  · rw [Entry.ofLatencies_sum, Entry.ofLatencies_samples, ← nsmul_eq_mul]
    exact List.card_nsmul_le_sum latencies least lower
  · rw [Entry.ofLatencies_sum, Entry.ofLatencies_samples, atGreatest, ← nsmul_eq_mul]
    exact List.sum_le_card_nsmul latencies greatest upper

/-- The `avg` of a ping record that is from this replica and to this client. -/
def Json.avgBetween (client replica : Key) (output : Json) : Option ℚ :=
  match output.item "type", output.item "dst", output.item "src", output.item "statistics" with
  | .ok (.string "ping"), .ok (.string dst), .ok (.string src), .ok (.object statistics) =>
    if client = .string dst ∧ replica = .string src then
      match findEntry "avg" statistics with
      | some (.number avg) => some avg
      | _ => none
    else none
  | _, _, _, _ => none

def Event.avgBetween (client replica : Key) : Event → Option ℚ
  | update output => output.avgBetween client replica
  | _ => none

namespace Trace

/-- The `avg` values of the pings between these two that `update_latency` was
called for, oldest first. -/
def recordedAvgs (trace : Trace) (client replica : Key) : List ℚ :=
  trace.filterMap (Event.avgBetween client replica)

end Trace

def Event.measured : Event → Option Measurement
  | update output =>
    match output.measurement with
    | .ok found => found
    | .error _ => none
  | _ => none

def Trace.history (trace : Trace) : History := trace.filterMap Event.measured

/-- What `update_latency` reads of a record is the `avg` of a ping. -/
theorem IsScamper.avgBetween_eq {output : Json} (scamper : IsScamper output) (client replica : Key) :
    output.avgBetween client replica = (Event.measured (.update output)).bind fun m =>
      if m.client = client ∧ m.replica = replica then some m.latency else none := by
  cases scamper with
  | other type typed notPing =>
    simp only [Event.measured, Json.measurement_other typed notPing]
    unfold Json.avgBetween
    rw [typed]
    split
    · rename_i same _ _ _
      cases same
      exact absurd rfl notPing
    · rfl
  | ping src dst statistics typed atSrc atDst atStatistics timed =>
    simp only [Json.avgBetween, typed, atSrc, atDst, atStatistics]
    cases found : findEntry "avg" statistics with
    | none => simp [Event.measured, Json.measurement_blocked typed atStatistics found]
    | some avg =>
      obtain ⟨latency, rfl, _⟩ := timed avg found
      simp [Event.measured, Json.measurement_ping typed atSrc atDst atStatistics found, eq_comm]

theorem Trace.recordedAvgs_eq {trace : Trace} (scampers : ∀ output, .update output ∈ trace → IsScamper output)
    (client replica : Key) : trace.recordedAvgs client replica = trace.history.latencies client replica := by
  induction trace with
  | nil => rfl
  | cons event rest ih =>
    have later := ih fun output member => scampers output (List.mem_cons_of_mem event member)
    have here : event.avgBetween client replica = event.measured.bind fun m =>
        if m.client = client ∧ m.replica = replica then some m.latency else none := by
      cases event with
      | update output => exact (scampers output (List.mem_cons_self ..)).avgBetween_eq client replica
      | _ => rfl
    rw [recordedAvgs, history, List.filterMap_cons, List.filterMap_cons, here]
    rw [recordedAvgs, history] at later
    cases event.measured with
    | none => exact later
    | some m =>
      by_cases same : m.client = client ∧ m.replica = replica
      · simp [History.latencies, same, later]
      · simp [History.latencies, same, later]

theorem Trace.history_append (trace : Trace) (event : Event) :
    history (trace ++ [event]) = trace.history ++ event.measured.toList := by
  rw [history, List.filterMap_append, ← history]
  cases found : event.measured <;> simp [found]

/-- The table is the summary of what has been recorded on the way. -/
structure Recorded (state : DnsServer × Trace) : Prop where
  table : Represents state.1.clientReplicaRoutingTable state.2.history
  scampers : ∀ output, .update output ∈ state.2 → IsScamper output

namespace Recorded

/-- An event that is no update leaves the summary as it is. -/
theorem quiet {server after : DnsServer} {trace : Trace} (recorded : Recorded (server, trace))
    (same : after.clientReplicaRoutingTable = server.clientReplicaRoutingTable) {event : Event}
    (noUpdate : ∀ output, event ≠ .update output) : Recorded (after, trace ++ [event]) where
  table := by
    have nothing : event.measured = none := by
      cases event with
      | update output => exact absurd rfl (noUpdate output)
      | _ => rfl
    simpa [Trace.history_append, nothing, same] using recorded.table
  scampers output member := by
    rcases List.mem_append.mp member with old | new
    · exact recorded.scampers output old
    · exact absurd (List.mem_singleton.mp new).symm (noUpdate output)

theorem update {output : Json} (scamper : IsScamper output) : Keeps Recorded (Traced.update output) := by
  refine observed_keeps fun server trace recorded => ?_
  obtain ⟨found, read, _⟩ := scamper.measurement
  rw [onTable_run_ok (updateLatency_run_ok read _), finalState_ok]
  refine ⟨?_, fun other member => ?_⟩
  · simp only [DnsServer.withTable_table, Trace.history_append]
    cases found with
    | none => simpa [Event.measured, read] using recorded.table
    | some m => simpa [Event.measured, read] using recorded.table.record m
  · rcases List.mem_append.mp member with old | new
    · exact recorded.scampers other old
    · cases List.mem_singleton.mp new
      exact scamper

variable {loads : String → Option Json} {replicas : List String} {post : HttpPost}

theorem pingReplicaServers (scampers : Scampers loads replicas post) :
    Keeps Recorded (Traced.pingReplicaServers loads replicas post) :=
  Traced.pingReplicaServers_keeps (fun _ _ _ recorded => recorded.quiet rfl (by simp)) (fun _ => update) scampers

section Runs
variable {R D : Type} [LinearOrder D] {city : String → Option (Location R)}
  {distanceBetweenLocations : R × R → R × R → D}

theorem resolve (scampers : Scampers loads replicas post) (address : Address) :
    Keeps Recorded (Traced.resolve loads replicas city distanceBetweenLocations post address) := by
  rintro ⟨server, trace⟩ recorded
  have asked : Recorded (server, trace ++ [.query address.1]) := recorded.quiet rfl (by simp)
  by_cases known : .string address.1 ∈ server.clientReplicaRoutingTable
  · obtain ⟨answer, run⟩ :=
      Traced.resolve_run_known loads replicas city distanceBetweenLocations recorded.table known post trace
    rw [run]
    exact asked
  · exact Traced.resolve_keeps_unknown loads replicas city distanceBetweenLocations (pingReplicaServers scampers)
      known trace (asked.quiet (by simp) (by simp))

theorem of_run {allowed : DnsServer × Trace → Step → Prop} {state : DnsServer × Trace}
    (scampers : ∀ state action, allowed state action → Scampers loads replicas action.post)
    (run : Traced.Run loads replicas city distanceBetweenLocations allowed state) : Recorded state := by
  refine run.invariant Recorded ⟨represents_empty, fun _ member => absurd member List.not_mem_nil⟩ ?_ ?_
  · exact fun state post address recorded fits => resolve (scampers _ _ fits) address state recorded
  · exact fun state post recorded fits => pingReplicaServers (scampers _ _ fits) state recorded

end Runs

theorem nonneg {state : DnsServer × Trace} (recorded : Recorded state) {client replica : Key} :
    ∀ latency ∈ state.2.history.latencies client replica, 0 ≤ latency := by
  intro latency member
  obtain ⟨m, inHistory, rfl⟩ := List.mem_map.mp member
  obtain ⟨event, inTrace, measured⟩ := List.mem_filterMap.mp (List.mem_of_mem_filter inHistory)
  cases event with
  | update output =>
    obtain ⟨found, read, fits⟩ := (recorded.scampers output inTrace).measurement
    simp only [Event.measured, read] at measured
    exact (fits m measured).2.2
  | _ => cases measured

end Recorded

/-- There is an entry for a client and a replica just when a ping between them
with an `avg` has been processed, it holds the totals of exactly these values,
and no client has an empty table. -/
structure TableSumsUp (state : DnsServer × Trace) : Prop where
  present : ∀ client replica, replica ∈ state.1.clientReplicaRoutingTable.inner client ↔
    state.2.recordedAvgs client replica ≠ []
  totals : ∀ client replica entry, (state.1.clientReplicaRoutingTable.inner client).get? replica = some entry →
    entry.SumsUp (state.2.recordedAvgs client replica)
  nonempty : ∀ client ∈ state.1.clientReplicaRoutingTable,
    (state.1.clientReplicaRoutingTable.inner client).keys ≠ []

theorem Recorded.tableSumsUp {state : DnsServer × Trace} (recorded : Recorded state) : TableSumsUp state := by
  have present : ∀ client replica, replica ∈ state.1.clientReplicaRoutingTable.inner client ↔
      state.2.recordedAvgs client replica ≠ [] := by
    intro client replica
    rw [Trace.recordedAvgs_eq recorded.scampers]
    exact recorded.table.mem_inner.trans History.latencies_nonempty_iff.symm
  refine ⟨present, fun client replica entry found => ?_, fun client known => (recorded.table.complete known).1⟩
  have sampled := (present client replica).mp (Dict.mem_iff_get?.mpr ⟨entry, found⟩)
  have same : state.1.clientReplicaRoutingTable.entry client replica = entry := by
    simp [RoutingTable.entry, found]
  rw [Trace.recordedAvgs_eq recorded.scampers] at sampled ⊢
  rw [← same, recorded.table.entries]
  exact Entry.ofLatencies_sumsUp sampled recorded.nonneg

/-- After any queries and rounds the table is the summary of the measurements
that were recorded in them. -/
theorem table_sums_up {R D : Type} [LinearOrder D] {loads : String → Option Json} {replicas : List String}
    {city : String → Option (Location R)} {distanceBetweenLocations : R × R → R × R → D}
    {state : DnsServer × Trace}
    (run : Traced.Run loads replicas city distanceBetweenLocations
      (fun _ action => Scampers loads replicas action.post) state) : TableSumsUp state :=
  (Recorded.of_run (fun _ _ fits => fits) run).tableSumsUp

theorem scampers_printsPing (src : String) : Scampers (loadsPing src) replicaServers (printsPing src) := by
  intro replica _ data response _ line _ value parsed
  rw [loadsPing_eq_some parsed]
  exact (ScamperRecord.ping src "52.53.228.21" 70 (by decide)).scamper

def pinged (src : String) : DnsServer × Trace :=
  Traced.step (loadsPing src) replicaServers oneCity difference (.round (printsPing src)) (DnsServer.initial, [])

theorem table_sums_up_after_ping : TableSumsUp (pinged "185.3.95.25") :=
  table_sums_up (.next (.round (printsPing "185.3.95.25")) .start (scampers_printsPing "185.3.95.25"))

end SimpleCdn
