import SimpleCdn.Dns.Answers
import SimpleCdn.Dns.PingRounds
import SimpleCdn.Replica.Ping

namespace SimpleCdn

/-- What comes of scamper on a replica: it prints objects, or is not started. -/
inductive ScamperRun
  | ran (objects : List Json)
  | failed (message : String)

namespace ScamperRun

def objects : ScamperRun → List Json
  | ran objects => objects
  | failed _ => []

def result (dumps : Json → String) : ScamperRun → CommandResult
  | ran objects => .output (String.join ((objects.map dumps).map (·.push '\n')))
  | failed message => .error message

end ScamperRun

/-- A value is printed as one line of text, and parsed back from it. -/
structure Prints (loads : String → Option Json) (dumps : Json → String) (value : Json) : Prop where
  nonempty : dumps value ≠ ""
  oneLine : '\n' ∉ (dumps value).toList
  inverse : loads (dumps value) = some value

section Exchange
variable (loads : String → Option Json) (dumps : Json → String)

/-- The objects that `update_latency` is called on for an answer, in order. -/
def updatesApplied (response : HttpResponse) (server : DnsServer) : List Json :=
  (finalState ((handleResponse loads (logged fun output => onTable (updateLatency output)) response).run
    (server, []))).2

/-- The parsed lines up to the first that ends the loop. A rejected value has
been handed to `update_latency`, a line that is no JSON has not. -/
def appliedTo : List (Option Json) → List Json
  | [] => []
  | none :: _ => []
  | some value :: rest =>
    match value.measurement with
    | .ok _ => value :: appliedTo rest
    | .error _ => [value]

theorem forM_logged (outputs : List (Option Json)) (server : DnsServer) (log : List Json) :
    (finalState ((forM outputs
      (handleOutput (logged fun output => onTable (updateLatency output)))).run (server, log))).2 =
        log ++ appliedTo outputs := by
  induction outputs generalizing server log with
  | nil => simp [appliedTo]
  | cons output rest ih =>
    rw [List.forM_cons, EStateM.run_bind]
    cases output with
    | none => simp [handleOutput, appliedTo]
    | some value =>
      rw [appliedTo]
      cases read : value.measurement with
      | ok found =>
        have noted := observed_run_ok (onTable_run_ok (updateLatency_run_ok read server.clientReplicaRoutingTable))
          [value] log
        simp only [handleOutput, logged_eq, noted, ih, List.append_assoc, List.singleton_append]
      | error raised =>
        obtain ⟨left, run⟩ := updateLatency_run_error read server.clientReplicaRoutingTable
        have noted := observed_run_error (onTable_run_error run) [value] log
        simp only [handleOutput, logged_eq, noted, finalState_error]

theorem updatesApplied_eq (response : HttpResponse) (server : DnsServer) :
    updatesApplied loads response server = appliedTo ((responseLines response.text).map loads) := by
  rw [updatesApplied, handleResponse_eq, forM_logged, List.nil_append]

theorem appliedTo_eq_iff (values : List Json) :
    appliedTo (values.map some) = values ↔
      ∀ value ∈ values.dropLast, ∃ found, value.measurement = .ok found := by
  induction values with
  | nil => simp [appliedTo]
  | cons value rest ih =>
    rw [List.map_cons, appliedTo]
    cases rest with
    | nil => cases value.measurement <;> simp [appliedTo]
    | cons next others =>
      rw [List.dropLast_cons_of_ne_nil (List.cons_ne_nil next others), List.forall_mem_cons, ← ih]
      cases read : value.measurement with
      | ok found => simp
      | error raised => simp

/-- The exchange as both programs want it: scamper is run on the clients, and
`update_latency` on what scamper printed, or on nothing at all. -/
def Exchanges (replica : String) (run : ScamperRun) (server : DnsServer) : Prop :=
  let body := " ".intercalate server.clients
  let post : HttpPost := fun _ data => some (ping (fun _ => run.result dumps) data)
  scamperArguments body = scamperOptions ++ server.clients ∧
    match run with
    | .ran objects => updatesApplied loads (ping (fun _ => run.result dumps) body) server = objects
    | .failed _ => updatesApplied loads (ping (fun _ => run.result dumps) body) server = [] ∧
        Returns (pingReplica loads post replica) server

def ScamperRun.Accepted : ScamperRun → Prop
  | ran objects => ∀ value ∈ objects.dropLast, ∃ found, value.measurement = .ok found
  | failed message => responseLines message = []

theorem failed_exchange_iff (replica message : String) (server : DnsServer) :
    (updatesApplied loads ⟨500, message⟩ server = [] ∧
      Returns (pingReplica loads (fun _ _ => some ⟨500, message⟩) replica) server) ↔
        responseLines message = [] := by
  rw [updatesApplied_eq, pingReplica_returns_iff]
  constructor
  · rintro ⟨quiet, response, same, handled⟩
    cases same
    cases lines : responseLines message with
    | nil => rfl
    | cons line rest =>
      obtain ⟨value, found, parsed, read⟩ := handled line (by simp [lines])
      simp [lines, parsed, appliedTo, read] at quiet
  · intro empty
    refine ⟨by simp [empty, appliedTo], _, rfl, fun line member => ?_⟩
    rw [empty] at member
    cases member

/-- The exchange works just when `update_latency` rejects nothing that another
object follows, and when the text of a failure has no line at all. -/
theorem ping_exchange_iff {server : DnsServer} (ipv4 : ∀ client ∈ server.clients, IsIpv4 client)
    {run : ScamperRun} (prints : ∀ value ∈ run.objects, Prints loads dumps value) (replica : String) :
    Exchanges loads dumps replica run server ↔ run.Accepted := by
  unfold Exchanges
  simp only [scamperArguments_join ipv4, true_and]
  cases run with
  | failed message => exact failed_exchange_iff loads replica message server
  | ran objects =>
    have lines : responseLines (String.join ((objects.map dumps).map (·.push '\n'))) = objects.map dumps := by
      refine responseLines_terminated ?_ ?_
      · intro line member
        obtain ⟨value, printed, rfl⟩ := List.mem_map.mp member
        exact (prints value printed).nonempty
      · intro line member
        obtain ⟨value, printed, rfl⟩ := List.mem_map.mp member
        exact (prints value printed).oneLine
    have parsed : (objects.map dumps).map loads = objects.map some := by
      rw [List.map_map]
      exact List.map_congr_left fun value printed => (prints value printed).inverse
    rw [updatesApplied_eq]
    simp only [ping, ScamperRun.result, lines, parsed]
    exact appliedTo_eq_iff objects

end Exchange

theorem initial_clients_ipv4 : ∀ client ∈ DnsServer.initial.clients, IsIpv4 client := by
  simp only [DnsServer.initial, List.forall_mem_cons]
  exact ⟨⟨35, 175, 146, 183, by decide⟩, ⟨52, 53, 228, 21, by decide⟩, ⟨18, 192, 115, 31, by decide⟩,
    ⟨18, 134, 159, 46, by decide⟩, ⟨43, 206, 138, 184, by decide⟩, fun _ member => by cases member⟩

/-- A record that ends where the statistics should be. -/
def unfinished : Json := .object [("type", .string "ping")]

def cycleStop : Json := .object [("type", .string "cycle-stop")]

/-- One line for each kind of record. -/
def dumpsKinds (value : Json) : String :=
  match value.measurement with
  | .ok (some _) => pingLine "185.3.95.25"
  | .ok none => "\x7b\"type\":\"cycle-stop\"\x7d"
  | .error _ => "\x7b\"type\":\"ping\"\x7d"

def loadsKinds (line : String) : Option Json :=
  [pingOutput "185.3.95.25" "52.53.228.21" 70, cycleStop, unfinished].find? fun value => dumpsKinds value = line

/-- The last record is rejected, but nothing is lost behind it. -/
theorem ping_exchange_last_rejected : unfinished.measurement = .error .keyError ∧
    Exchanges loadsKinds dumpsKinds "185.3.95.25"
      (.ran [pingOutput "185.3.95.25" "52.53.228.21" 70, cycleStop, unfinished]) DnsServer.initial := by
  refine ⟨rfl, (ping_exchange_iff loadsKinds dumpsKinds initial_clients_ipv4 ?_ _).mpr ?_⟩
  · intro value member
    rcases List.mem_cons.mp member with rfl | member
    · exact ⟨by decide, by decide, rfl⟩
    · rcases List.mem_cons.mp member with rfl | member
      · exact ⟨by decide, by decide, rfl⟩
      · rw [List.mem_singleton.mp member]
        exact ⟨by decide, by decide, rfl⟩
  · intro value member
    rcases List.mem_cons.mp member with rfl | member
    · exact ⟨_, rfl⟩
    · rw [List.mem_singleton.mp member]
      exact ⟨_, rfl⟩

/-- Scamper is not installed. The text of the error is no JSON, and the DNS
server raises. -/
theorem spawn_failure_raises :
    ¬ Exchanges (fun _ => none) (fun _ => "") "185.3.95.25"
      (.failed "No such file or directory (os error 2)") DnsServer.initial := by
  rintro ⟨_, _, returns⟩
  obtain ⟨response, same, handled⟩ := (pingReplica_returns_iff _ _ _).mp returns
  cases same
  have lines : responseLines "No such file or directory (os error 2)" =
      ["No such file or directory (os error 2)"] :=
    responseLines_of_oneLine (by decide) (by decide)
  obtain ⟨value, found, parsed, _⟩ := handled "No such file or directory (os error 2)" (by
    simp only [ping, ScamperRun.result, lines, List.mem_singleton])
  cases parsed

end SimpleCdn
