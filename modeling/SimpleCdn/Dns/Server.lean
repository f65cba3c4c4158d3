import SimpleCdn.Wire
import SimpleCdn.Lib.Text
import SimpleCdn.Dns.Summary

namespace SimpleCdn

/-- `REPLICA_SERVERS`. The order in which the set is visited is a parameter of
the functions that visit it. -/
def replicaServers : List String :=
  ["139.144.30.25", "173.255.210.124", "139.144.69.56", "185.3.95.25", "139.162.83.107",
    "192.46.211.228", "170.187.240.5"]

/-- The module state of the DNS server: the set `CLIENTS`, listed without
repetition in the order it is iterated, and the routing table. -/
structure DnsServer where
  clients : List String
  clients_nodup : clients.Nodup
  clientReplicaRoutingTable : RoutingTable

namespace DnsServer

/-- The state when the module has been loaded. -/
def initial : DnsServer where
  clients := ["35.175.146.183", "52.53.228.21", "18.192.115.31", "18.134.159.46", "43.206.138.184"]
  clients_nodup := by decide
  clientReplicaRoutingTable := ∅

def withTable (server : DnsServer) (table : RoutingTable) : DnsServer :=
  { server with clientReplicaRoutingTable := table }

/-- `CLIENTS.add(client_ip)`. -/
def addClient (server : DnsServer) (clientIp : String) : DnsServer :=
  if new : clientIp ∈ server.clients then server
  else { server with
    clients := server.clients ++ [clientIp]
    clients_nodup := List.nodup_append.mpr ⟨server.clients_nodup, List.nodup_singleton clientIp,
      fun a left b right same => new (by rwa [← List.mem_singleton.mp right, ← same])⟩ }

@[simp] theorem withTable_table (server : DnsServer) (table : RoutingTable) :
    (server.withTable table).clientReplicaRoutingTable = table := rfl

@[simp] theorem addClient_table (server : DnsServer) (clientIp : String) :
    (server.addClient clientIp).clientReplicaRoutingTable = server.clientReplicaRoutingTable := by
  unfold addClient
  split <;> rfl

end DnsServer

abbrev ServerM := EStateM PyError DnsServer

/-- A computation on the routing table alone. What it wrote before an
exception stays in the server's table. -/
def onTable {α : Type} (call : TableM α) : ServerM α := fun server =>
  match call.run server.clientReplicaRoutingTable with
  | .ok value table => .ok value (server.withTable table)
  | .error raised table => .error raised (server.withTable table)

theorem onTable_run_ok {α : Type} {call : TableM α} {server : DnsServer} {value : α} {table : RoutingTable}
    (run : call.run server.clientReplicaRoutingTable = .ok value table) :
    (onTable call).run server = .ok value (server.withTable table) := by
  simp only [EStateM.run, onTable]
  rw [show call server.clientReplicaRoutingTable = .ok value table from run]

theorem onTable_run_error {α : Type} {call : TableM α} {server : DnsServer} {raised : PyError}
    {table : RoutingTable} (run : call.run server.clientReplicaRoutingTable = .error raised table) :
    (onTable call).run server = .error raised (server.withTable table) := by
  simp only [EStateM.run, onTable]
  rw [show call server.clientReplicaRoutingTable = .error raised table from run]

/-- The answer to a POST of some data to a URL; `none` where the request fails
and `requests.post` raises. -/
abbrev HttpPost := String → String → Option HttpResponse

def pingUrl (replica : String) : String := "http://" ++ replica ++ ":25015/ping"

theorem pingUrl_injective : Function.Injective pingUrl := by
  intro replica other same
  have texts := congrArg String.toList same
  simp only [pingUrl, String.toList_append, List.append_cancel_left_eq, List.append_cancel_right_eq] at texts
  exact String.toList_injective texts

section PingRounds
variable (loads : String → Option Json)

/-- What is done with the outcome of `json.loads`. -/
def handleOutput {σ : Type} (update : Json → EStateM PyError σ Unit) : Option Json → EStateM PyError σ Unit
  | some value => update value
  | none => throw .jsonDecodeError

/-- The inner loop of `ping_replica_servers`: every line that is not empty is
parsed and handed on. -/
def handleResponse {σ : Type} (update : Json → EStateM PyError σ Unit) (response : HttpResponse) :
    EStateM PyError σ Unit :=
  forM (splitOnChar '\n' response.text) fun output =>
    if output ≠ "" then handleOutput update (loads output) else return ()

def pingReplica (post : HttpPost) (replica : String) : ServerM Unit := do
  match post (pingUrl replica) (" ".intercalate (← get).clients) with
  | some response => handleResponse loads (fun output => onTable (updateLatency output)) response
  | none => throw .connectionError

def pingReplicaServers (replicas : List String) (post : HttpPost) : ServerM Unit :=
  forM replicas (pingReplica loads post)

/-- The first `n` rounds of `ping_thread`. The sleep between two rounds changes
nothing, and an exception ends the thread. -/
def pingThread (replicas : List String) (posts : Nat → HttpPost) (n : Nat) : ServerM Unit :=
  forM (List.range n) fun round => pingReplicaServers loads replicas (posts round)

end PingRounds

def responseLines (text : String) : List String := (splitOnChar '\n' text).filter (· ≠ "")

theorem responseLines_terminated {lines : List String} (nonempty : ∀ line ∈ lines, line ≠ "")
    (oneLine : ∀ line ∈ lines, '\n' ∉ line.toList) :
    responseLines (String.join (lines.map (·.push '\n'))) = lines := by
  have kept : lines.filter (· ≠ "") = lines := by
    rw [List.filter_eq_self]
    intro line member
    exact decide_eq_true (nonempty line member)
  rw [responseLines, splitOnChar_terminated oneLine, List.filter_append, kept]
  simp

/-- The last line need not be ended. -/
theorem responseLines_of_oneLine {line : String} (nonempty : line ≠ "") (oneLine : '\n' ∉ line.toList) :
    responseLines line = [line] := by
  rw [responseLines, splitOnChar, List.splitOn_eq_singleton oneLine]
  simpa using nonempty

/-- Empty lines do nothing, so only the others are looped over. -/
theorem handleResponse_eq {σ : Type} (loads : String → Option Json)
    (update : Json → EStateM PyError σ Unit) (response : HttpResponse) :
    handleResponse loads update response =
      forM ((responseLines response.text).map loads) (handleOutput update) := by
  unfold handleResponse responseLines
  induction splitOnChar '\n' response.text with
  | nil => rfl
  | cons line rest ih =>
    rw [List.forM_cons, ih]
    by_cases empty : line = "" <;> simp [empty]

/-- A text whose lines all parse is handled like the list of the parsed values. -/
theorem handleResponse_parsed {σ : Type} {loads : String → Option Json} {text : String} {values : List Json}
    (parsed : (responseLines text).map loads = values.map some) (update : Json → EStateM PyError σ Unit)
    (status : Nat) : handleResponse loads update ⟨status, text⟩ = forM values update := by
  rw [handleResponse_eq, parsed, List.forM_map]
  rfl

/-- A ping request keeps what every update with a line of its response keeps. -/
theorem pingReplica_keeps {loads : String → Option Json} {inv : DnsServer → Prop} {post : HttpPost}
    {replica : String} (updates : ∀ data response, post (pingUrl replica) data = some response →
      ∀ line ∈ responseLines response.text, ∀ value, loads line = some value →
        Keeps inv (onTable (updateLatency value))) :
    Keeps inv (pingReplica loads post replica) := by
  intro server start
  simp only [pingReplica, EStateM.run_bind, EStateM.run_get]
  cases answer : post (pingUrl replica) (" ".intercalate server.clients) with
  | none => exact start
  | some response =>
    simp only [handleResponse_eq]
    refine Keeps.forM (fun output member => ?_) server start
    obtain ⟨line, inText, rfl⟩ := List.mem_map.mp member
    cases parsed : loads line with
    | none => exact Keeps.throw PyError.jsonDecodeError
    | some value => exact updates _ response answer line inText value parsed

def updateRecords (records : List ScamperRecord) : ServerM Unit :=
  forM records fun record => onTable (updateLatency record.output)

/-- Scamper's records never raise, and together they record their measurements. -/
theorem updateRecords_run (records : List ScamperRecord) (server : DnsServer) :
    (updateRecords records).run server = .ok ()
      (server.withTable ((recordedBy records).foldl RoutingTable.record server.clientReplicaRoutingTable)) := by
  have each : ∀ record ∈ records, ∀ s : DnsServer, (onTable (updateLatency record.output)).run s = .ok ()
      (s.withTable (record.measurement.elim s.clientReplicaRoutingTable s.clientReplicaRoutingTable.record)) :=
    fun record _ s => onTable_run_ok (updateLatency_run_ok record.measurement_spec _)
  rw [updateRecords, forM_run_ok each, recordedBy_foldl]
  clear each
  induction records generalizing server with
  | nil => rfl
  | cons record rest ih => rw [List.foldl_cons, ih]; rfl

end SimpleCdn
