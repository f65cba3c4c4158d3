import SimpleCdn.Dns.Server

namespace SimpleCdn

/-- An answer whose lines are scamper's records. -/
structure ScamperBody (loads : String → Option Json) where
  response : HttpResponse
  records : List ScamperRecord
  parsed : (responseLines response.text).map loads = (records.map ScamperRecord.output).map some

section Attempts
variable {loads : String → Option Json}

/-- What a request to a replica leads to; `none` where `requests.post` raises. -/
abbrev Attempt (loads : String → Option Json) := Option (ScamperBody loads)

/-- The requests of `n` rounds, in the order in which `ping_thread` makes them. -/
def attempts (outcome : Nat → String → Attempt loads) (replicas : List String) (n : Nat) :
    List (Attempt loads) :=
  (List.range n).flatMap fun round => replicas.map (outcome round)

def answered (tries : List (Attempt loads)) : List ScamperRecord :=
  tries.flatMap fun attempt => attempt.elim [] ScamperBody.records

def Attempt.measurements (attempt : Attempt loads) : History :=
  attempt.elim [] fun body => recordedBy body.records

def Answers (outcome : Nat → String → Attempt loads) (posts : Nat → HttpPost) : Prop :=
  ∀ round replica data, posts round (pingUrl replica) data = (outcome round replica).map ScamperBody.response

def runAttempt : Attempt loads → ServerM Unit
  | some body => updateRecords body.records
  | none => throw .connectionError

/-- No request that is answered with a measurement comes after one that fails. -/
def NothingBehindFailure (tries : List (Attempt loads)) : Prop :=
  tries.Pairwise fun (earlier later : Attempt loads) => earlier = none → later.measurements = []

theorem recordedBy_answered (tries : List (Attempt loads)) :
    recordedBy (answered tries) = tries.flatMap Attempt.measurements := by
  induction tries with
  | nil => rfl
  | cons attempt rest ih =>
    rw [answered, List.flatMap_cons, recordedBy, List.filterMap_append]
    cases attempt with
    | none => exact ih
    | some body => exact congrArg (recordedBy body.records ++ ·) ih

theorem pingReplica_eq {post : HttpPost} {replica : String} {attempt : Attempt loads}
    (answer : ∀ data, post (pingUrl replica) data = attempt.map ScamperBody.response) :
    pingReplica loads post replica = runAttempt attempt := by
  funext server
  have run : (pingReplica loads post replica).run server = (runAttempt attempt).run server := by
    simp only [pingReplica, EStateM.run_bind, EStateM.run_get, answer]
    cases attempt with
    | none => rfl
    | some body =>
      have handled := handleResponse_parsed body.parsed (fun output => onTable (updateLatency output))
        body.response.status
      simp only [Option.map_some]
      rw [handled, List.forM_map]
      rfl
  exact run

/-- The thread makes its requests one after the other and does nothing else. -/
theorem pingThread_eq {outcome : Nat → String → Attempt loads} {posts : Nat → HttpPost}
    (answers : Answers outcome posts) (replicas : List String) (n : Nat) :
    pingThread loads replicas posts n = forM (attempts outcome replicas n) runAttempt := by
  have round : ∀ k, pingReplicaServers loads replicas (posts k) =
      forM (replicas.map (outcome k)) runAttempt := by
    intro k
    have each : pingReplica loads (posts k) = fun replica => runAttempt (outcome k replica) :=
      funext fun replica => pingReplica_eq (answers k replica)
    rw [pingReplicaServers, each, List.forM_map]
  rw [pingThread, attempts, forM_flatMap]
  simp only [round]

/-- The measurements of the requests before the first that fails. -/
def measuredBeforeFailure : List (Attempt loads) → History
  | [] => []
  | none :: _ => []
  | some body :: rest => recordedBy body.records ++ measuredBeforeFailure rest

theorem forM_runAttempt (tries : List (Attempt loads)) (server : DnsServer) :
    finalState ((forM tries runAttempt : ServerM Unit).run server) = server.withTable
      ((measuredBeforeFailure tries).foldl RoutingTable.record server.clientReplicaRoutingTable) := by
  induction tries generalizing server with
  | nil => rfl
  | cons attempt rest ih =>
    rw [List.forM_cons, EStateM.run_bind]
    cases attempt with
    | none => rfl
    | some body =>
      rw [runAttempt, updateRecords_run, measuredBeforeFailure, List.foldl_append]
      exact ih _

/-- A failure costs the measurements of all later requests, so nothing is lost
just when there are none. -/
theorem measuredBeforeFailure_split (tries : List (Attempt loads)) :
    ∃ lost, tries.flatMap Attempt.measurements = measuredBeforeFailure tries ++ lost ∧
      (lost = [] ↔ NothingBehindFailure tries) := by
  unfold NothingBehindFailure
  induction tries with
  | nil => exact ⟨[], rfl, by simp⟩
  | cons attempt rest ih =>
    obtain ⟨lost, split, none_lost⟩ := ih
    cases attempt with
    | none =>
      refine ⟨rest.flatMap Attempt.measurements, rfl, ?_⟩
      rw [List.pairwise_cons, List.flatMap_eq_nil_iff]
      constructor
      · intro silent
        refine ⟨fun later member _ => silent later member, ?_⟩
        exact List.pairwise_of_forall_mem_list fun _ _ later member _ => silent later member
      · exact fun apart later member => apart.1 later member rfl
    | some body =>
      refine ⟨lost, ?_, ?_⟩
      · rw [List.flatMap_cons, split, measuredBeforeFailure, List.append_assoc]
        rfl
      · rw [none_lost, List.pairwise_cons]
        constructor
        · exact fun others => ⟨fun later _ failed => absurd failed (Option.some_ne_none body), others⟩
        · exact fun both => both.2

end Attempts

theorem RoutingTable.samples_foldl (h : History) (table : RoutingTable) (client replica : Key) :
    ((h.foldl RoutingTable.record table).entry client replica).samples =
      (table.entry client replica).samples + (h.latencies client replica).length := by
  induction h using List.reverseRecOn with
  | nil => rfl
  | append_singleton earlier m ih =>
    rw [List.foldl_append, List.foldl_cons, List.foldl_nil, RoutingTable.entry_record,
      History.latencies_append]
    by_cases here : m.client = client ∧ m.replica = replica
    · rw [if_pos here, if_pos here, List.length_append, List.length_singleton]
      simp only [Entry.add]
      omega
    · rw [if_neg here, if_neg here, ih]

/-- Every further measurement shows in the table. -/
theorem RoutingTable.foldl_record_eq_iff (earlier later : History) (table : RoutingTable) :
    earlier.foldl RoutingTable.record table = (earlier ++ later).foldl RoutingTable.record table ↔
      later = [] := by
  constructor
  · intro same
    cases later with
    | nil => rfl
    | cons m rest =>
      have seen := congrArg (fun t : RoutingTable => (t.entry m.client m.replica).samples) same
      simp only [RoutingTable.samples_foldl, History.latencies, List.filter_append, List.map_append,
        List.length_append, List.filter_cons, and_self, decide_true, if_true, List.map_cons,
        List.length_cons] at seen
      omega
  · rintro rfl
    rw [List.append_nil]

/-- The table after `n` rounds of `ping_thread` is the one that the records of
all replicas that did answer lead to. -/
def RoundsFold {loads : String → Option Json} (outcome : Nat → String → Attempt loads)
    (posts : Nat → HttpPost) (replicas : List String) (n : Nat) (server : DnsServer) : Prop :=
  (finalState ((pingThread loads replicas posts n).run server)).clientReplicaRoutingTable =
    (finalState ((updateRecords (answered (attempts outcome replicas n))).run server)).clientReplicaRoutingTable

theorem ping_rounds_fold_iff {loads : String → Option Json} {outcome : Nat → String → Attempt loads}
    {posts : Nat → HttpPost} (answers : Answers outcome posts) (replicas : List String) (n : Nat)
    (server : DnsServer) :
    RoundsFold outcome posts replicas n server ↔ NothingBehindFailure (attempts outcome replicas n) := by
  obtain ⟨lost, split, none_lost⟩ := measuredBeforeFailure_split (attempts outcome replicas n)
  rw [RoundsFold, pingThread_eq answers, forM_runAttempt, updateRecords_run, recordedBy_answered, split,
    ← none_lost]
  exact RoutingTable.foldl_record_eq_iff _ _ _

/-- The line that scamper prints for an answered ping of 52.53.228.21, and its parser. -/
def pingLine (src : String) : String :=
  "\x7b\"type\":\"ping\",\"src\":\"" ++ src ++
    "\",\"dst\":\"52.53.228.21\",\"statistics\":\x7b\"avg\":70\x7d\x7d"

def loadsPing (src line : String) : Option Json :=
  if line = pingLine src then some (pingOutput src "52.53.228.21" 70) else none

theorem loadsPing_eq_some {src line : String} {value : Json} (parsed : loadsPing src line = some value) :
    value = pingOutput src "52.53.228.21" 70 := by
  unfold loadsPing at parsed
  split at parsed
  · cases parsed
    rfl
  · cases parsed

def pingBody : ScamperBody (loadsPing "185.3.95.25") where
  response := ⟨200, pingLine "185.3.95.25" ++ "\n"⟩
  records := [.ping "185.3.95.25" "52.53.228.21" 70 (by decide)]
  parsed := by
    have lines : responseLines (pingLine "185.3.95.25" ++ "\n") = [pingLine "185.3.95.25"] := by decide
    rw [lines]
    simp [loadsPing, ScamperRecord.ping]

theorem ping_rounds_fold_all_answer :
    RoundsFold (fun _ _ => some pingBody) (fun _ _ _ => some pingBody.response) replicaServers 2
        DnsServer.initial ↔
      NothingBehindFailure (attempts (fun _ _ => some pingBody) replicaServers 2) :=
  ping_rounds_fold_iff (fun _ _ _ => rfl) replicaServers 2 DnsServer.initial

def firstUnreachable (replica : String) : Attempt (loadsPing "185.3.95.25") :=
  if replica = "139.144.30.25" then none else some pingBody

theorem ping_rounds_stop_at_failure : ∃ posts : Nat → HttpPost,
    Answers (fun _ => firstUnreachable) posts ∧
      ¬ RoundsFold (fun _ => firstUnreachable) posts replicaServers 1 DnsServer.initial := by
  let posts : Nat → HttpPost := fun _ url _ =>
    if url = pingUrl "139.144.30.25" then none else some pingBody.response
  have answers : Answers (fun _ => firstUnreachable) posts := by
    intro round replica data
    by_cases first : replica = "139.144.30.25"
    · simp [posts, firstUnreachable, first]
    · have other : pingUrl replica ≠ pingUrl "139.144.30.25" := fun same => first (pingUrl_injective same)
      simp [posts, firstUnreachable, first, other]
  refine ⟨posts, answers, fun fold => ?_⟩
  rw [RoundsFold, pingThread_eq answers, forM_runAttempt, updateRecords_run] at fold
  have samples := congrArg (fun table : RoutingTable =>
    (table.entry (.string "52.53.228.21") (.string "185.3.95.25")).samples) fold
  simp only [DnsServer.withTable_table, RoutingTable.samples_foldl] at samples
  revert samples
  decide +kernel

end SimpleCdn
