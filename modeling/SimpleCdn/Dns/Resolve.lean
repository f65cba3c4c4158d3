import SimpleCdn.Dns.Server

namespace SimpleCdn

/-- The location in a record of the city database, where it is known. -/
structure Location (R : Type) where
  latitude : Option R
  longitude : Option R

section Geography
variable {R D : Type} (city : String → Option (Location R))

/-- `float` of a coordinate, which raises on `None`. -/
def float : Option R → Except PyError R
  | some value => .ok value
  | none => .error .typeError

/-- The database is a fixed file, so the cache in front of it is transparent:
it repeats earlier answers, and exceptions are not cached. -/
def findLocationCoordinates (ip : String) : Except PyError (R × R) :=
  match city ip with
  | some location => do
    let lat ← float location.latitude
    let lon ← float location.longitude
    return (lat, lon)
  | none => .error .addressNotFoundError

variable [LinearOrder D] (distanceBetweenLocations : R × R → R × R → D) (replicas : List String)

def defaultReplicaServer : String := "139.144.30.25"

def findClosestReplicaServer {σ : Type} (sourceIp : String) : EStateM PyError σ String := do
  let sourceCoordinates ← raising (findLocationCoordinates city sourceIp)
  let closest ← minByKey (fun repl => do
    let coordinates ← raising (findLocationCoordinates city repl)
    return distanceBetweenLocations sourceCoordinates coordinates) replicas
  return closest.getD defaultReplicaServer

end Geography

/-- The key function of the minimum in `resolve`: two accesses through the
default dictionaries, then a division. -/
def averageLatency (clientIp replicaIp : Key) : TableM ℚ := do
  let sum := (← replicaItem clientIp replicaIp).sum
  let samples := (← replicaItem clientIp replicaIp).samples
  if samples = 0 then throw .zeroDivisionError else return sum / samples

/-- `min` over the replicas of a client, which raises on an empty dictionary.
Its key function only meets keys of the dictionary it iterates. -/
def leastLatency (clientIp : Key) : TableM Key := do
  let inner ← clientItem clientIp
  match ← minByKey (averageLatency clientIp) inner.keys with
  | some replica => return replica
  | none => throw .valueError

section Resolve
variable {R D : Type} [LinearOrder D] (loads : String → Option Json) (replicas : List String)
  (city : String → Option (Location R)) (distanceBetweenLocations : R × R → R × R → D)

def resolve (post : HttpPost) (clientAddress : Address) : ServerM Key := do
  let clientIp := clientAddress.1
  if .string clientIp ∈ (← get).clientReplicaRoutingTable then
    onTable (leastLatency (.string clientIp))
  else
    modify fun server => server.addClient clientIp
    pingReplicaServers loads replicas post
    return .string (← findClosestReplicaServer city distanceBetweenLocations replicas clientIp)

end Resolve

theorem averageLatency_run {table : RoutingTable} {client replica : Key}
    (member : replica ∈ table.inner client) :
    (averageLatency client replica).run table =
      if (table.entry client replica).samples = 0 then .error .zeroDivisionError table
      else .ok (table.entry client replica).mean table := by
  have unchanged := RoutingTable.store_entry_of_mem member
  simp only [averageLatency, EStateM.run_bind, replicaItem_run, unchanged]
  by_cases empty : (table.entry client replica).samples = 0
  · rw [if_pos empty, if_pos empty]
    rfl
  · rw [if_neg empty, if_neg empty]
    rfl

/-- The minimum is that over the client's dictionary. The table is only read. -/
theorem leastLatency_eq {table : RoutingTable} {client : Key} (known : client ∈ table) :
    (leastLatency client).run table = (minByKey (averageLatency client) (table.inner client).keys >>= fun least =>
      match least with
      | some replica => (pure replica : TableM Key)
      | none => throw .valueError).run table := by
  obtain ⟨inner, present⟩ := Dict.mem_iff_get?.mp known
  have same : table.inner client = inner := by simp [RoutingTable.inner, present]
  have unchanged : table.set client (table.inner client) = table := by
    rw [same, Dict.set_of_get? present]
  simp only [leastLatency, EStateM.run_bind, clientItem_run, unchanged]

/-- Where no entry is without a sample, no quotient is undefined. -/
theorem leastLatency_run {table : RoutingTable} {client : Key} (known : client ∈ table)
    (complete : table.Complete client) :
    ∃ replica, (table.inner client).keys.argmin (fun r => (table.entry client r).mean) = some replica ∧
      (leastLatency client).run table = .ok replica table := by
  obtain ⟨nonempty, sampled⟩ := complete
  have scan := minByKey_run fun replica (member : replica ∈ (table.inner client).keys) =>
    (averageLatency_run (Dict.mem_keys.mp member)).trans (if_neg (sampled replica member))
  cases least : (table.inner client).keys.argmin (fun r => (table.entry client r).mean) with
  | none => exact absurd (List.argmin_eq_none.mp least) nonempty
  | some replica =>
    refine ⟨replica, rfl, ?_⟩
    rw [leastLatency_eq known, EStateM.run_bind, scan, least]
    rfl

theorem leastLatency_complete {table : RoutingTable} {client : Key} (known : client ∈ table)
    (returns : Returns (leastLatency client) table) : table.Complete client := by
  obtain ⟨answer, after, run⟩ := returns
  rw [leastLatency_eq known] at run
  obtain ⟨least, middle, scanned, ends⟩ := returns_bind_iff.mp ⟨answer, after, run⟩
  have reads : ∀ replica ∈ (table.inner client).keys, ∀ value left,
      (averageLatency client replica).run table = .ok value left → left = table := by
    intro replica member value left read
    rw [averageLatency_run (Dict.mem_keys.mp member)] at read
    split at read <;> cases read
    rfl
  constructor
  · intro empty
    rw [empty] at scanned
    cases scanned
    obtain ⟨_, _, fails⟩ := ends
    cases fails
  · intro replica member zero
    obtain ⟨value, left, read⟩ := minByKey_returns reads ⟨least, middle, scanned⟩ replica member
    rw [averageLatency_run (Dict.mem_keys.mp member), if_pos zero] at read
    cases read

section
variable {R D : Type} [LinearOrder D] (loads : String → Option Json) (replicas : List String)
  (city : String → Option (Location R)) (distanceBetweenLocations : R × R → R × R → D)

theorem resolve_run_known {server : DnsServer} {h : History}
    (rep : Represents server.clientReplicaRoutingTable h) {address : Address}
    (known : .string address.1 ∈ server.clientReplicaRoutingTable) (post : HttpPost) :
    ∃ replica, (server.clientReplicaRoutingTable.inner (.string address.1)).keys.argmin
        (h.mean (.string address.1)) = some replica ∧
      (resolve loads replicas city distanceBetweenLocations post address).run server =
        .ok replica server := by
  obtain ⟨replica, least, run⟩ := leastLatency_run known (rep.complete known)
  refine ⟨replica, by simpa only [rep.mean_eq] using least, ?_⟩
  simp only [resolve, EStateM.run_bind, EStateM.run_get, if_pos known]
  exact onTable_run_ok run

end

end SimpleCdn
