import SimpleCdn.Dns.Traces
import SimpleCdn.GeoIp2.Coordinates

namespace SimpleCdn
open MaxMindDb

/-- The exceptions of the whole server, by the model they come from. -/
inductive ProcessError
  | ofServer (raised : PyError)
  | ofReader (raised : ReadError)

/-- The server with the cache of `find_location_coordinates`. -/
structure DnsProcess where
  server : DnsServer
  coordinates : LruCache String (PyFloat × PyFloat)

def DnsProcess.initial : DnsProcess := ⟨DnsServer.initial, LruCache.empty⟩

abbrev ProcessM := EStateM ProcessError DnsProcess

def onServer {α : Type} (call : ServerM α) : ProcessM α :=
  zoom DnsProcess.server (fun process server => { process with server := server }) .ofServer call

def onCoordinates {α : Type} (call : EStateM ReadError (LruCache String (PyFloat × PyFloat)) α) : ProcessM α :=
  zoom DnsProcess.coordinates (fun process coordinates => { process with coordinates := coordinates }) .ofReader call

/-- One thing that happens to the server. A query has an answer. -/
def perform {R D : Type} [LinearOrder D] (loads : String → Option Json) (replicas : List String)
    (city : String → Option (Location R)) (distanceBetweenLocations : R × R → R × R → D) :
    Step → ServerM (Option Key)
  | .query post address => some <$> resolve loads replicas city distanceBetweenLocations post address
  | .round post => do
    pingReplicaServers loads replicas post
    return none

namespace Process
variable {D : Type} [LinearOrder D] (loads : String → Option Json) (replicas : List String)
  (ipNetwork : Record → Except ReadError Unit) (toFloat : Record → Except ReadError PyFloat) (mode : Mode)
  (limit : Nat) (file : List UInt8) (distanceBetweenLocations : PyFloat × PyFloat → PyFloat × PyFloat → D)

/-- `find_closest_replica_server`, where the coordinates come from the file or
the cache. -/
def findClosestReplicaServer (sourceIp : String) :
    EStateM ReadError (LruCache String (PyFloat × PyFloat)) String := do
  let sourceCoordinates ← GeoIp2.findLocationCoordinates ipNetwork toFloat mode limit file sourceIp
  let closest ← minByKey (fun repl => do
    let coordinates ← GeoIp2.findLocationCoordinates ipNetwork toFloat mode limit file repl
    return distanceBetweenLocations sourceCoordinates coordinates) replicas
  return closest.getD defaultReplicaServer

/-- `resolve` with the file and the cache in place. -/
def resolve (post : HttpPost) (clientAddress : Address) : ProcessM Key := do
  let clientIp := clientAddress.1
  if .string clientIp ∈ (← get).server.clientReplicaRoutingTable then
    onServer (onTable (leastLatency (.string clientIp)))
  else
    onServer (modify fun server => server.addClient clientIp)
    onServer (pingReplicaServers loads replicas post)
    return .string (← onCoordinates
      (findClosestReplicaServer replicas ipNetwork toFloat mode limit file distanceBetweenLocations clientIp))

def perform : Step → ProcessM (Option Key)
  | .query post address =>
    some <$> resolve loads replicas ipNetwork toFloat mode limit file distanceBetweenLocations post address
  | .round post => do
    onServer (pingReplicaServers loads replicas post)
    return none

end Process

section Refinement

variable {find : String → Except ReadError (PyFloat × PyFloat)}

variable {D : Type} [LinearOrder D] {replicas : List String} {db : Database} {limit : Nat}
  (ipNetwork : Record → Except ReadError Unit) (toFloat : Record → Except ReadError PyFloat)
  (distanceBetweenLocations : PyFloat × PyFloat → PyFloat × PyFloat → D)

/-- The difference of two latitudes, where they are finite. -/
def latitudeDifference (a b : PyFloat × PyFloat) : ℚ :=
  match a.1, b.1 with
  | .finite negative magnitude, .finite negative' magnitude' =>
    |signed negative magnitude - signed negative' magnitude'|
  | _, _ => 0

/-- Two clients ask, and the replicas have nothing to report. -/
def twoClients : List Step :=
  [.query (fun _ _ => some ⟨200, ""⟩) ("203.0.113.7", 5353), .round fun _ _ => some ⟨200, ""⟩,
    .query (fun _ _ => some ⟨200, ""⟩) ("198.51.100.20", 5353)]

end Refinement

theorem onServer_keeps (inv : LruCache String (PyFloat × PyFloat) → Prop) {α : Type} (call : ServerM α) :
    Keeps (fun process => inv process.coordinates) (onServer call) := by
  intro process start
  rw [onServer, finalState_zoom]
  exact start

theorem onCoordinates_keeps {inv : LruCache String (PyFloat × PyFloat) → Prop} {α : Type}
    {call : EStateM ReadError (LruCache String (PyFloat × PyFloat)) α} (keeps : Keeps inv call) :
    Keeps (fun process => inv process.coordinates) (onCoordinates call) := by
  intro process start
  rw [onCoordinates, finalState_zoom]
  exact keeps process.coordinates start

section ReadOnce
variable {D : Type} [LinearOrder D] (loads : String → Option Json) {replicas : List String}
  (ipNetwork : Record → Except ReadError Unit) (toFloat : Record → Except ReadError PyFloat) (mode : Mode)
  (limit : Nat) (file : List UInt8) (distanceBetweenLocations : PyFloat × PyFloat → PyFloat × PyFloat → D)
  {replica : String}

/-- How old the entry of a replica can be while the replicas are compared and
these are left. -/
def entryAge (replicas : List String) (replica : String) (rest : List String) : Nat :=
  if replica ∈ rest then 2 * replicas.length + 1 - rest.length else replicas.length - rest.length

theorem entryAge_cons (few : 2 * replicas.length + 1 < 128) {a : String} {rest : List String} (other : a ≠ replica)
    (short : (a :: rest).length ≤ replicas.length) :
    entryAge replicas replica (a :: rest) + 1 ≤ entryAge replicas replica rest ∧
      entryAge replicas replica (a :: rest) + 1 < 128 := by
  unfold entryAge
  rw [List.length_cons] at short ⊢
  by_cases left : replica ∈ rest
  · rw [if_pos left, if_pos (List.mem_cons_of_mem a left)]
    omega
  · rw [if_neg left, if_neg fun here => (List.mem_cons.mp here).elim (Ne.symm other) left]
    omega

/-- While the replicas are compared, and these are left. -/
structure Comparing (replicas : List String) (replica : String) (rest : List String)
    (cache : LruCache String (PyFloat × PyFloat)) : Prop where
  inside : ∀ other ∈ rest, other ∈ replicas
  short : rest.length ≤ replicas.length
  once : cache.MissedOnce (entryAge replicas replica rest) replica

section Located
variable (few : 2 * replicas.length + 1 < 128) (located : ∀ other ∈ replicas, ∃ coordinates,
  GeoIp2.readLocationCoordinates ipNetwork toFloat mode limit file other = .ok coordinates)
include few located

theorem Comparing.step {a : String} {rest : List String} {cache : LruCache String (PyFloat × PyFloat)}
    (comparing : Comparing replicas replica (a :: rest) cache) :
    ∃ coordinates t, (GeoIp2.findLocationCoordinates ipNetwork toFloat mode limit file a).run cache =
      .ok coordinates t ∧ Comparing replicas replica rest t := by
  obtain ⟨inside, short, once⟩ := comparing
  have others := fun other later => inside other (List.mem_cons_of_mem a later)
  have shorter : rest.length ≤ replicas.length := by
    rw [List.length_cons] at short
    omega
  obtain ⟨coordinates, found⟩ := located a (inside a (List.mem_cons_self ..))
  by_cases same : a = replica
  · subst same
    obtain ⟨value, t, run, youngest⟩ := once.call found
    exact ⟨value, t, run, others, shorter, youngest.mono (Nat.zero_le _)⟩
  · obtain ⟨older, room⟩ := entryAge_cons few same short
    rcases once.call_other same room (GeoIp2.readLocationCoordinates ipNetwork toFloat mode limit file) with
      ⟨value, t, run, kept⟩ | ⟨raised, t, fails, _⟩
    · exact ⟨value, t, run, others, shorter, kept.mono older⟩
    · rw [found] at fails
      cases fails

theorem comparison_missedOnce (member : replica ∈ replicas) (source : PyFloat × PyFloat)
    {cache : LruCache String (PyFloat × PyFloat)} (once : cache.MissedOnce (replicas.length + 1) replica) :
    ∃ closest after, (minByKey (fun repl => do
        let coordinates ← GeoIp2.findLocationCoordinates ipNetwork toFloat mode limit file repl
        return distanceBetweenLocations source coordinates) replicas).run cache = .ok closest after ∧
      after.MissedOnce replicas.length replica := by
  have start : Comparing replicas replica replicas cache := by
    refine ⟨fun _ => id, le_rfl, ?_⟩
    rw [entryAge, if_pos member, show 2 * replicas.length + 1 - replicas.length = replicas.length + 1 by omega]
    exact once
  have each : ∀ a rest s, Comparing replicas replica (a :: rest) s → ∃ distance t, (do
      let coordinates ← GeoIp2.findLocationCoordinates ipNetwork toFloat mode limit file a
      return distanceBetweenLocations source coordinates).run s = .ok distance t ∧
        Comparing replicas replica rest t := by
    intro a rest s comparing
    obtain ⟨coordinates, t, run, next⟩ := comparing.step ipNetwork toFloat mode limit file few located
    refine ⟨distanceBetweenLocations source coordinates, t, ?_, next⟩
    rw [EStateM.run_bind, run]
    rfl
  obtain ⟨closest, after, run, final⟩ := minByKey_reaches each start
  refine ⟨closest, after, run, ?_⟩
  have age := final.once
  rw [entryAge, if_neg (List.not_mem_nil)] at age
  exact age

/-- Between two lookups of one replica there are those of the other replicas and
of two clients at most, which the cache has room for. -/
theorem findClosestReplicaServer_missedOnce (member : replica ∈ replicas) (ip : String) :
    Keeps (LruCache.MissedOnce replicas.length replica)
      (Process.findClosestReplicaServer replicas ipNetwork toFloat mode limit file distanceBetweenLocations ip) := by
  intro cache once
  have first : (∃ source t, (GeoIp2.findLocationCoordinates ipNetwork toFloat mode limit file ip).run cache =
      .ok source t ∧ t.MissedOnce (replicas.length + 1) replica) ∨
      ∃ raised t, (GeoIp2.findLocationCoordinates ipNetwork toFloat mode limit file ip).run cache =
        .error raised t ∧ t.MissedOnce replicas.length replica := by
    by_cases same : ip = replica
    · subst same
      obtain ⟨coordinates, found⟩ := located ip member
      obtain ⟨value, t, run, youngest⟩ := once.call found
      exact .inl ⟨value, t, run, youngest.mono (Nat.zero_le _)⟩
    · have room : replicas.length + 1 < 128 := by omega
      rcases once.call_other same room (GeoIp2.readLocationCoordinates ipNetwork toFloat mode limit file) with
        ok | ⟨raised, t, _, run, kept⟩
      · exact .inl ok
      · exact .inr ⟨raised, t, run, kept⟩
  unfold Process.findClosestReplicaServer
  rw [EStateM.run_bind]
  rcases first with ⟨source, t, run, kept⟩ | ⟨raised, t, run, kept⟩
  · obtain ⟨closest, after, compared, final⟩ := comparison_missedOnce ipNetwork toFloat mode limit file
      distanceBetweenLocations few located member source kept
    rw [run]
    show LruCache.MissedOnce _ _ (finalState ((minByKey _ replicas >>= fun closest =>
      pure (closest.getD defaultReplicaServer)).run t))
    rw [EStateM.run_bind, compared]
    exact final
  · rw [run]
    exact kept

theorem resolve_missedOnce (member : replica ∈ replicas) (post : HttpPost) (address : Address) :
    Keeps (fun process => process.coordinates.MissedOnce replicas.length replica)
      (Process.resolve loads replicas ipNetwork toFloat mode limit file distanceBetweenLocations post address) := by
  intro process once
  have closest := onCoordinates_keeps (findClosestReplicaServer_missedOnce ipNetwork toFloat mode limit file
    distanceBetweenLocations few located member address.1)
  have rest := ((onServer_keeps _ (modify fun server => server.addClient address.1)).bind fun _ =>
    (onServer_keeps _ (pingReplicaServers loads replicas post)).bind fun _ =>
      closest.bind fun replica => Keeps.pure (Key.string replica)) process once
  by_cases known : .string address.1 ∈ process.server.clientReplicaRoutingTable
  · simp only [Process.resolve, EStateM.run_bind, EStateM.run_get, if_pos known]
    exact onServer_keeps _ _ process once
  · simp only [Process.resolve, EStateM.run_bind, EStateM.run_get, if_neg known] at rest ⊢
    exact rest

theorem perform_missedOnce (member : replica ∈ replicas) (step : Step) :
    Keeps (fun process => process.coordinates.MissedOnce replicas.length replica)
      (Process.perform loads replicas ipNetwork toFloat mode limit file distanceBetweenLocations step) := by
  cases step with
  | query post address =>
    rw [Process.perform, map_eq_pure_bind]
    exact (resolve_missedOnce loads ipNetwork toFloat mode limit file distanceBetweenLocations few located member post
      address).bind fun replica => Keeps.pure (some replica)
  | round post => exact (onServer_keeps _ (pingReplicaServers loads replicas post)).bind fun _ => Keeps.pure none

end Located

/-- However many clients ask, in whatever order, the database is opened for each
replica server at most once. -/
theorem replicas_read_once (order : replicas.Perm replicaServers)
    (located : ∀ replica ∈ replicaServers, ∃ coordinates,
      GeoIp2.readLocationCoordinates ipNetwork toFloat mode limit file replica = .ok coordinates)
    (steps : List Step) : ∀ replica ∈ replicaServers,
      (stateAfter (steps.map (Process.perform loads replicas ipNetwork toFloat mode limit file
        distanceBetweenLocations)) DnsProcess.initial).coordinates.misses.count replica ≤ 1 := by
  intro replica member
  have few : 2 * replicas.length + 1 < 128 := by
    rw [order.length_eq]
    decide
  have each : ∀ call ∈ steps.map
      (Process.perform loads replicas ipNetwork toFloat mode limit file distanceBetweenLocations),
      Keeps (fun process => process.coordinates.MissedOnce replicas.length replica) call := by
    rw [List.forall_mem_map]
    exact fun step _ => perform_missedOnce loads ipNetwork toFloat mode limit file distanceBetweenLocations few
      (fun other inside => located other (order.mem_iff.mp inside)) (order.mem_iff.mpr member) step
  have initial : DnsProcess.initial.coordinates.MissedOnce replicas.length replica := .inl rfl
  rcases Keeps.stateAfter each initial with never | ⟨once, _⟩
  · rw [never]
    exact Nat.zero_le 1
  · exact once.le

end ReadOnce

theorem upperHalf_locates_replicas (ipNetwork : Record → Except ReadError Unit)
    (toFloat : Record → Except ReadError PyFloat) (mode : Mode) : ∀ replica ∈ replicaServers, ∃ coordinates,
      GeoIp2.readLocationCoordinates ipNetwork toFloat mode 100 Database.upperHalf.file replica =
        .ok coordinates := by
  simp only [replicaServers, List.forall_mem_cons]
  refine ⟨?_, ?_, ?_, ?_, ?_, ?_, ?_, List.forall_mem_nil _⟩ <;>
    exact ⟨_, GeoIp2.coordinates_of_upper ipNetwork toFloat mode rfl rfl (by decide)⟩

theorem replicas_read_once_twoClients :
    (stateAfter (twoClients.map (Process.perform (fun _ => none) replicaServers (fun _ => .ok ())
      (fun _ => .error (.valueError "")) .mmap 100 Database.upperHalf.file latitudeDifference))
        DnsProcess.initial).coordinates.misses.count "139.144.30.25" ≤ 1 :=
  replicas_read_once _ _ _ _ _ _ _ (.refl _) (upperHalf_locates_replicas _ _ _) twoClients _
    (List.mem_cons_self ..)

end SimpleCdn
