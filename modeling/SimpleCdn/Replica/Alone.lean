import SimpleCdn.Replica.Warmup

namespace SimpleCdn

/-- The path that the next step of a task asks the origin for, if it asks. -/
def ReplicaTask.asks : ReplicaTask → String
  | .preload ⟨_, .fetching path⟩ => path
  | .preload _ => ""
  | .proxy task => task.path

/-- One step of a task while the origin answers every request for a path alike. -/
def answeredStep (brotli : Brotli) (disk : String → Option ByteArray) (origin : String → OriginAnswer)
    (replica : Replica) (task : ReplicaTask) : Option (Replica × ReplicaTask) :=
  task.step brotli disk ⟨origin task.asks, true⟩ replica

theorem answeredStep_sound {brotli : Brotli} {disk : String → Option ByteArray} {origin : String → OriginAnswer}
    {replica replica' : Replica} {task task' : ReplicaTask}
    (taken : answeredStep brotli disk origin replica task = some (replica', task')) :
    replicaStep brotli disk replica task replica' task' := ⟨_, taken⟩

section Alone
variable (brotli : Brotli) (disk : String → Option ByteArray) {origin : String → OriginAnswer}

/-- One path of a list: it is fetched, compressed and inserted. -/
theorem preload_path_alone {path text : String} (rest : List String) (cache : String → Option ByteArray)
    (answered : List (String × OriginAnswer)) (fetched : fetchFromOrigin (origin path) = .content text) :
    Pool.Alone (answeredStep brotli disk origin)
      (⟨cache, RwLock.free, answered⟩, .preload ⟨path :: rest, .next⟩)
      (⟨Function.update cache path (some (brotli.compress text)), RwLock.free, (path, origin path) :: answered⟩,
        .preload ⟨rest, .next⟩) := by
  have asked : Pool.Alone (answeredStep brotli disk origin)
      (⟨cache, RwLock.free, answered⟩, .preload ⟨path :: rest, .next⟩)
      (⟨cache, RwLock.free, answered⟩, .preload ⟨rest, .fetching path⟩) := .single rfl
  have heard : answeredStep brotli disk origin ⟨cache, RwLock.free, answered⟩
    (.preload ⟨rest, .fetching path⟩) =
      some (⟨cache, RwLock.free, (path, origin path) :: answered⟩,
        .preload ⟨rest, .compressing path text⟩) := by
    simp only [answeredStep, ReplicaTask.asks, ReplicaTask.step, PreloadTask.step, fetched]
    rfl
  exact ((((asked.tail heard).tail rfl).tail rfl).tail rfl).tail rfl

/-- A task that is not disturbed goes through its list and finishes, when
every path can be fetched. -/
theorem preload_alone {page : String → String} {paths : List String}
    (fetched : ∀ path ∈ paths, fetchFromOrigin (origin path) = .content (page path))
    (cache : String → Option ByteArray) (answered : List (String × OriginAnswer)) :
    ∃ replica, Pool.Alone (answeredStep brotli disk origin)
        (⟨cache, RwLock.free, answered⟩, .preload ⟨paths, .next⟩) (replica, .preload ⟨[], .finished⟩) ∧
      replica.lock = RwLock.free ∧
      ∀ entry ∈ replica.answered, entry ∈ answered ∨ entry.1 ∈ paths ∧ entry.2 = origin entry.1 := by
  induction paths generalizing cache answered with
  | nil =>
    have shrinking : Pool.Alone (answeredStep brotli disk origin)
      (⟨cache, RwLock.free, answered⟩, .preload ⟨[], .next⟩)
        (⟨cache, RwLock.free, answered⟩, .preload ⟨[], .awaiting .shrinkToFit⟩) := .single rfl
    exact ⟨_, (((shrinking.tail rfl).tail rfl).tail rfl).tail rfl, rfl, fun entry member => Or.inl member⟩
  | cons path rest ih =>
    have first := preload_path_alone brotli disk rest cache answered
      (fetched path (List.mem_cons_self ..))
    obtain ⟨replica, later, free, heard⟩ :=
      ih (fun other member => fetched other (List.mem_cons_of_mem path member))
      (Function.update cache path (some (brotli.compress (page path)))) ((path, origin path) :: answered)
    refine ⟨replica, first.trans later, free, fun entry member => ?_⟩
    rcases heard entry member with before | ⟨inRest, asked⟩
    · rcases List.mem_cons.mp before with rfl | old
      · exact Or.inr ⟨List.mem_cons_self .., rfl⟩
      · exact Or.inl old
    · exact Or.inr ⟨List.mem_cons_of_mem path inRest, asked⟩

theorem preload_run {page : String → String} (body : String) (initial : String → Option ByteArray)
    (fetched : ∀ path ∈ preloadPaths body, fetchFromOrigin (origin path) = .content (page path)) :
    ∃ p, Pool.Reach (replicaStep brotli disk) Pool.Free
        (warmPool initial fun _ : Unit => ReplicaRequest.preload body) p ∧
      (∀ i, (p.task i).Ended) ∧ p.shared.lock = RwLock.free ∧
      OriginGives (fun path => some (page path)) p.shared.answered := by
  obtain ⟨replica, alone, free, heard⟩ := preload_alone brotli disk fetched initial []
  have reach := Pool.Alone.reach (p := warmPool initial fun _ : Unit => ReplicaRequest.preload body) (i := ())
    alone rfl
  refine ⟨_, reach.mono fun _ _ _ _ taken => answeredStep_sound taken, fun _ => ?_, free,
    fun path answer member => ?_⟩
  · rw [Pool.advance_self]
    trivial
  · rcases heard _ member with impossible | ⟨listed, asked⟩
    · cases impossible
    · have same : answer = origin path := asked
      rw [same]
      exact Or.inr (fetched path listed)

theorem proxy_miss_alone {path : String} {cache : String → Option ByteArray}
    (answered : List (String × OriginAnswer))
    (notCached : cache path = none) (noFile : disk path = none) :
    Pool.Alone (answeredStep brotli disk origin) (⟨cache, RwLock.free, answered⟩, .proxy (proxy path))
      (⟨cache, RwLock.free, answered⟩, .proxy ⟨path, .fetching⟩) := by
  have locked : Pool.Alone (answeredStep brotli disk origin) (⟨cache, RwLock.free, answered⟩, .proxy (proxy path))
      (⟨cache, ⟨1, false, 0⟩, answered⟩, .proxy ⟨path, .lookup⟩) := .single rfl
  have missed : answeredStep brotli disk origin ⟨cache, ⟨1, false, 0⟩, answered⟩
    (.proxy ⟨path, .lookup⟩) =
      some (⟨cache, RwLock.free, answered⟩, .proxy ⟨path, .diskRead⟩) := by
    simp only [answeredStep, ReplicaTask.step, ProxyTask.step, notCached]
    rfl
  have unread : answeredStep brotli disk origin ⟨cache, RwLock.free, answered⟩ (.proxy ⟨path, .diskRead⟩) =
      some (⟨cache, RwLock.free, answered⟩, .proxy ⟨path, .fetching⟩) := by
    simp only [answeredStep, ReplicaTask.step, ProxyTask.step, noFile]
    rfl
  exact (locked.tail missed).tail unread

/-- With the lock free, a cached page is sent from the cache, and neither the
disk nor the origin is asked. -/
theorem proxy_hit_alone {path text : String} {replica : Replica} (free : replica.lock = RwLock.free)
    (cached : replica.ramCache path = some (brotli.compress text)) :
    Pool.Alone (answeredStep brotli disk origin) (replica, .proxy (proxy path))
      (replica, .proxy ⟨path, .replied (html text)⟩) := by
  obtain ⟨cache, lock, answered⟩ := replica
  subst free
  have locked : Pool.Alone (answeredStep brotli disk origin) (⟨cache, RwLock.free, answered⟩, .proxy (proxy path))
      (⟨cache, ⟨1, false, 0⟩, answered⟩, .proxy ⟨path, .lookup⟩) := .single rfl
  have found : answeredStep brotli disk origin ⟨cache, ⟨1, false, 0⟩, answered⟩ (.proxy ⟨path, .lookup⟩) =
      some (⟨cache, ⟨1, false, 0⟩, answered⟩, .proxy ⟨path, .ramHit (brotli.compress text)⟩) := by
    have here : cache path = some (brotli.compress text) := cached
    simp only [answeredStep, ReplicaTask.step, ProxyTask.step, here]
    rfl
  have sent : answeredStep brotli disk origin ⟨cache, ⟨1, false, 0⟩, answered⟩
      (.proxy ⟨path, .ramHit (brotli.compress text)⟩) =
        some (⟨cache, RwLock.free, answered⟩, .proxy ⟨path, .replied (html text)⟩) := by
    simp only [answeredStep, ReplicaTask.step, ProxyTask.step, brotli.decompress_compress]
    rfl
  exact (locked.tail found).tail sent

end Alone

end SimpleCdn
