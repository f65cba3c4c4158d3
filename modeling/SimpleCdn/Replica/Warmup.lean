import SimpleCdn.Replica.Tasks

namespace SimpleCdn

/-- The paths that a request asks to be cached. -/
def ReplicaRequest.listed : ReplicaRequest → List String
  | .preload body => preloadPaths body
  | .proxy _ => []

/-- Requests to a replica that has cached something before. -/
def warmPool {ι : Type} (ramCache : String → Option ByteArray) (requests : ι → ReplicaRequest) :
    Pool ι Replica ReplicaTask where
  shared := ⟨ramCache, RwLock.free, []⟩
  task i := (requests i).task

/-- Every fetch of a path comes to the same in the end: a text, or a panic.
Any number of server errors may come first. -/
def OriginGives (outcome : String → Option String) (answered : List (String × OriginAnswer)) : Prop :=
  ∀ path answer, (path, answer) ∈ answered → fetchFromOrigin answer = .retry ∨
    fetchFromOrigin answer = (outcome path).elim .panicked .content

/-- The paths before the first that cannot be fetched. -/
def fetchedPaths (outcome : String → Option String) (paths : List String) : List String :=
  paths.takeWhile fun path => (outcome path).isSome

theorem OriginGives.mono {outcome : String → Option String} {answered later : List (String × OriginAnswer)}
    (gives : OriginGives outcome later) (grows : answered ⊆ later) : OriginGives outcome answered :=
  fun path answer member => gives path answer (grows member)

theorem fetchedPaths_eq {outcome : String → Option String} {paths fetched rest : List String}
    (split : paths = fetched ++ rest) (each : ∀ path ∈ fetched, (outcome path).isSome)
    (stops : ∀ path ∈ rest.head?, outcome path = none) : fetchedPaths outcome paths = fetched := by
  rw [fetchedPaths, split, List.takeWhile_append_of_pos each]
  cases rest with
  | nil => simp
  | cons path others =>
    have missing : outcome path = none := stops path rfl
    simp [missing]

section Warmup
variable (brotli : Brotli) (outcome : String → Option String)

/-- The path is cached with what its fetch comes to. -/
def Warm (cache : String → Option ByteArray) (path : String) : Prop :=
  ∃ text, outcome path = some text ∧ cache path = some (brotli.compress text)

/-- What a task is about to insert belongs to the path it fetched last. -/
def WriteUse.Pending (path : String) : WriteUse → Prop
  | .insert target compressed =>
    target = path ∧ ∃ text, outcome path = some text ∧ compressed = brotli.compress text
  | .shrinkToFit => False

/-- Where a preload task stands in the list of its request: the paths in front
are cached, and the current one is on its way. -/
def PreloadTask.Progress (cache : String → Option ByteArray) (listed : List String) (task : PreloadTask) : Prop :=
  ∃ fetched, (∀ path ∈ fetched, Warm brotli outcome cache path) ∧
    match task.pc with
    | .next => listed = fetched ++ task.paths
    | .fetching path => listed = fetched ++ path :: task.paths
    | .compressing path content => listed = fetched ++ path :: task.paths ∧ outcome path = some content
    | .awaiting use | .queued use | .writing use =>
      (use = .shrinkToFit ∧ listed = fetched) ∨
        ∃ path, listed = fetched ++ path :: task.paths ∧ use.Pending brotli outcome path
    | .reporting | .finished => listed = fetched
    | .panicked => ∃ path rest, listed = fetched ++ path :: rest ∧ outcome path = none

def ReplicaTask.Progress (cache : String → Option ByteArray) (request : ReplicaRequest) : ReplicaTask → Prop
  | .preload task => task.Progress brotli outcome cache request.listed
  | .proxy _ => request.listed = []

/-- The cache holds what it held before, except under paths that some request
lists in front of its first failing path. -/
def Replica.Warmed {ι : Type} (initial : String → Option ByteArray) (requests : ι → ReplicaRequest)
    (replica : Replica) : Prop :=
  ∀ path, replica.ramCache path = initial path ∨
    ((∃ i, path ∈ fetchedPaths outcome (requests i).listed) ∧ Warm brotli outcome replica.ramCache path)

/-- A step leaves the cache alone or inserts what the fetch of a listed path
has come to. -/
def CacheStep (listed : List String) (cache cache' : String → Option ByteArray) : Prop :=
  cache' = cache ∨ ∃ path text, path ∈ fetchedPaths outcome listed ∧ outcome path = some text ∧
    cache' = Function.update cache path (some (brotli.compress text))

variable {brotli outcome} {cache cache' : String → Option ByteArray} {listed : List String}

theorem Warm.isSome {path : String} (warm : Warm brotli outcome cache path) : (outcome path).isSome := by
  obtain ⟨text, comes, _⟩ := warm
  rw [comes]
  rfl

/-- What is inserted twice under one path is the same both times. -/
theorem Warm.later {path : String} (warm : Warm brotli outcome cache path)
    (moves : CacheStep brotli outcome listed cache cache') : Warm brotli outcome cache' path := by
  obtain ⟨text, comes, cached⟩ := warm
  refine ⟨text, comes, ?_⟩
  rcases moves with rfl | ⟨other, inserted, _, comesOther, rfl⟩
  · exact cached
  · rw [Function.update_apply]
    split
    · rename_i here
      rw [here, comesOther] at comes
      rw [Option.some.inj comes]
    · exact cached

theorem PreloadTask.Progress.later {task : PreloadTask} {own : List String}
    (progress : task.Progress brotli outcome cache own) (moves : CacheStep brotli outcome listed cache cache') :
    task.Progress brotli outcome cache' own := by
  obtain ⟨fetched, warm, place⟩ := progress
  exact ⟨fetched, fun path member => (warm path member).later moves, place⟩

/-- The path that a task inserts is in front of every failing path. -/
theorem mem_fetchedPaths {path : String} {fetched rest : List String}
    (warm : ∀ path ∈ fetched, Warm brotli outcome cache path) (comes : (outcome path).isSome) :
    path ∈ fetchedPaths outcome (fetched ++ path :: rest) := by
  have front : ∀ other ∈ fetched, (outcome other).isSome := fun other member => (warm other member).isSome
  rw [fetchedPaths, List.takeWhile_append_of_pos front, List.takeWhile_cons, if_pos comes]
  exact List.mem_append_right fetched (List.mem_cons_self ..)

/-- One step moves a task on in its list, and inserts at most the path that it
stands at. -/
theorem PreloadTask.Progress.step {around : Surroundings} {replica replica' : Replica} {task task' : PreloadTask}
    (gives : OriginGives outcome replica'.answered)
    (progress : task.Progress brotli outcome replica.ramCache listed)
    (taken : task.step brotli around replica = some (replica', task')) :
    CacheStep brotli outcome listed replica.ramCache replica'.ramCache ∧
      task'.Progress brotli outcome replica'.ramCache listed := by
  obtain ⟨fetched, warm, place⟩ := progress
  obtain ⟨paths, pc⟩ := task
  cases pc with
  | next =>
    cases paths with
    | nil =>
      cases taken
      exact ⟨Or.inl rfl, fetched, warm, Or.inl ⟨rfl, by simpa using place⟩⟩
    | cons path rest =>
      cases taken
      exact ⟨Or.inl rfl, fetched, warm, place⟩
  | fetching path =>
    have heard := gives path around.answer
    cases taken
    refine ⟨Or.inl rfl, fetched, warm, ?_⟩
    rcases heard (List.mem_cons_self ..) with retried | ended
    · simp only [retried]
      exact place
    · cases comes : outcome path with
      | some text =>
        rw [comes] at ended
        simp only [ended, Option.elim_some]
        exact ⟨place, comes⟩
      | none =>
        rw [comes] at ended
        simp only [ended, Option.elim_none]
        exact ⟨path, paths, place, comes⟩
  | compressing path content =>
    cases taken
    exact ⟨Or.inl rfl, fetched, warm, Or.inr ⟨path, place.1, rfl, content, place.2, rfl⟩⟩
  | awaiting use =>
    cases taken
    exact ⟨Or.inl rfl, fetched, warm, place⟩
  | queued use =>
    obtain ⟨lock, _, ends⟩ := Option.map_eq_some_iff.mp taken
    cases ends
    exact ⟨Or.inl rfl, fetched, warm, place⟩
  | writing use =>
    cases use with
    | shrinkToFit =>
      cases taken
      rcases place with ⟨_, all⟩ | ⟨path, _, impossible⟩
      · exact ⟨Or.inl rfl, fetched, warm, all⟩
      · exact impossible.elim
    | insert target compressed =>
      cases taken
      rcases place with ⟨impossible, _⟩ | ⟨_, split, rfl, text, comes, rfl⟩
      · cases impossible
      have here : target ∈ fetchedPaths outcome listed := by
        rw [split]
        exact mem_fetchedPaths warm (by rw [comes]; rfl)
      have moves : CacheStep brotli outcome listed replica.ramCache
          (Function.update replica.ramCache target (some (brotli.compress text))) :=
        Or.inr ⟨target, text, here, comes, rfl⟩
      refine ⟨moves, fetched ++ [target], fun other member => ?_, by simpa using split⟩
      rcases List.mem_append.mp member with old | new
      · exact (warm other old).later moves
      · rw [List.mem_singleton.mp new]
        exact ⟨text, comes, Function.update_self ..⟩
  | reporting =>
    obtain ⟨lock, _, ends⟩ := Option.map_eq_some_iff.mp taken
    cases ends
    exact ⟨Or.inl rfl, fetched, warm, place⟩
  | finished => cases taken
  | panicked => cases taken

theorem ReplicaTask.Progress.later {task : ReplicaTask} {request : ReplicaRequest}
    (progress : task.Progress brotli outcome cache request) (moves : CacheStep brotli outcome listed cache cache') :
    task.Progress brotli outcome cache' request := by
  cases task with
  | preload task => exact PreloadTask.Progress.later progress moves
  | proxy task => exact progress

theorem ReplicaTask.Progress.step {disk : String → Option ByteArray} {replica replica' : Replica}
    {task task' : ReplicaTask} {request : ReplicaRequest} (gives : OriginGives outcome replica'.answered)
    (progress : task.Progress brotli outcome replica.ramCache request)
    (taken : replicaStep brotli disk replica task replica' task') :
    CacheStep brotli outcome request.listed replica.ramCache replica'.ramCache ∧
      task'.Progress brotli outcome replica'.ramCache request := by
  obtain ⟨around, taken⟩ := taken
  cases task with
  | preload task =>
    obtain ⟨next, moved, ends⟩ := Option.map_eq_some_iff.mp taken
    cases ends
    exact PreloadTask.Progress.step gives progress moved
  | proxy task =>
    obtain ⟨next, moved, ends⟩ := Option.map_eq_some_iff.mp taken
    cases ends
    exact ⟨Or.inl (ProxyTask.step_reads moved).2.1, progress⟩

theorem ReplicaRequest.task_progress (request : ReplicaRequest) :
    request.task.Progress brotli outcome cache request := by
  cases request with
  | preload body =>
    refine ⟨[], ?_, rfl⟩
    intro path member
    cases member
  | proxy path => rfl

theorem Replica.Warmed.later {ι : Type} {initial : String → Option ByteArray} {requests : ι → ReplicaRequest}
    {replica replica' : Replica} (warmed : replica.Warmed brotli outcome initial requests) (i : ι)
    (moves : CacheStep brotli outcome (requests i).listed replica.ramCache replica'.ramCache) :
    replica'.Warmed brotli outcome initial requests := by
  intro path
  rcases warmed path with old | ⟨inside, warm⟩
  · rcases moves with same | ⟨other, text, here, comes, inserted⟩
    · rw [same]
      exact Or.inl old
    · by_cases this : path = other
      · subst this
        exact Or.inr ⟨⟨i, here⟩, text, comes, by rw [inserted, Function.update_self]⟩
      · rw [inserted, Function.update_of_ne this]
        exact Or.inl old
  · exact Or.inr ⟨inside, warm.later moves⟩

section Pools
variable {ι : Type} [DecidableEq ι] {disk : String → Option ByteArray} {initial : String → Option ByteArray}
  {requests : ι → ReplicaRequest} {p : Pool ι Replica ReplicaTask}

/-- In every run against an origin whose fetches come to the same each time,
the cache only changes by what the listed paths come to. -/
theorem reach_warmed (reach : Pool.Reach (replicaStep brotli disk) Pool.Free (warmPool initial requests) p)
    (gives : OriginGives outcome p.shared.answered) :
    p.shared.Warmed brotli outcome initial requests ∧
      ∀ i, (p.task i).Progress brotli outcome p.shared.ramCache (requests i) := by
  have invariant := Pool.Reach.indexed
    (fun replica => OriginGives outcome replica.answered → replica.Warmed brotli outcome initial requests)
    (fun i replica task => OriginGives outcome replica.answered →
      task.Progress brotli outcome replica.ramCache (requests i))
    reach (fun _ path => Or.inl rfl) (fun i _ => (requests i).task_progress) ?_ ?_
  · exact ⟨invariant.1 gives, fun i => invariant.2 i gives⟩
  · intro i replica task replica' task' warmed progress taken
    have before : OriginGives outcome replica'.answered → OriginGives outcome replica.answered :=
      fun later => later.mono (replicaStep_answered taken)
    constructor
    · intro later
      exact (warmed (before later)).later i ((progress (before later)).step later taken).1
    · exact fun later => ((progress (before later)).step later taken).2
  · intro i j replica task replica' task' other _ progress taken otherProgress later
    have before := later.mono (replicaStep_answered taken)
    exact (otherProgress before).later ((progress before).step later taken).1

end Pools

end Warmup

/-- A task that preloads no more, whether it came to the end of its list or not. -/
def ReplicaTask.Ended : ReplicaTask → Prop
  | .preload ⟨_, .finished⟩ => True
  | .preload ⟨_, .panicked⟩ => True
  | .preload _ => False
  | .proxy _ => True

section Ends
variable {brotli : Brotli} {outcome : String → Option String} {cache : String → Option ByteArray}

/-- At its end a task has cached the paths in front of the first failing one. -/
theorem ReplicaTask.Progress.ended {task : ReplicaTask} {request : ReplicaRequest}
    (progress : task.Progress brotli outcome cache request) (ended : task.Ended) :
    ∀ path ∈ fetchedPaths outcome request.listed, Warm brotli outcome cache path := by
  rcases task with ⟨paths, pc⟩ | task
  · obtain ⟨fetched, warm, place⟩ := progress
    have front : ∀ path ∈ fetched, (outcome path).isSome := fun path member => (warm path member).isSome
    have stop : fetchedPaths outcome request.listed = fetched := by
      cases pc with
      | finished =>
        have whole : request.listed = fetched ++ [] := by simpa using place
        exact fetchedPaths_eq whole front (fun path member => by cases member)
      | panicked =>
        obtain ⟨failing, rest, split, fails⟩ := place
        refine fetchedPaths_eq split front fun path member => ?_
        cases member
        exact fails
      | _ => exact ended.elim
    rw [stop]
    exact warm
  · have nothing : request.listed = [] := progress
    rw [nothing]
    intro path member
    cases member

end Ends

end SimpleCdn
