import SimpleCdn.Replica.Tasks

namespace SimpleCdn

/-- The origin has answered a request for the path with this text, and not as a
server error. -/
def FromOrigin (answered : List (String × OriginAnswer)) (path text : String) : Prop :=
  ∃ status, ¬ isServerError status ∧ (path, OriginAnswer.response status (some text)) ∈ answered

theorem FromOrigin.later {answered later : List (String × OriginAnswer)} {path text : String}
    (grows : answered ⊆ later) (heard : FromOrigin answered path text) : FromOrigin later path text := by
  obtain ⟨status, noError, member⟩ := heard
  exact ⟨status, noError, grows member⟩

/-- A fetch that ends with a text has heard it in its last answer. -/
theorem fromOrigin_of_fetched {answered : List (String × OriginAnswer)} {path text : String}
    {answer : OriginAnswer} (fetched : fetchFromOrigin answer = .content text) :
    FromOrigin ((path, answer) :: answered) path text := by
  obtain ⟨status, noError, rfl⟩ := fetchFromOrigin_content fetched
  exact ⟨status, noError, List.mem_cons_self ..⟩

section Provenance
variable (brotli : Brotli) (disk : String → Option ByteArray)

/-- The bytes are the compressed text of such an answer. -/
def Compressed (answered : List (String × OriginAnswer)) (path : String) (compressed : ByteArray) : Prop :=
  ∃ text, compressed = brotli.compress text ∧ FromOrigin answered path text

def Replica.Traced (replica : Replica) : Prop :=
  ∀ path compressed, replica.ramCache path = some compressed → Compressed brotli replica.answered path compressed

def WriteUse.Traced (answered : List (String × OriginAnswer)) : WriteUse → Prop
  | .insert path compressed => Compressed brotli answered path compressed
  | .shrinkToFit => True

def PreloadTask.Traced (answered : List (String × OriginAnswer)) (task : PreloadTask) : Prop :=
  match task.pc with
  | .compressing path content => FromOrigin answered path content
  | .awaiting use => use.Traced brotli answered
  | .queued use => use.Traced brotli answered
  | .writing use => use.Traced brotli answered
  | _ => True

/-- A reply is the text of an answer for its path, or that of the file on disk. -/
def ProxyTask.Traced (answered : List (String × OriginAnswer)) (task : ProxyTask) : Prop :=
  match task.pc with
  | .ramHit compressed => Compressed brotli answered task.path compressed
  | .diskHit compressed => disk task.path = some compressed
  | .replied response => response.status = 200 ∧ (FromOrigin answered task.path response.text ∨
      ∃ compressed, disk task.path = some compressed ∧ brotli.decompress compressed = some response.text)
  | _ => True

def ReplicaTask.Traced (answered : List (String × OriginAnswer)) : ReplicaTask → Prop
  | .preload task => task.Traced brotli answered
  | .proxy task => task.Traced brotli disk answered

variable {brotli disk}

theorem Compressed.later {answered later : List (String × OriginAnswer)} {path : String} {compressed : ByteArray}
    (grows : answered ⊆ later) (traced : Compressed brotli answered path compressed) :
    Compressed brotli later path compressed := by
  obtain ⟨text, same, heard⟩ := traced
  exact ⟨text, same, heard.later grows⟩

theorem WriteUse.Traced.later {answered later : List (String × OriginAnswer)} {use : WriteUse}
    (grows : answered ⊆ later) (traced : use.Traced brotli answered) : use.Traced brotli later := by
  cases use with
  | insert path compressed => exact Compressed.later grows traced
  | shrinkToFit => trivial

/-- Facts about a task outlive the answers to others. -/
theorem ReplicaTask.Traced.later {answered later : List (String × OriginAnswer)} {task : ReplicaTask}
    (grows : answered ⊆ later) (traced : task.Traced brotli disk answered) : task.Traced brotli disk later := by
  rcases task with ⟨paths, pc⟩ | ⟨path, pc⟩
  · cases pc with
    | compressing path content => exact FromOrigin.later grows traced
    | awaiting use => exact WriteUse.Traced.later grows traced
    | queued use => exact WriteUse.Traced.later grows traced
    | writing use => exact WriteUse.Traced.later grows traced
    | _ => trivial
  · cases pc with
    | ramHit compressed => exact Compressed.later grows traced
    | diskHit compressed => exact traced
    | replied response =>
      obtain ⟨ok, heard | stored⟩ := traced
      · exact ⟨ok, Or.inl (heard.later grows)⟩
      · exact ⟨ok, Or.inr stored⟩
    | _ => trivial

theorem Replica.Traced.later {replica replica' : Replica} (cached : replica.Traced brotli)
    (grows : replica.answered ⊆ replica'.answered) (same : replica'.ramCache = replica.ramCache) :
    replica'.Traced brotli := by
  intro path compressed found
  rw [same] at found
  exact (cached path compressed found).later grows

/-- A preload task inserts only what it has fetched for the path it inserts. -/
theorem PreloadTask.Traced.step {around : Surroundings} {replica replica' : Replica} {task task' : PreloadTask}
    (cached : replica.Traced brotli) (traced : task.Traced brotli replica.answered)
    (taken : task.step brotli around replica = some (replica', task')) :
    replica'.Traced brotli ∧ task'.Traced brotli replica'.answered := by
  have grows := PreloadTask.step_answered taken
  obtain ⟨paths, pc⟩ := task
  cases pc with
  | next => cases paths <;> cases taken <;> exact ⟨cached, trivial⟩
  | fetching path =>
    cases taken
    refine ⟨cached.later grows rfl, ?_⟩
    cases fetched : fetchFromOrigin around.answer with
    | retry => trivial
    | panicked => trivial
    | content text => exact fromOrigin_of_fetched fetched
  | compressing path content =>
    cases taken
    exact ⟨cached, content, rfl, traced⟩
  | awaiting use =>
    cases taken
    exact ⟨cached, traced⟩
  | queued use =>
    obtain ⟨lock, _, ends⟩ := Option.map_eq_some_iff.mp taken
    cases ends
    exact ⟨cached, traced⟩
  | writing use =>
    cases use with
    | shrinkToFit =>
      cases taken
      exact ⟨cached, trivial⟩
    | insert path compressed =>
      cases taken
      refine ⟨fun other bytes found => ?_, trivial⟩
      simp only [Replica.withLock, Replica.insert, Function.update_apply] at found
      split at found
      · rename_i here
        cases Option.some.inj found
        exact here ▸ traced
      · exact cached other bytes found
  | reporting =>
    obtain ⟨lock, _, ends⟩ := Option.map_eq_some_iff.mp taken
    cases ends
    exact ⟨cached, trivial⟩
  | finished => cases taken
  | panicked => cases taken

/-- Decompressed bytes become a reply with their text, or a panic. -/
theorem traced_decompressed {answered : List (String × OriginAnswer)} {path : String} {compressed : ByteArray}
    (origin : ∀ text, brotli.decompress compressed = some text → FromOrigin answered path text ∨
      ∃ bytes, disk path = some bytes ∧ brotli.decompress bytes = some text) :
    ProxyTask.Traced brotli disk answered
      ⟨path, ((brotli.decompress compressed).map fun text => .replied (html text)).getD .panicked⟩ := by
  cases found : brotli.decompress compressed with
  | none => trivial
  | some text => exact ⟨rfl, origin text found⟩

theorem ProxyTask.Traced.step {around : Surroundings} {replica replica' : Replica} {task task' : ProxyTask}
    (cached : replica.Traced brotli) (traced : task.Traced brotli disk replica.answered)
    (taken : task.step brotli disk around replica = some (replica', task')) :
    task'.Traced brotli disk replica'.answered := by
  obtain ⟨path, pc⟩ := task
  cases pc with
  | tryRead =>
    cases locked : replica.lock.tryRead <;> simp only [ProxyTask.step, locked] at taken <;> cases taken <;> trivial
  | lookup =>
    cases found : replica.ramCache path with
    | none =>
      simp only [ProxyTask.step, found] at taken
      cases taken
      trivial
    | some compressed =>
      simp only [ProxyTask.step, found] at taken
      cases taken
      exact cached path compressed found
  | ramHit compressed =>
    obtain ⟨text, rfl, heard⟩ := traced
    cases taken
    refine traced_decompressed fun text' read => Or.inl ?_
    rw [brotli.decompress_compress] at read
    exact Option.some.inj read ▸ heard
  | diskRead =>
    cases stored : disk path with
    | none =>
      simp only [ProxyTask.step, stored] at taken
      cases taken
      trivial
    | some compressed =>
      cases readable : around.readable <;> simp only [ProxyTask.step, stored, readable] at taken <;> cases taken
      · trivial
      · exact stored
  | diskHit compressed =>
    cases taken
    exact traced_decompressed fun text read => Or.inr ⟨compressed, traced, read⟩
  | fetching =>
    cases taken
    cases fetched : fetchFromOrigin around.answer with
    | retry => trivial
    | panicked => trivial
    | content text => exact ⟨rfl, Or.inl (fromOrigin_of_fetched fetched)⟩
  | replied response => cases taken
  | panicked => cases taken

theorem replicaStep_traced {replica replica' : Replica} {task task' : ReplicaTask}
    (cached : replica.Traced brotli) (traced : task.Traced brotli disk replica.answered)
    (taken : replicaStep brotli disk replica task replica' task') :
    replica'.Traced brotli ∧ task'.Traced brotli disk replica'.answered := by
  obtain ⟨around, taken⟩ := taken
  cases task with
  | preload task =>
    obtain ⟨next, moved, ends⟩ := Option.map_eq_some_iff.mp taken
    cases ends
    exact PreloadTask.Traced.step cached traced moved
  | proxy task =>
    obtain ⟨next, moved, ends⟩ := Option.map_eq_some_iff.mp taken
    cases ends
    obtain ⟨grows, same, _⟩ := ProxyTask.step_reads moved
    exact ⟨cached.later grows same, ProxyTask.Traced.step cached traced moved⟩

theorem ReplicaRequest.task_traced (request : ReplicaRequest) (answered : List (String × OriginAnswer)) :
    request.task.Traced brotli disk answered := by
  cases request <;> trivial

section Pools
variable {ι : Type} [DecidableEq ι] {earlier : List (String × OriginAnswer)} {requests : ι → ReplicaRequest}
  {p : Pool ι Replica ReplicaTask}

/-- In every run, what is cached and what is replied goes back to an answer of
the origin for the same path that was no server error, or to the disk. -/
theorem reach_traced (reach : Pool.Reach (replicaStep brotli disk) Pool.Free (replicaPool earlier requests) p) :
    (p.shared.Traced brotli ∧ earlier ⊆ p.shared.answered) ∧
      ∀ i, (p.task i).Traced brotli disk p.shared.answered := by
  refine Pool.Reach.modular (fun replica => replica.Traced brotli ∧ earlier ⊆ replica.answered)
    (fun replica task => task.Traced brotli disk replica.answered) reach ⟨?_, List.Subset.refl _⟩ ?_ ?_ ?_
  · intro path compressed found
    cases found
  · exact fun i => (requests i).task_traced earlier
  · rintro s t s' t' ⟨cached, old⟩ traced taken
    obtain ⟨cachedNext, tracedNext⟩ := replicaStep_traced cached traced taken
    exact ⟨⟨cachedNext, List.Subset.trans old (replicaStep_answered taken)⟩, tracedNext⟩
  · rintro s t s' t' u _ _ taken other
    exact other.later (replicaStep_answered taken)

end Pools

end Provenance

end SimpleCdn
