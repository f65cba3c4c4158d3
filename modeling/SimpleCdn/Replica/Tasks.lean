import SimpleCdn.Wire
import SimpleCdn.Lib.Interleaving
import SimpleCdn.Lib.Text
import SimpleCdn.Replica.Content
import Mathlib.Logic.Function.Basic

namespace SimpleCdn

/-- The lock of the cache. A writer that waits keeps new readers out. -/
structure RwLock where
  readers : Nat
  writer : Bool
  waiting : Nat
  deriving DecidableEq

namespace RwLock

def free : RwLock := ⟨0, false, 0⟩

def tryRead (lock : RwLock) : Option RwLock :=
  if lock.writer = false ∧ lock.waiting = 0 then some { lock with readers := lock.readers + 1 } else none

def releaseRead (lock : RwLock) : RwLock := { lock with readers := lock.readers - 1 }

def queueWrite (lock : RwLock) : RwLock := { lock with waiting := lock.waiting + 1 }

def write (lock : RwLock) : Option RwLock :=
  if lock.writer = false ∧ lock.readers = 0 then
    some { lock with writer := true, waiting := lock.waiting - 1 }
  else none

def releaseWrite (lock : RwLock) : RwLock := { lock with writer := false }

end RwLock

/-- What the tasks of a replica share, with the answers that the origin has
given so far, newest first. -/
structure Replica where
  ramCache : String → Option ByteArray
  lock : RwLock
  answered : List (String × OriginAnswer)

namespace Replica

def hear (replica : Replica) (path : String) (answer : OriginAnswer) : Replica :=
  { replica with answered := (path, answer) :: replica.answered }

def insert (replica : Replica) (path : String) (compressed : ByteArray) : Replica :=
  { replica with ramCache := Function.update replica.ramCache path (some compressed) }

def withLock (replica : Replica) (lock : RwLock) : Replica := { replica with lock := lock }

end Replica

inductive WriteUse
  | insert (path : String) (compressed : ByteArray)
  | shrinkToFit

inductive PreloadPc
  | next
  | fetching (path : String)
  | compressing (path : String) (content : String)
  | awaiting (use : WriteUse)
  | queued (use : WriteUse)
  | writing (use : WriteUse)
  | reporting
  | finished
  | panicked

/-- The task that a preload request spawns, with the paths it has yet to fetch. -/
structure PreloadTask where
  paths : List String
  pc : PreloadPc

/-- The paths that the body of a preload request lists. -/
def preloadPaths (body : String) : List String := (splitOnChar ';' body).filter (· ≠ "")

def preload (body : String) : PreloadTask := ⟨preloadPaths body, .next⟩

/-- The part of the environment that a step may ask: the origin for its next
answer, and the disk whether a file can be read now. -/
structure Surroundings where
  answer : OriginAnswer
  readable : Bool

section Steps
variable (brotli : Brotli) (disk : String → Option ByteArray) (around : Surroundings)

/-- The usage report at the end takes and releases a read lock and is not
modelled further. -/
def PreloadTask.step (replica : Replica) (task : PreloadTask) : Option (Replica × PreloadTask) :=
  match task.pc with
  | .next =>
    match task.paths with
    | [] => some (replica, { task with pc := .awaiting .shrinkToFit })
    | path :: rest => some (replica, ⟨rest, .fetching path⟩)
  | .fetching path =>
    some (replica.hear path around.answer, { task with
      pc :=
        match fetchFromOrigin around.answer with
        | .retry => .fetching path
        | .content text => .compressing path text
        | .panicked => .panicked })
  | .compressing path content =>
    some (replica, { task with pc := .awaiting (.insert path (brotli.compress content)) })
  | .awaiting use => some (replica.withLock replica.lock.queueWrite, { task with pc := .queued use })
  | .queued use =>
    replica.lock.write.map fun lock => (replica.withLock lock, { task with pc := .writing use })
  | .writing (.insert path compressed) =>
    some ((replica.insert path compressed).withLock replica.lock.releaseWrite, { task with pc := .next })
  | .writing .shrinkToFit =>
    some (replica.withLock replica.lock.releaseWrite, { task with pc := .reporting })
  | .reporting => replica.lock.tryRead.map fun _ => (replica, { task with pc := .finished })
  | .finished => none
  | .panicked => none

inductive ProxyPc
  | tryRead
  | lookup
  | ramHit (compressed : ByteArray)
  | diskRead
  | diskHit (compressed : ByteArray)
  | fetching
  | replied (response : HttpResponse)
  | panicked

structure ProxyTask where
  path : String
  pc : ProxyPc

def proxy (path : String) : ProxyTask := ⟨path, .tryRead⟩

/-- `warp::reply::html`. The status is always the same. -/
def html (text : String) : HttpResponse := ⟨200, text⟩

/-- The cached bytes are decompressed under the read lock. -/
def ProxyTask.step (replica : Replica) (task : ProxyTask) : Option (Replica × ProxyTask) :=
  match task.pc with
  | .tryRead =>
    match replica.lock.tryRead with
    | some lock => some (replica.withLock lock, { task with pc := .lookup })
    | none => some (replica, { task with pc := .diskRead })
  | .lookup =>
    match replica.ramCache task.path with
    | some compressed => some (replica, { task with pc := .ramHit compressed })
    | none => some (replica.withLock replica.lock.releaseRead, { task with pc := .diskRead })
  | .ramHit compressed =>
    some (replica.withLock replica.lock.releaseRead, { task with
      pc := ((brotli.decompress compressed).map fun text => .replied (html text)).getD .panicked })
  | .diskRead =>
    match disk task.path, around.readable with
    | some compressed, true => some (replica, { task with pc := .diskHit compressed })
    | _, _ => some (replica, { task with pc := .fetching })
  | .diskHit compressed =>
    some (replica, { task with
      pc := ((brotli.decompress compressed).map fun text => .replied (html text)).getD .panicked })
  | .fetching =>
    some (replica.hear task.path around.answer, { task with
      pc :=
        match fetchFromOrigin around.answer with
        | .retry => .fetching
        | .content text => .replied (html text)
        | .panicked => .panicked })
  | .replied _ => none
  | .panicked => none

inductive ReplicaTask
  | preload (task : PreloadTask)
  | proxy (task : ProxyTask)

def ReplicaTask.step (replica : Replica) : ReplicaTask → Option (Replica × ReplicaTask)
  | .preload task => (task.step brotli around replica).map fun next => (next.1, .preload next.2)
  | .proxy task => (task.step brotli disk around replica).map fun next => (next.1, .proxy next.2)

end Steps

inductive ReplicaRequest
  | preload (body : String)
  | proxy (path : String)

def ReplicaRequest.task : ReplicaRequest → ReplicaTask
  | .preload body => .preload (SimpleCdn.preload body)
  | .proxy path => .proxy (SimpleCdn.proxy path)

section Steps
variable {brotli : Brotli} {disk : String → Option ByteArray} {around : Surroundings} {replica replica' : Replica}

/-- What the origin has answered is never forgotten. -/
theorem PreloadTask.step_answered {task task' : PreloadTask}
    (taken : task.step brotli around replica = some (replica', task')) :
    replica.answered ⊆ replica'.answered := by
  obtain ⟨paths, pc⟩ := task
  cases pc with
  | next => cases paths <;> cases taken <;> exact List.Subset.refl _
  | fetching path =>
    cases taken
    exact List.subset_cons_self (path, around.answer) replica.answered
  | compressing path content => cases taken; exact List.Subset.refl _
  | awaiting use => cases taken; exact List.Subset.refl _
  | queued use =>
    obtain ⟨lock, _, ends⟩ := Option.map_eq_some_iff.mp taken
    cases ends
    exact List.Subset.refl _
  | writing use => cases use <;> cases taken <;> exact List.Subset.refl _
  | reporting =>
    obtain ⟨lock, _, ends⟩ := Option.map_eq_some_iff.mp taken
    cases ends
    exact List.Subset.refl _
  | finished => cases taken
  | panicked => cases taken

/-- A request for a page only reads the cache, and is for the same page throughout. -/
theorem ProxyTask.step_reads {task task' : ProxyTask}
    (taken : task.step brotli disk around replica = some (replica', task')) :
    replica.answered ⊆ replica'.answered ∧ replica'.ramCache = replica.ramCache ∧ task'.path = task.path := by
  obtain ⟨path, pc⟩ := task
  cases pc with
  | tryRead =>
    cases locked : replica.lock.tryRead <;> simp only [ProxyTask.step, locked] at taken <;> cases taken <;>
      exact ⟨List.Subset.refl _, rfl, rfl⟩
  | lookup =>
    cases found : replica.ramCache path <;> simp only [ProxyTask.step, found] at taken <;> cases taken <;>
      exact ⟨List.Subset.refl _, rfl, rfl⟩
  | ramHit compressed => cases taken; exact ⟨List.Subset.refl _, rfl, rfl⟩
  | diskRead =>
    simp only [ProxyTask.step] at taken
    split at taken <;> cases taken <;> exact ⟨List.Subset.refl _, rfl, rfl⟩
  | diskHit compressed => cases taken; exact ⟨List.Subset.refl _, rfl, rfl⟩
  | fetching =>
    cases taken
    exact ⟨List.subset_cons_self (path, around.answer) replica.answered, rfl, rfl⟩
  | replied response => cases taken
  | panicked => cases taken

end Steps

section Pools
variable {ι : Type}

def replicaStep (brotli : Brotli) (disk : String → Option ByteArray) (replica : Replica) (task : ReplicaTask)
    (replica' : Replica) (task' : ReplicaTask) : Prop :=
  ∃ around, task.step brotli disk around replica = some (replica', task')

theorem replicaStep_answered {brotli : Brotli} {disk : String → Option ByteArray} {replica replica' : Replica}
    {task task' : ReplicaTask} (taken : replicaStep brotli disk replica task replica' task') :
    replica.answered ⊆ replica'.answered := by
  obtain ⟨around, taken⟩ := taken
  cases task with
  | preload task =>
    obtain ⟨next, moved, ends⟩ := Option.map_eq_some_iff.mp taken
    cases ends
    exact PreloadTask.step_answered moved
  | proxy task =>
    obtain ⟨next, moved, ends⟩ := Option.map_eq_some_iff.mp taken
    cases ends
    exact (ProxyTask.step_reads moved).1

/-- The requests before any has been served. The origin may have been heard
before, when the pages on the disk were made. -/
def replicaPool (earlier : List (String × OriginAnswer)) (requests : ι → ReplicaRequest) :
    Pool ι Replica ReplicaTask where
  shared := ⟨fun _ => none, RwLock.free, earlier⟩
  task i := (requests i).task

end Pools

end SimpleCdn
