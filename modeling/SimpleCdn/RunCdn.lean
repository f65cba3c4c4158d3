import SimpleCdn.Lib.Interleaving
import SimpleCdn.Lib.Text
import Mathlib.Algebra.BigOperators.Fin
import Mathlib.Data.Fintype.BigOperators
import Mathlib.Tactic.FinCases

namespace SimpleCdn

/-- The text that `preload` reads from its file and sends. -/
def preloadFiles (file : String) : String :=
  String.ofList ((universalNewlines file.toList).map fun c => if c = '\n' then ';' else c)

namespace RunCdn

/-- The module variable, which no option changes. -/
def modulePort : Nat := 0

def preloadUrl (replica : String) : String := "http://" ++ replica ++ ":" ++ toString modulePort ++ "/preload"

theorem preloadUrl_injective : Function.Injective preloadUrl := by
  intro replica other same
  have texts := congrArg String.toList same
  simp only [preloadUrl, String.toList_append, List.append_cancel_left_eq, List.append_cancel_right_eq] at texts
  exact String.toList_injective texts

/-- What the main loop and its threads share: the module variable `replica`,
the arguments of the threads started so far, and the requests posted so far. -/
structure Script where
  replica : Option String
  started : List String
  posted : List (String × String)

/-- The loop over `REPLICA_SERVERS`, with the hosts it has yet to visit. -/
inductive LoopPc
  | assign (hosts : List String)
  | start (hosts : List String)

inductive PreloadPc
  | opening
  | read (preloadFiles : String)
  | addressed (url preloadFiles : String)
  | returned
  deriving DecidableEq

/-- A call of `preload`. Its argument is never looked at. -/
structure PreloadCall where
  replicaName : String
  pc : PreloadPc
  deriving DecidableEq

/-- The main loop, a thread that has not run yet, or one that runs. -/
inductive ScriptTask
  | main (pc : LoopPc)
  | waiting (i : Nat)
  | preload (call : PreloadCall)

/-- The URL is built from the module variable, at the time it is built. -/
def PreloadCall.step (file : String) (script : Script) (call : PreloadCall) : Option (Script × PreloadCall) :=
  match call.pc with
  | .opening => some (script, { call with pc := .read (preloadFiles file) })
  | .read preloadFiles =>
    script.replica.map fun replica => (script, { call with pc := .addressed (preloadUrl replica) preloadFiles })
  | .addressed url preloadFiles =>
    some ({ script with posted := script.posted ++ [(url, preloadFiles)] }, { call with pc := .returned })
  | .returned => none

def ScriptTask.step (file : String) (script : Script) : ScriptTask → Option (Script × ScriptTask)
  | .main (.assign []) => none
  | .main (.assign (host :: rest)) => some ({ script with replica := some host }, .main (.start rest))
  | .main (.start rest) =>
    script.replica.map fun replica => ({ script with started := script.started ++ [replica] }, .main (.assign rest))
  | .waiting i => script.started[i]?.map fun replicaName => (script, .preload ⟨replicaName, .opening⟩)
  | .preload call => (call.step file script).map fun next => (next.1, .preload next.2)

/-- The main loop is the task without a number. -/
def scriptPool (hosts : List String) : Pool (Option (Fin hosts.length)) Script ScriptTask where
  shared := ⟨none, [], []⟩
  task
    | none => .main (.assign hosts)
    | some i => .waiting i

def scriptStep (file : String) (script : Script) (task : ScriptTask) (script' : Script) (task' : ScriptTask) : Prop :=
  task.step file script = some (script', task')

/-- The thread has built its URL. -/
def ScriptTask.Addressed : ScriptTask → Prop
  | .preload ⟨_, .addressed _ _⟩ => True
  | .preload ⟨_, .returned⟩ => True
  | _ => False

/-- The loop goes on to the next host only when all threads that it has started
have built their URLs. -/
def Patient {n : Nat} (p : Pool (Option (Fin n)) Script ScriptTask) : Option (Fin n) → Prop
  | none =>
    match p.task none with
    | .main (.assign _) => ∀ i : Fin n, i < p.shared.started.length → (p.task (some i)).Addressed
    | _ => True
  | some _ => True

def ScriptTask.Finished : ScriptTask → Prop
  | .main (.assign []) => True
  | .preload ⟨_, .returned⟩ => True
  | _ => False

/-- When all threads have finished, each host has been sent one request. -/
def WarmsEveryHost (hosts : List String) (p : Pool (Option (Fin hosts.length)) Script ScriptTask) : Prop :=
  (∀ j, (p.task j).Finished) →
    ∀ host ∈ hosts, p.shared.posted.countP (fun request => request.1 = preloadUrl host) = 1

/-- Where the loop is: the hosts that it has started threads for are a first
part of the list. -/
def LoopPc.Fits (hosts : List String) (script : Script) : LoopPc → Prop
  | .assign rest => script.started ++ rest = hosts
  | .start rest => ∃ host, script.replica = some host ∧ script.started ++ host :: rest = hosts

/-- A thread that has built its URL has built that of its argument, and one that
has yet to build it finds its argument in the module variable. -/
structure ScriptTask.OfThread (script : Script) (i : Nat) (task : ScriptTask) : Prop where
  runs : task = .waiting i ∨ ∃ call, task = .preload call ∧ script.started[i]? = some call.replicaName ∧
    ∀ url body, call.pc = .addressed url body → url = preloadUrl call.replicaName
  current : ¬ task.Addressed → ∀ name, script.started[i]? = some name → script.replica = some name

def ScriptTask.Own {n : Nat} (hosts : List String) (script : Script) (task : ScriptTask) : Option (Fin n) → Prop
  | none => ∃ pc, task = .main pc ∧ pc.Fits hosts script
  | some i => task.OfThread script i

/-- The request that a call has posted. -/
def ScriptTask.share (host : String) : ScriptTask → Nat
  | .preload ⟨name, .returned⟩ => if name = host then 1 else 0
  | _ => 0

section Steps
variable {file : String} {script script' : Script}

theorem ScriptTask.OfThread.same {i : Nat} {task : ScriptTask} (own : task.OfThread script i)
    (started : script'.started = script.started) (replica : script'.replica = script.replica) :
    task.OfThread script' i := by
  constructor
  · rw [started]
    exact own.runs
  · rw [started, replica]
    exact own.current

/-- A thread leaves the loop's variables alone, and what it posts goes to the
host that it was started for. -/
theorem ScriptTask.OfThread.step {i : Nat} {task task' : ScriptTask} (own : task.OfThread script i)
    (taken : scriptStep file script task script' task') :
    task'.OfThread script' i ∧ script'.started = script.started ∧ script'.replica = script.replica ∧
      ∀ host, script'.posted.countP (fun request => request.1 = preloadUrl host) + task.share host =
        script.posted.countP (fun request => request.1 = preloadUrl host) + task'.share host := by
  rcases own.runs with rfl | ⟨⟨name, pc⟩, rfl, argument, addressed⟩
  · obtain ⟨name, found, ends⟩ := Option.map_eq_some_iff.mp taken
    cases ends
    refine ⟨⟨Or.inr ⟨_, rfl, found, fun _ _ other => by cases other⟩, fun _ => own.current id⟩, rfl, rfl,
      fun host => rfl⟩
  · obtain ⟨⟨after, next⟩, moved, ends⟩ := Option.map_eq_some_iff.mp taken
    cases ends
    cases pc with
    | opening =>
      cases moved
      exact ⟨⟨Or.inr ⟨_, rfl, argument, fun _ _ other => by cases other⟩, fun _ => own.current id⟩, rfl,
        rfl, fun host => rfl⟩
    | read text =>
      obtain ⟨replica, here, ends⟩ := Option.map_eq_some_iff.mp moved
      cases ends
      have same : replica = name := by
        rw [own.current id name argument] at here
        exact (Option.some.inj here).symm
      refine ⟨⟨Or.inr ⟨_, rfl, argument, fun url body built => ?_⟩,
        fun unbuilt => absurd trivial unbuilt⟩, rfl, rfl, fun host => rfl⟩
      cases built
      rw [same]
    | addressed url text =>
      cases moved
      refine ⟨⟨Or.inr ⟨_, rfl, argument, fun _ _ other => by cases other⟩,
        fun unbuilt => absurd trivial unbuilt⟩, rfl, rfl, fun host => ?_⟩
      have own' : url = preloadUrl name := addressed url text rfl
      rw [List.countP_append, own']
      by_cases same : name = host
      · simp [ScriptTask.share, same]
      · have apart : preloadUrl name ≠ preloadUrl host := fun urls => same (preloadUrl_injective urls)
        simp [ScriptTask.share, same, apart]
    | returned => cases moved

/-- The next host is assigned when no thread waits for the current one. -/
theorem ScriptTask.OfThread.assigned {i : Nat} {task : ScriptTask} (own : task.OfThread script i)
    (built : i < script.started.length → task.Addressed) (host : String) :
    task.OfThread { script with replica := some host } i where
  runs := own.runs
  current unbuilt name found := by
    obtain ⟨bound, _⟩ := List.getElem?_eq_some_iff.mp found
    exact absurd (built bound) unbuilt

/-- A thread is started for the current host. -/
theorem ScriptTask.OfThread.started {i : Nat} {task : ScriptTask} (own : task.OfThread script i) {replica : String}
    (current : script.replica = some replica) :
    task.OfThread { script with started := script.started ++ [replica] } i where
  runs := by
    rcases own.runs with waiting | ⟨call, running, argument, addressed⟩
    · exact Or.inl waiting
    · obtain ⟨bound, _⟩ := List.getElem?_eq_some_iff.mp argument
      exact Or.inr ⟨call, running, by rw [List.getElem?_append_left bound, argument], addressed⟩
  current unbuilt name found := by
    by_cases bound : i < script.started.length
    · rw [List.getElem?_append_left bound] at found
      exact own.current unbuilt name found
    · rw [List.getElem?_append_right (Nat.le_of_not_lt bound)] at found
      have last : name ∈ [replica] := List.mem_of_getElem? found
      rw [List.mem_singleton.mp last]
      exact current

end Steps

section Runs
variable {hosts : List String} {file : String} {p : Pool (Option (Fin hosts.length)) Script ScriptTask}

/-- Every task has what it needs, and the posted requests are those of the
threads that have returned. -/
structure Sends (hosts : List String) (p : Pool (Option (Fin hosts.length)) Script ScriptTask) : Prop where
  own : ∀ j, (p.task j).Own hosts p.shared j
  counted : ∀ host, p.shared.posted.countP (fun request => request.1 = preloadUrl host) =
    ∑ j, (p.task j).share host

theorem sends_start (hosts : List String) : Sends hosts (scriptPool hosts) where
  own j := by
    cases j with
    | none => exact ⟨_, rfl, rfl⟩
    | some i => exact ⟨Or.inl rfl, fun _ name found => by cases found⟩
  counted host := by
    have nothing : ∀ j, ((scriptPool hosts).task j).share host = 0 := by
      intro j
      cases j <;> rfl
    rw [Finset.sum_congr rfl fun j _ => nothing j, Finset.sum_const_zero]
    rfl

/-- A step of the main loop posts nothing. -/
theorem Sends.of_main (sends : Sends hosts p) {script : Script} {pc : LoopPc} (fits : pc.Fits hosts script)
    (posted : script.posted = p.shared.posted)
    (threads : ∀ i : Fin hosts.length, (p.task (some i)).OfThread script i) :
    Sends hosts (p.advance none script (.main pc)) where
  own j := by
    cases j with
    | none =>
      rw [Pool.advance_self]
      exact ⟨pc, rfl, fits⟩
    | some i =>
      rw [Pool.advance_other p _ _ (Option.some_ne_none i)]
      exact threads i
  counted host := by
    obtain ⟨old, main, _⟩ := sends.own none
    have total := Pool.sum_advance (ScriptTask.share host) p none script (.main pc)
    rw [main] at total
    rw [Pool.advance_shared, posted, sends.counted host]
    exact total.symm

theorem Sends.advance (sends : Sends hosts p) {j : Option (Fin hosts.length)} (patient : Patient p j)
    {script : Script} {task : ScriptTask} (taken : scriptStep file p.shared (p.task j) script task) :
    Sends hosts (p.advance j script task) := by
  have threads : ∀ i : Fin hosts.length, (p.task (some i)).OfThread p.shared i := fun i => sends.own (some i)
  cases j with
  | none =>
    obtain ⟨pc, main, fits⟩ := sends.own none
    rw [main] at taken
    cases pc with
    | assign rest =>
      cases rest with
      | nil => cases taken
      | cons host rest =>
        cases taken
        have built : ∀ i : Fin hosts.length, i < p.shared.started.length → (p.task (some i)).Addressed := by
          simpa only [Patient, main] using patient
        exact sends.of_main ⟨host, rfl, fits⟩ rfl fun i => (threads i).assigned (built i) host
    | start rest =>
      obtain ⟨replica, here, ends⟩ := Option.map_eq_some_iff.mp taken
      cases ends
      obtain ⟨host, current, split⟩ := fits
      have same : replica = host := by
        rw [current] at here
        exact (Option.some.inj here).symm
      refine sends.of_main ?_ rfl fun i => (threads i).started here
      rw [LoopPc.Fits, same, List.append_assoc]
      exact split
  | some i =>
    obtain ⟨next, started, replica, posts⟩ := (threads i).step taken
    constructor
    · intro j
      by_cases other : j = some i
      · subst other
        rw [Pool.advance_self]
        exact next
      · rw [Pool.advance_other p _ _ other]
        cases j with
        | none =>
          obtain ⟨pc, main, fits⟩ := sends.own none
          refine ⟨pc, main, ?_⟩
          cases pc <;> simpa only [LoopPc.Fits, Pool.advance_shared, started, replica] using fits
        | some k => exact (threads k).same started replica
    · intro host
      have total := Pool.sum_advance (ScriptTask.share host) p (some i) script task
      have moved := posts host
      rw [sends.counted host] at moved
      exact add_right_cancel (moved.trans total.symm)

/-- When everything has ended, the thread of each host has posted to it. -/
theorem Sends.finished (sends : Sends hosts p) (finished : ∀ j, (p.task j).Finished) (i : Fin hosts.length) :
    p.task (some i) = .preload ⟨hosts.get i, .returned⟩ := by
  obtain ⟨pc, main, fits⟩ := sends.own none
  have ended := finished none
  rw [main] at ended
  have all : p.shared.started = hosts := by
    cases pc with
    | assign rest =>
      cases rest with
      | nil => simpa [LoopPc.Fits] using fits
      | cons host rest => exact absurd ended id
    | start rest => exact absurd ended id
  have returned := finished (some i)
  rcases (sends.own (some i)).runs with waiting | ⟨⟨name, pc⟩, running, argument, _⟩
  · rw [waiting] at returned
    exact absurd returned id
  · rw [running] at returned ⊢
    cases pc with
    | returned =>
      rw [all, List.getElem?_eq_getElem i.isLt] at argument
      have own : hosts.get i = name := Option.some.inj argument
      rw [own]
    | _ => exact absurd returned id

/-- While the loop waits for each URL before it goes on, every host of the list
is sent one request. -/
theorem warms_every_host (distinct : hosts.Nodup)
    (reach : Pool.Reach (scriptStep file) Patient (scriptPool hosts) p) : WarmsEveryHost hosts p := by
  have sends : Sends hosts p := Pool.Reach.invariant _ reach
    (sends_start hosts) fun q j script task sends patient taken =>
    sends.advance patient taken
  intro finished host member
  obtain ⟨i, here⟩ := List.get_of_mem member
  have posted : ∀ k : Fin hosts.length, (p.task (some k)).share host = if k = i then 1 else 0 := by
    intro k
    rw [sends.finished finished k]
    by_cases same : k = i
    · simp [ScriptTask.share, same, ← here]
    · have apart : hosts.get k ≠ host := fun equal => same (distinct.injective_get (equal.trans here.symm))
      rw [if_neg same]
      exact if_neg apart
  obtain ⟨pc, main, _⟩ := sends.own none
  rw [sends.counted host, Fintype.sum_option, main, Finset.sum_congr rfl fun k _ => posted k, Finset.sum_ite_eq']
  simp [ScriptTask.share]

end Runs

instance (task : ScriptTask) : Decidable task.Addressed :=
  match task with
  | .preload ⟨_, .addressed _ _⟩ => .isTrue trivial
  | .preload ⟨_, .returned⟩ => .isTrue trivial
  | .preload ⟨_, .opening⟩ => .isFalse id
  | .preload ⟨_, .read _⟩ => .isFalse id
  | .main _ => .isFalse id
  | .waiting _ => .isFalse id

instance (task : ScriptTask) : Decidable task.Finished :=
  match task with
  | .main (.assign []) => .isTrue trivial
  | .preload ⟨_, .returned⟩ => .isTrue trivial
  | .main (.assign (_ :: _)) => .isFalse id
  | .main (.start _) => .isFalse id
  | .preload ⟨_, .opening⟩ => .isFalse id
  | .preload ⟨_, .read _⟩ => .isFalse id
  | .preload ⟨_, .addressed _ _⟩ => .isFalse id
  | .waiting _ => .isFalse id

instance {n : Nat} (p : Pool (Option (Fin n)) Script ScriptTask) (j : Option (Fin n)) : Decidable (Patient p j) := by
  unfold Patient
  split
  · split <;> infer_instance
  · infer_instance

def twoHosts : List String := ["proj4-repl1.5700.network", "proj4-repl2.5700.network"]

theorem twoHosts_nodup : twoHosts.Nodup := by decide

def mainLoop : Option (Fin twoHosts.length) := none

def firstThread : Option (Fin twoHosts.length) := some ⟨0, by decide⟩

def secondThread : Option (Fin twoHosts.length) := some ⟨1, by decide⟩

theorem warms_both_hosts : ∃ p, Pool.Reach (scriptStep "index.html\n") Patient (scriptPool twoHosts) p ∧
    (∀ j, (p.task j).Finished) ∧ WarmsEveryHost twoHosts p := by
  have run : (Pool.runSchedule (ScriptTask.step "index.html\n") Patient (scriptPool twoHosts)
      [mainLoop, mainLoop, firstThread, firstThread, firstThread, mainLoop, mainLoop, firstThread, secondThread,
        secondThread, secondThread, secondThread]).map
        (fun p => decide (∀ j, (p.task j).Finished)) = some true := by
    decide +kernel
  obtain ⟨p, reached, ends⟩ := Option.map_eq_some_iff.mp run
  have reach : Pool.Reach (scriptStep "index.html\n") Patient (scriptPool twoHosts) p :=
    Pool.runSchedule_reach reached
  exact ⟨p, reach, of_decide_eq_true ends, warms_every_host twoHosts_nodup reach⟩

/-- The first thread builds its URL when the loop has gone on to the second host. -/
theorem first_host_missed :
    ∃ p, Pool.Reach (scriptStep "index.html\n") Pool.Free (scriptPool twoHosts) p ∧
      ¬ WarmsEveryHost twoHosts p := by
  have run : (Pool.runSchedule (ScriptTask.step "index.html\n") Pool.Free (scriptPool twoHosts)
      [mainLoop, mainLoop, firstThread, mainLoop, mainLoop, firstThread, firstThread, firstThread, secondThread,
        secondThread, secondThread, secondThread]).map
        (fun p => decide (∀ j, (p.task j).Finished) && decide (p.shared.posted.countP
          (fun request => request.1 = preloadUrl "proj4-repl1.5700.network") = 0)) = some true := by
    decide +kernel
  obtain ⟨p, reached, ends⟩ := Option.map_eq_some_iff.mp run
  obtain ⟨finished, missed⟩ := Bool.and_eq_true_iff.mp ends
  refine ⟨p, Pool.runSchedule_reach reached, fun warms => ?_⟩
  have once := warms (of_decide_eq_true finished) "proj4-repl1.5700.network" (List.mem_cons_self ..)
  rw [of_decide_eq_true missed] at once
  cases once

end RunCdn

end SimpleCdn
