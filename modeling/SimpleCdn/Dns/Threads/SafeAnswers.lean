import SimpleCdn.Dns.Threads.ResolveCalls
import Mathlib.Data.Fintype.Basic

namespace SimpleCdn

/-- The client's dictionary has a replica, and none of its entries is still
waiting for its first sample. -/
structure Heap.Measured (heap : Heap) (client : Key) (table : Nat) : Prop where
  known : heap.outer.get? client = some table
  nonempty : (heap.tables table).keys ≠ []
  sampled : ∀ replica e, (heap.tables table).get? replica = some e → (heap.entries e).samples ≠ 0

/-- A client that the table knows has only finished entries, and at least one. -/
def Heap.Complete (heap : Heap) (client : Key) : Prop :=
  match heap.outer.get? client with
  | none => True
  | some table => (heap.tables table).entries ≠ [] ∧
      ∀ entry ∈ (heap.tables table).entries, (heap.entries entry.2).samples ≠ 0

instance (heap : Heap) (client : Key) : Decidable (heap.Complete client) := by
  unfold Heap.Complete
  split <;> infer_instance

theorem Heap.Complete.measured {heap : Heap} {client : Key} (complete : heap.Complete client)
    (known : client ∈ heap.outer) : ∃ table, heap.Measured client table := by
  obtain ⟨table, found⟩ := Dict.mem_iff_get?.mp known
  rw [Heap.Complete, found] at complete
  exact ⟨table, found, fun empty => complete.1 (List.map_eq_nil_iff.mp empty),
    fun replica e inTable => complete.2 (replica, e) (mem_of_findEntry inTable)⟩

namespace ServerCall

def Testing : ServerCall → Prop
  | .resolve call => call.pc = .test
  | .update _ => False

def ReadingOf (client : Key) : ServerCall → Prop
  | .resolve call => call.client = client ∧ call.Reading
  | .update _ => False

/-- The next step adds a client to the routing table, or a replica to the
dictionary that the routing table holds for its client. -/
def Inserts (heap : Heap) (call : ServerCall) : Prop :=
  match call.effect with
  | .newTable => True
  | .newEntry table => heap.outer.get? call.client = some table
  | _ => False

instance (call : ServerCall) : Decidable call.Testing := by
  unfold Testing
  split <;> infer_instance

instance (client : Key) (call : ServerCall) : Decidable (call.ReadingOf client) := by
  unfold ReadingOf
  split <;> infer_instance

instance (heap : Heap) (call : ServerCall) : Decidable (call.Inserts heap) := by
  unfold Inserts
  split <;> infer_instance

end ServerCall

/-- No answer begins while an entry of its client waits for its first sample,
and no key is added for a client while an answer to it reads the table. -/
def Pool.Calm {ι : Type} (p : Pool ι Heap ServerCall) (i : ι) : Prop :=
  ((p.task i).Testing → p.shared.Complete (p.task i).client) ∧
    ((p.task i).Inserts p.shared → ∀ j, ¬ (p.task j).ReadingOf (p.task i).client)

instance {ι : Type} [Fintype ι] (p : Pool ι Heap ServerCall) (i : ι) : Decidable (p.Calm i) :=
  inferInstanceAs (Decidable (_ ∧ _))

/-- A dictionary in the hands of a writer belongs to the writer's client or to
nobody, and a writer never writes that there are no samples. -/
structure UpdateCall.Safe (heap : Heap) (call : UpdateCall) : Prop where
  bound : ∀ table, call.heldTable = some table → table < heap.nextTable
  owner : ∀ table, call.heldTable = some table →
    ∀ client, heap.outer.get? client = some table → client = call.record.client
  counts : ∀ e value, call.effect = .assign e (.samples value) → value ≠ 0

/-- An access by a reader that has found its key: every lookup will hit. -/
inductive Heap.Hits (heap : Heap) (table : Nat) (replica : Key) : ItemAccess → Prop
  | lookup : replica ∈ heap.tables table → Hits heap table replica (.client .lookup)
  | opened : replica ∈ heap.tables table → Hits heap table replica (.client (.found table))
  | found {e} : (heap.tables table).get? replica = some e → Hits heap table replica (.found e)

structure Heap.Opened (heap : Heap) (client : Key) (iterator : Iterator) : Prop where
  measured : heap.Measured client iterator.table
  unchanged : (heap.tables iterator.table).size = iterator.used

def ResolveCall.Safe (heap : Heap) (call : ResolveCall) : Prop :=
  match call.pc with
  | .table access => ∃ table, heap.Measured call.client table ∧ (access = .lookup ∨ access = .found table)
  | .advance iterator best => heap.Opened call.client iterator ∧ (iterator.position = 0 ∨ best ≠ none)
  | .sum iterator _ replica item =>
    heap.Opened call.client iterator ∧ heap.Hits iterator.table replica item
  | .samples iterator _ replica _ item =>
    heap.Opened call.client iterator ∧ heap.Hits iterator.table replica item
  | .raised _ => False
  | _ => True

def ServerCall.Safe (heap : Heap) : ServerCall → Prop
  | .update call => call.Safe heap
  | .resolve call => call.Safe heap

/-- A heap in which one client's dictionary is as before, and no finished entry
has lost its samples. -/
structure Heap.Spares (heap heap' : Heap) (client : Key) (table : Nat) : Prop where
  outer : heap'.outer.get? client = heap.outer.get? client
  table : heap'.tables table = heap.tables table
  samples : ∀ e < heap.nextEntry, (heap.entries e).samples ≠ 0 → (heap'.entries e).samples ≠ 0

theorem Heap.Measured.spared {heap heap' : Heap} {client : Key} {table : Nat} (wf : heap.WellFormed)
    (measured : heap.Measured client table) (spares : heap.Spares heap' client table) :
    heap'.Measured client table where
  known := spares.outer.trans measured.known
  nonempty := by rw [spares.table]; exact measured.nonempty
  sampled replica e inTable := by
    rw [spares.table] at inTable
    exact spares.samples e (wf.entry_bound table replica e inTable) (measured.sampled replica e inTable)

theorem Heap.Opened.spared {heap heap' : Heap} {client : Key} {iterator : Iterator} (wf : heap.WellFormed)
    (opened : heap.Opened client iterator) (spares : heap.Spares heap' client iterator.table) :
    heap'.Opened client iterator where
  measured := opened.measured.spared wf spares
  unchanged := by rw [spares.table]; exact opened.unchanged

theorem Heap.Hits.spared {heap heap' : Heap} {client replica : Key} {table : Nat} {item : ItemAccess}
    (hits : heap.Hits table replica item) (spares : heap.Spares heap' client table) :
    heap'.Hits table replica item := by
  cases hits with
  | lookup member => exact .lookup (by rwa [spares.table])
  | opened member => exact .opened (by rwa [spares.table])
  | found inTable => exact .found (by rwa [spares.table])

/-- A reader's facts survive every step that spares its client. -/
theorem ResolveCall.Safe.spared {heap heap' : Heap} {call : ResolveCall} (wf : heap.WellFormed)
    (safe : call.Safe heap)
    (spares : ∀ table, call.Reading → heap.outer.get? call.client = some table →
      heap.Spares heap' call.client table) : call.Safe heap' := by
  obtain ⟨client, pc⟩ := call
  cases pc with
  | table access =>
    obtain ⟨table, measured, place⟩ := safe
    exact ⟨table, measured.spared wf (spares table trivial measured.known), place⟩
  | advance iterator best =>
    obtain ⟨opened, place⟩ := safe
    exact ⟨opened.spared wf (spares _ trivial opened.measured.known), place⟩
  | sum iterator best replica item =>
    obtain ⟨opened, hits⟩ := safe
    have same := spares _ trivial opened.measured.known
    exact ⟨opened.spared wf same, hits.spared same⟩
  | samples iterator best replica sum item =>
    obtain ⟨opened, hits⟩ := safe
    have same := spares _ trivial opened.measured.known
    exact ⟨opened.spared wf same, hits.spared same⟩
  | raised exception => exact safe
  | test => trivial
  | fallback => trivial
  | returned replica => trivial

/-- A lookup that is bound to hit moves nothing and stays bound to hit. -/
theorem Heap.Hits.step {heap : Heap} {client replica : Key} {table : Nat} {item : ItemAccess}
    (known : heap.outer.get? client = some table) (hits : heap.Hits table replica item) :
    (item.step heap client replica).1 = heap ∧
      heap.Hits table replica (item.step heap client replica).2 := by
  cases hits with
  | lookup member =>
    simp only [ItemAccess.step, ClientAccess.step, known]
    exact ⟨trivial, .opened member⟩
  | opened member =>
    obtain ⟨e, inTable⟩ := Dict.mem_iff_get?.mp member
    simp only [ItemAccess.step, inTable]
    exact ⟨trivial, .found inTable⟩
  | found inTable => exact ⟨rfl, .found inTable⟩

/-- The iterator moves to the next replica, or the loop ends with an answer. -/
theorem Heap.Opened.next {heap : Heap} {client : Key} {iterator : Iterator} {best : Option (Key × ℚ)}
    (opened : heap.Opened client iterator) (place : iterator.position = 0 ∨ best ≠ none) :
    ResolveCall.Safe heap ⟨client, iterator.next heap best⟩ := by
  rw [Iterator.next.eq_def, if_neg (not_not.mpr opened.unchanged)]
  cases seen : (heap.tables iterator.table).keys[iterator.position]? with
  | some replica =>
    have member : replica ∈ heap.tables iterator.table := List.mem_of_getElem? seen
    exact ⟨⟨opened.measured, opened.unchanged⟩, .lookup member⟩
  | none =>
    cases best with
    | some best => trivial
    | none =>
      have first : iterator.position = 0 := place.resolve_right fun other => other rfl
      rw [first, List.getElem?_eq_none_iff] at seen
      exact absurd (List.length_eq_zero_iff.mp (Nat.le_zero.mp seen)) opened.measured.nonempty

/-- An answer whose test finds a complete client only reads, and never fails. -/
theorem ResolveCall.Safe.step {heap heap' : Heap} {call call' : ResolveCall} (safe : call.Safe heap)
    (complete : call.pc = .test → heap.Complete call.client)
    (taken : call.step heap = some (heap', call')) : heap' = heap ∧ call'.Safe heap := by
  obtain ⟨client, pc⟩ := call
  cases pc with
  | test =>
    cases taken
    refine ⟨rfl, ?_⟩
    by_cases known : client ∈ heap.outer
    · obtain ⟨table, measured⟩ := (complete rfl).measured known
      simp only [if_pos known]
      exact ⟨table, measured, Or.inl rfl⟩
    · simp only [if_neg known]
      trivial
  | table access =>
    obtain ⟨table, measured, rfl | rfl⟩ := safe
    · simp only [ResolveCall.step, ClientAccess.step, measured.known] at taken
      cases taken
      exact ⟨rfl, table, measured, Or.inr rfl⟩
    · cases taken
      exact ⟨rfl, ⟨measured, rfl⟩, Or.inl rfl⟩
  | advance iterator best =>
    obtain ⟨opened, place⟩ := safe
    cases taken
    exact ⟨rfl, opened.next place⟩
  | sum iterator best replica item =>
    obtain ⟨opened, hits⟩ := safe
    have moves := hits.step opened.measured.known
    cases hits with
    | found inTable =>
      cases taken
      exact ⟨rfl, opened, .lookup (Dict.mem_iff_get?.mpr ⟨_, inTable⟩)⟩
    | _ =>
      cases taken
      exact ⟨moves.1, opened, moves.2⟩
  | samples iterator best replica sum item =>
    obtain ⟨opened, hits⟩ := safe
    have moves := hits.step opened.measured.known
    cases hits with
    | @found e inTable =>
      have sampled := opened.measured.sampled replica e inTable
      simp only [ResolveCall.step, if_neg sampled] at taken
      cases taken
      refine ⟨rfl, opened, Or.inr ?_⟩
      cases best with
      | none => exact Option.some_ne_none _
      | some best => exact Option.some_ne_none _
    | _ =>
      cases taken
      exact ⟨moves.1, opened, moves.2⟩
  | fallback => cases taken
  | returned replica => cases taken
  | raised exception => exact safe.elim

/-- The only new reference a step puts into the routing table is to the
dictionary it creates, under the client of its record. -/
theorem Effect.apply_outer {heap : Heap} {client replica other : Key} {effect : Effect} {table : Nat}
    (found : (effect.apply heap client replica).outer.get? other = some table) :
    heap.outer.get? other = some table ∨ (effect = .newTable ∧ other = client ∧ table = heap.nextTable) := by
  cases effect with
  | newTable =>
    simp only [Effect.apply, Heap.insertTable, Dict.get?_set] at found
    split at found
    · rename_i here
      exact Or.inr ⟨rfl, here, (Option.some.inj found).symm⟩
    · exact Or.inl found
  | quiet => exact Or.inl found
  | newEntry t => exact Or.inl found
  | assign e item => exact Or.inl found

theorem Effect.nextTable_le (heap : Heap) (client replica : Key) (effect : Effect) :
    heap.nextTable ≤ (effect.apply heap client replica).nextTable := by
  cases effect with
  | newTable => exact Nat.le_succ _
  | _ => exact le_rfl

namespace UpdateCall.Safe
variable {heap heap' : Heap} {call call' : UpdateCall}

/-- The number of samples is written one larger than it was read. -/
theorem step_counts (taken : call.step heap = some (heap', call')) {e value : Nat}
    (writes : call'.effect = .assign e (.samples value)) : value ≠ 0 := by
  obtain ⟨record, pc⟩ := call
  cases pc with
  | start => cases taken; cases writes
  | done => cases taken
  | sumWrite e value => cases taken; cases writes
  | samplesWrite e value => cases taken; cases writes
  | access stage item =>
    rcases item with (_ | _ | _ | table) | table | table | entry
    case client.lookup =>
      simp only [UpdateCall.step, ItemAccess.step, ClientAccess.step] at taken
      cases found : heap.outer.get? record.client <;> rw [found] at taken <;> cases taken <;>
        cases stage <;> cases writes
    case client.found =>
      simp only [UpdateCall.step, ItemAccess.step] at taken
      cases found : (heap.tables table).get? record.replica <;> rw [found] at taken <;> cases taken <;>
        cases stage <;> cases writes
    case found =>
      cases stage <;> cases taken <;> cases writes
      exact Nat.succ_ne_zero _
    all_goals
      cases taken
      cases stage <;> cases writes

theorem step (wf : heap.WellFormed) (safe : call.Safe heap) (taken : call.step heap = some (heap', call')) :
    call'.Safe heap' := by
  obtain ⟨rfl, sameRecord⟩ := step_effect taken
  have grows := Effect.nextTable_le heap call.record.client call.record.replica call.effect
  refine ⟨fun table held => ?_, fun table held other found => ?_, fun e value => step_counts taken⟩
  · rcases step_heldTable taken held with old | known | ⟨new, rfl⟩
    · exact (safe.bound table old).trans_le grows
    · exact (wf.table_bound _ _ known).trans_le grows
    · rw [new]
      exact Nat.lt_succ_self _
  · rw [sameRecord]
    rcases Effect.apply_outer found with older | ⟨_, here, _⟩
    · rcases step_heldTable taken held with old | known | ⟨_, rfl⟩
      · exact safe.owner table old other older
      · exact wf.table_owner _ _ table older known
      · exact absurd (wf.table_bound _ _ older) (lt_irrefl _)
    · exact here

/-- The dictionary that a writer holds is never the one another step creates. -/
theorem kept (safe : call.Safe heap) (client replica : Key) (effect : Effect) :
    call.Safe (effect.apply heap client replica) where
  bound table held := (safe.bound table held).trans_le (Effect.nextTable_le heap client replica effect)
  owner table held other found := by
    rcases Effect.apply_outer found with older | ⟨_, _, rfl⟩
    · exact safe.owner table held other older
    · exact absurd (safe.bound _ held) (lt_irrefl _)
  counts := safe.counts

/-- A writer that adds no key for a client spares the answers to it. -/
theorem spares (wf : heap.WellFormed) (safe : call.Safe heap) {client : Key} {table : Nat}
    (known : heap.outer.get? client = some table)
    (apart : (ServerCall.update call).Inserts heap → client ≠ call.record.client) :
    heap.Spares (call.effect.apply heap call.record.client call.record.replica) client table := by
  unfold ServerCall.Inserts at apart
  simp only [ServerCall.effect] at apart
  cases does : call.effect with
  | quiet => exact ⟨rfl, rfl, fun _ _ sampled => sampled⟩
  | newTable =>
    rw [does] at apart
    refine ⟨Dict.get?_set_of_ne _ _ (apart trivial), ?_, fun _ _ sampled => sampled⟩
    have older := wf.table_bound client table known
    exact Function.update_of_ne older.ne _ _
  | newEntry t =>
    rw [does] at apart
    have other : table ≠ t := by
      rintro rfl
      have own : client = call.record.client := safe.owner table (effect_newEntry does) client known
      rw [own] at known
      exact apart known own
    refine ⟨rfl, Function.update_of_ne other _ _, fun e older sampled => ?_⟩
    simpa [Effect.apply, Heap.insertEntry, Function.update_of_ne older.ne] using sampled
  | assign e item =>
    refine ⟨rfl, rfl, fun e' _ sampled => ?_⟩
    by_cases here : e' = e
    · subst here
      cases item with
      | samples value => simpa [Effect.apply, Heap.assign, Item.write] using safe.counts e' value does
      | sum value => simpa [Effect.apply, Heap.assign, Item.write] using sampled
      | min value => simpa [Effect.apply, Heap.assign, Item.write] using sampled
      | max value => simpa [Effect.apply, Heap.assign, Item.write] using sampled
    · simpa [Effect.apply, Heap.assign, Function.update_of_ne here] using sampled

end UpdateCall.Safe

section Pools
variable {ι : Type} [DecidableEq ι]

def serverStep (heap : Heap) (call : ServerCall) (heap' : Heap) (call' : ServerCall) : Prop :=
  call.step heap = some (heap', call')

/-- Calls of `update_latency` and of `resolve`, none of them started. -/
def serverPool (calls : ι → Measurement ⊕ Key) : Pool ι Heap ServerCall where
  shared := Heap.empty
  task i :=
    match calls i with
    | .inl record => .update ⟨record, .start⟩
    | .inr client => .resolve ⟨client, .test⟩

def Pool.Safe (p : Pool ι Heap ServerCall) : Prop :=
  p.shared.WellFormed ∧ ∀ i, (p.task i).Safe p.shared

omit [DecidableEq ι] in
theorem serverPool_safe (calls : ι → Measurement ⊕ Key) : (serverPool calls).Safe := by
  refine ⟨Heap.wellFormed_empty, fun i => ?_⟩
  cases kind : calls i with
  | inl record =>
    simp only [serverPool, kind]
    constructor
    · intro table held
      cases held
    · intro table held
      cases held
    · intro e value writes
      cases writes
  | inr client =>
    simp only [serverPool, kind]
    trivial

theorem Pool.Safe.advance {p : Pool ι Heap ServerCall} {i : ι} {heap' : Heap} {call' : ServerCall}
    (safe : p.Safe) (calm : p.Calm i) (taken : serverStep p.shared (p.task i) heap' call') :
    (p.advance i heap' call').Safe := by
  obtain ⟨wf, tasks⟩ := safe
  obtain ⟨testing, inserting⟩ := calm
  have own := tasks i
  cases scheduled : p.task i with
  | resolve call =>
    rw [scheduled] at own taken testing
    obtain ⟨⟨heap'', next⟩, moved, ends⟩ := Option.map_eq_some_iff.mp taken
    cases ends
    obtain ⟨rfl, nextSafe⟩ := ResolveCall.Safe.step own testing moved
    refine ⟨wf, fun j => ?_⟩
    by_cases same : j = i
    · subst same
      rw [advance_self]
      exact nextSafe
    · rw [advance_other p _ _ same]
      exact tasks j
  | update call =>
    rw [scheduled] at own taken inserting
    obtain ⟨⟨heap'', next⟩, moved, ends⟩ := Option.map_eq_some_iff.mp taken
    cases ends
    have nextSafe : next.Safe heap'' := UpdateCall.Safe.step wf own moved
    obtain ⟨rfl, _⟩ := UpdateCall.step_effect moved
    refine ⟨Effect.apply_wellFormed wf _ _ _, fun j => ?_⟩
    by_cases same : j = i
    · subst same
      rw [advance_self]
      exact nextSafe
    · rw [advance_other p _ _ same]
      have other := tasks j
      cases elsewhere : p.task j with
      | update call' =>
        rw [elsewhere] at other
        exact UpdateCall.Safe.kept other _ _ _
      | resolve call' =>
        rw [elsewhere] at other
        refine ResolveCall.Safe.spared wf other fun table reading known => ?_
        refine UpdateCall.Safe.spares wf own known fun inserts sameClient => ?_
        have notReading := inserting inserts j
        rw [elsewhere] at notReading
        exact notReading ⟨sameClient, reading⟩

/-- While no answer begins before its client's entries have their first samples,
and no key is added to what an answer is reading, no answer ends in an
exception. -/
theorem resolve_never_raises (calls : ι → Measurement ⊕ Key) {p : Pool ι Heap ServerCall}
    (reach : Pool.Reach serverStep Pool.Calm (serverPool calls) p) : ∀ i, ¬ (p.task i).Failed := by
  have safe : p.Safe :=
    Pool.Reach.invariant _ reach (serverPool_safe calls) fun q i heap' call' safe => safe.advance
  intro i failed
  have own := safe.2 i
  rcases task : p.task i with call | ⟨client, pc⟩
  · simp [task, ServerCall.Failed] at failed
  · rw [task] at own failed
    cases pc with
    | raised exception => exact own
    | _ => exact failed

end Pools

/-- One record of a client is processed while one query of that client is answered. -/
def pingAndQuery : Fin 2 → Measurement ⊕ Key
  | 0 => .inl ⟨.string "52.53.228.21", .string "185.3.95.25", 70⟩
  | 1 => .inr (.string "52.53.228.21")

theorem resolve_never_raises_after_update :
    ∃ p, Pool.Reach serverStep Pool.Calm (serverPool pingAndQuery) p ∧
      p.task 1 = ServerCall.resolve ⟨.string "52.53.228.21", .returned (.string "185.3.95.25")⟩ ∧
      ∀ i, ¬ (p.task i).Failed := by
  have run : (Pool.runSchedule ServerCall.step Pool.Calm (serverPool pingAndQuery)
      (List.replicate 25 0 ++ List.replicate 11 1)).map (fun p => p.task 1) =
        some (.resolve ⟨.string "52.53.228.21", .returned (.string "185.3.95.25")⟩) := by
    decide +kernel
  obtain ⟨p, reached, ends⟩ := Option.map_eq_some_iff.mp run
  have reach : Pool.Reach serverStep Pool.Calm (serverPool pingAndQuery) p := Pool.runSchedule_reach reached
  exact ⟨p, reach, ends, resolve_never_raises pingAndQuery reach⟩

/-- The answer begins when the client's dictionary has been stored and is still
empty. -/
theorem resolve_raises_during_update :
    ∃ p, Pool.Reach serverStep Pool.Free (serverPool pingAndQuery) p ∧
      p.task 1 = ServerCall.resolve ⟨.string "52.53.228.21", .raised .valueError⟩ ∧ (p.task 1).Failed := by
  have run : (Pool.runSchedule ServerCall.step Pool.Free (serverPool pingAndQuery)
      (List.replicate 4 0 ++ List.replicate 4 1)).map (fun p => p.task 1) =
        some (.resolve ⟨.string "52.53.228.21", .raised .valueError⟩) := by
    decide +kernel
  obtain ⟨p, reached, ends⟩ := Option.map_eq_some_iff.mp run
  refine ⟨p, Pool.runSchedule_reach reached, ends, ?_⟩
  rw [ends]
  trivial

end SimpleCdn
