import SimpleCdn.Dns.Threads.UpdateCalls
import Mathlib.Algebra.BigOperators.Ring.Finset
import Mathlib.Algebra.BigOperators.Fin
import Mathlib.Tactic.FinCases

namespace SimpleCdn

/-- Nothing has happened between what a step relies on and the step: no other
thread has stored under a key since the lookup missed it, or written an item
since it was read. -/
def Effect.Undisturbed (heap : Heap) (m : Measurement) : Effect → Prop
  | .newTable => heap.outer.get? m.client = none
  | .newEntry table => (heap.tables table).get? m.replica = none
  | .assign e (.sum value) => value = (heap.entries e).sum + m.latency
  | .assign e (.samples value) => value = (heap.entries e).samples + 1
  | _ => True

instance (heap : Heap) (m : Measurement) (effect : Effect) : Decidable (effect.Undisturbed heap m) := by
  unfold Effect.Undisturbed
  split <;> infer_instance

/-- What a call holds is what the routing table leads to for its pair. -/
structure UpdateCall.Current (heap : Heap) (call : UpdateCall) : Prop where
  table : ∀ table, call.heldTable = some table → heap.outer.get? call.record.client = some table
  entry : ∀ entry, call.heldEntry = some entry →
    heap.find call.record.client call.record.replica = some entry

/-- Nothing that the routing table leads to has been replaced. -/
structure Heap.Extends (heap heap' : Heap) : Prop where
  outer : ∀ client table, heap.outer.get? client = some table → heap'.outer.get? client = some table
  find : ∀ client replica entry, heap.find client replica = some entry →
    heap'.find client replica = some entry

theorem UpdateCall.Current.extend {heap heap' : Heap} {call : UpdateCall} (current : call.Current heap)
    (extends' : heap.Extends heap') : call.Current heap' where
  table table held := extends'.outer _ _ (current.table table held)
  entry entry held := extends'.find _ _ _ (current.entry entry held)

/-- An undisturbed step replaces nothing. -/
theorem Effect.apply_extends {heap : Heap} (wf : heap.WellFormed) {m : Measurement} {effect : Effect}
    (calm : effect.Undisturbed heap m) : heap.Extends (effect.apply heap m.client m.replica) := by
  cases effect with
  | newTable =>
    constructor
    · intro client table found
      have differs : client ≠ m.client := by
        rintro rfl
        rw [show heap.outer.get? m.client = none from calm] at found
        cases found
      simpa [Effect.apply, Heap.insertTable, Dict.get?_set_of_ne _ _ differs] using found
    · intro client replica entry found
      by_cases same : client = m.client
      · subst same
        simp [Heap.find, show heap.outer.get? m.client = none from calm] at found
      · exact (Heap.find_insertTable_other wf same replica).trans found
  | newEntry table =>
    refine ⟨fun _ _ found => found, fun client replica entry found => ?_⟩
    rw [Effect.apply, Heap.find_insertEntry]
    split
    · rename_i here
      obtain ⟨atClient, rfl⟩ := here
      simp [Heap.find, atClient, show (heap.tables table).get? m.replica = none from calm] at found
    · exact found
  | quiet => exact ⟨fun _ _ found => found, fun _ _ _ found => found⟩
  | assign e item => exact ⟨fun _ _ found => found, fun _ _ _ found => found⟩

def Effect.onEntry (entry : Entry) : Effect → Entry
  | .assign _ item => item.write entry
  | _ => entry

/-- Seen from the routing table, an undisturbed step changes the written item
of its own pair and nothing else. A new entry reads like a missing one. -/
theorem Effect.entry_apply {heap : Heap} (wf : heap.WellFormed) {m : Measurement} {effect : Effect}
    (calm : effect.Undisturbed heap m)
    (inTable : ∀ table, effect = .newEntry table → heap.outer.get? m.client = some table)
    (inEntry : ∀ e item, effect = .assign e item → heap.find m.client m.replica = some e)
    (client replica : Key) :
    (effect.apply heap m.client m.replica).entry client replica =
      if client = m.client ∧ replica = m.replica then effect.onEntry (heap.entry client replica)
      else heap.entry client replica := by
  cases effect with
  | quiet => simp [Effect.apply, Effect.onEntry]
  | newTable => simpa [Effect.apply, Effect.onEntry] using Heap.entry_insertTable wf calm client replica
  | newEntry table =>
    simpa [Effect.apply, Effect.onEntry] using Heap.entry_insertEntry wf (inTable table rfl) calm client replica
  | assign e item => exact Heap.entry_assign wf (inEntry e item rfl) item client replica

section Pools
variable {ι : Type} [DecidableEq ι]

def updateStep (heap : Heap) (call : UpdateCall) (heap' : Heap) (call' : UpdateCall) : Prop :=
  call.step heap = some (heap', call')

/-- The calls of `update_latency`, one for each record, none of them started. -/
def updatePool (records : ι → Measurement) : Pool ι Heap UpdateCall :=
  ⟨Heap.empty, fun i => ⟨records i, .start⟩⟩

def Pool.Undisturbed (p : Pool ι Heap UpdateCall) (i : ι) : Prop :=
  (p.task i).effect.Undisturbed p.shared (p.task i).record

instance (p : Pool ι Heap UpdateCall) (i : ι) : Decidable (p.Undisturbed i) :=
  inferInstanceAs (Decidable ((p.task i).effect.Undisturbed p.shared (p.task i).record))

def UpdateCall.sumShare (client replica : Key) (call : UpdateCall) : ℚ :=
  if (call.record.client = client ∧ call.record.replica = replica) ∧ call.SumWritten then call.record.latency
  else 0

def UpdateCall.samplesShare (client replica : Key) (call : UpdateCall) : Nat :=
  if (call.record.client = client ∧ call.record.replica = replica) ∧ call.Processed then 1 else 0

/-- The table accounts for the steps that the calls have taken so far. -/
structure Accounts [Fintype ι] (records : ι → Measurement) (p : Pool ι Heap UpdateCall) : Prop where
  wellFormed : p.shared.WellFormed
  record : ∀ i, (p.task i).record = records i
  current : ∀ i, (p.task i).Current p.shared
  sum : ∀ client replica, (p.shared.entry client replica).sum = ∑ i, (p.task i).sumShare client replica
  samples : ∀ client replica,
    (p.shared.entry client replica).samples = ∑ i, (p.task i).samplesShare client replica

omit [DecidableEq ι] in
theorem accounts_start [Fintype ι] (records : ι → Measurement) : Accounts records (updatePool records) where
  wellFormed := Heap.wellFormed_empty
  record _ := rfl
  current i := by constructor <;> (intro _ held; cases held)
  sum client replica := by simp [updatePool, UpdateCall.sumShare, UpdateCall.SumWritten, Heap.entry,
    Heap.find, Heap.empty, Entry.new]
  samples client replica := by simp [updatePool, UpdateCall.samplesShare, UpdateCall.Processed, Heap.entry,
    Heap.find, Heap.empty, Entry.new]

/-- What the scheduled call holds after an undisturbed step is still what the
routing table leads to. -/
theorem UpdateCall.Current.step {heap heap' : Heap} {call call' : UpdateCall} (wf : heap.WellFormed)
    (current : call.Current heap) (calm : call.effect.Undisturbed heap call.record)
    (taken : call.step heap = some (heap', call')) : call'.Current heap' := by
  obtain ⟨rfl, sameRecord⟩ := step_effect taken
  have kept := Effect.apply_extends wf calm
  refine ⟨fun table held => ?_, fun entry held => ?_⟩
  · rw [sameRecord]
    rcases step_heldTable taken held with old | known | ⟨new, rfl⟩
    · exact kept.outer _ _ (current.table table old)
    · exact kept.outer _ _ known
    · simp [new, Effect.apply, Heap.insertTable]
  · rw [sameRecord]
    rcases step_heldEntry taken held with old | ⟨table, inHand, present | ⟨new, rfl⟩⟩
    · exact kept.find _ _ _ (current.entry entry old)
    · exact kept.find _ _ _ (by simpa [Heap.find, current.table table inHand] using present)
    · rw [new, Effect.apply, Heap.find_insertEntry, if_pos ⟨current.table table inHand, rfl⟩]

/-- One step adds to the table exactly what it adds to the shares of its call. -/
theorem UpdateCall.step_shares {heap heap' : Heap} {call call' : UpdateCall} (wf : heap.WellFormed)
    (current : call.Current heap) (calm : call.effect.Undisturbed heap call.record)
    (taken : call.step heap = some (heap', call')) (client replica : Key) :
    (heap'.entry client replica).sum + call.sumShare client replica =
        (heap.entry client replica).sum + call'.sumShare client replica ∧
      (heap'.entry client replica).samples + call.samplesShare client replica =
        (heap.entry client replica).samples + call'.samplesShare client replica := by
  obtain ⟨rfl, sameRecord⟩ := step_effect taken
  have seen := Effect.entry_apply wf calm (fun table new => current.table table (effect_newEntry new))
    (fun e item writes => current.entry e (effect_assign writes)) client replica
  obtain ⟨summed, notSummed⟩ := step_sumWritten taken
  obtain ⟨processed, notProcessed⟩ := step_processed taken
  by_cases pair : call.record.client = client ∧ call.record.replica = replica
  · obtain ⟨rfl, rfl⟩ := pair
    rw [if_pos ⟨rfl, rfl⟩] at seen
    rw [seen]
    simp only [sumShare, samplesShare, sameRecord, and_self, true_and, notProcessed, if_false]
    cases does : call.effect with
    | assign e item =>
      have here : heap.entry call.record.client call.record.replica = heap.entries e := by
        simp [Heap.entry, current.entry e (effect_assign does)]
      rw [does] at calm summed notSummed processed
      cases item with
      | sum value =>
        have fresh : value = (heap.entries e).sum + call.record.latency := calm
        simp [Effect.onEntry, Item.write, here, fresh, summed, processed, notSummed e value rfl]
      | samples value =>
        have fresh : value = (heap.entries e).samples + 1 := calm
        simp [Effect.onEntry, Item.write, here, fresh, summed, processed]
      | min value => simp [Effect.onEntry, Item.write, summed, processed]
      | max value => simp [Effect.onEntry, Item.write, summed, processed]
    | quiet => simp [Effect.onEntry, summed, processed, does]
    | newTable => simp [Effect.onEntry, summed, processed, does]
    | newEntry table => simp [Effect.onEntry, summed, processed, does]
  · have elsewhere : ¬ (client = call.record.client ∧ replica = call.record.replica) :=
      fun same => pair ⟨same.1.symm, same.2.symm⟩
    rw [seen, if_neg elsewhere]
    simp [sumShare, samplesShare, sameRecord, pair]

theorem Accounts.advance [Fintype ι] {records : ι → Measurement} {p : Pool ι Heap UpdateCall} {i : ι}
    {heap' : Heap} {call' : UpdateCall} (acc : Accounts records p) (calm : p.Undisturbed i)
    (taken : updateStep p.shared (p.task i) heap' call') : Accounts records (p.advance i heap' call') := by
  have effect := UpdateCall.step_effect taken
  have shares := UpdateCall.step_shares acc.wellFormed (acc.current i) calm taken
  have kept := Effect.apply_extends acc.wellFormed calm
  rw [← effect.1] at kept
  refine ⟨?_, fun j => ?_, fun j => ?_, fun client replica => ?_, fun client replica => ?_⟩
  · rw [Pool.advance_shared, effect.1]
    exact Effect.apply_wellFormed acc.wellFormed _ _ _
  · by_cases same : j = i
    · subst same
      rw [Pool.advance_self, effect.2, acc.record]
    · rw [Pool.advance_other p _ _ same, acc.record]
  · by_cases same : j = i
    · subst same
      rw [Pool.advance_self]
      exact (acc.current j).step acc.wellFormed calm taken
    · rw [Pool.advance_other p _ _ same]
      exact (acc.current j).extend kept
  · have total := Pool.sum_advance (UpdateCall.sumShare client replica) p i heap' call'
    have moved := (shares client replica).1
    rw [acc.sum] at moved
    exact add_right_cancel (moved.trans total.symm)
  · have total := Pool.sum_advance (UpdateCall.samplesShare client replica) p i heap' call'
    have moved := (shares client replica).2
    rw [acc.samples] at moved
    exact add_right_cancel (moved.trans total.symm)

/-- While no call is in progress, each pair's sum and number of samples are those
of the records processed for it. -/
def CountedOnce [Fintype ι] (records : ι → Measurement) (p : Pool ι Heap UpdateCall) : Prop :=
  (∀ i, ¬ (p.task i).InProgress) → ∀ client replica,
    let processed := Finset.univ.filter fun i =>
      ((records i).client = client ∧ (records i).replica = replica) ∧ (p.task i).Processed
    (p.shared.entry client replica).sum = ∑ i ∈ processed, (records i).latency ∧
      (p.shared.entry client replica).samples = processed.card

/-- While the scheduler disturbs no read-modify-write and no creation of a
default, no measurement is lost or counted twice. -/
theorem updates_counted_once [Fintype ι] (records : ι → Measurement) {p : Pool ι Heap UpdateCall}
    (reach : Pool.Reach updateStep Pool.Undisturbed (updatePool records) p) : CountedOnce records p := by
  have acc : Accounts records p :=
    Pool.Reach.invariant _ reach (accounts_start records) fun q i heap' call' acc => acc.advance
  intro idle client replica processed
  have written : ∀ i, (p.task i).SumWritten ↔ (p.task i).Processed := by
    intro i
    have notBusy := idle i
    rcases pc : (p.task i).pc <;> simp_all [UpdateCall.InProgress, UpdateCall.SumWritten, UpdateCall.Processed]
  rw [acc.sum, acc.samples, Finset.sum_filter, Finset.card_filter]
  simp only [UpdateCall.sumShare, UpdateCall.samplesShare, acc.record, written, and_self]

end Pools

def twoPings (i : Fin 2) : Measurement where
  client := .string "52.53.228.21"
  replica := .string "185.3.95.25"
  latency := if i = 0 then 70 else 90

theorem updates_counted_once_in_turn :
    ∃ p, Pool.Reach updateStep Pool.Undisturbed (updatePool twoPings) p ∧
      (∀ i, (p.task i).Processed) ∧ CountedOnce twoPings p := by
  have run : (Pool.runSchedule UpdateCall.step Pool.Undisturbed (updatePool twoPings)
      (List.replicate 25 0 ++ List.replicate 21 1)).map (fun p => ((p.task 0).pc, (p.task 1).pc)) =
        some (.done, .done) := by
    decide +kernel
  obtain ⟨p, reached, ends⟩ := Option.map_eq_some_iff.mp run
  have reach : Pool.Reach updateStep Pool.Undisturbed (updatePool twoPings) p := Pool.runSchedule_reach reached
  refine ⟨p, reach, fun i => ?_, updates_counted_once twoPings reach⟩
  have both := Prod.mk.inj ends
  fin_cases i
  · exact both.1
  · exact both.2

/-- The first call is suspended between its read of the sum and its write, and
overwrites what the second has added meanwhile. -/
theorem measurement_lost :
    ∃ p, Pool.Reach updateStep Pool.Free (updatePool twoPings) p ∧ ¬ CountedOnce twoPings p := by
  have run : (Pool.runSchedule UpdateCall.step Pool.Free (updatePool twoPings)
      (List.replicate 8 0 ++ List.replicate 21 1 ++ List.replicate 17 0)).map
        (fun p => ((p.task 0).pc, (p.task 1).pc,
          (p.shared.entry (.string "52.53.228.21") (.string "185.3.95.25")).sum)) =
        some (.done, .done, 70) := by
    decide +kernel
  obtain ⟨p, reached, ends⟩ := Option.map_eq_some_iff.mp run
  obtain ⟨first, second⟩ := Prod.mk.inj ends
  obtain ⟨second, sum⟩ := Prod.mk.inj second
  refine ⟨p, Pool.runSchedule_reach reached, fun counted => ?_⟩
  have idle : ∀ i, ¬ (p.task i).InProgress := by
    intro i
    fin_cases i
    · exact fun busy => busy.2 first
    · exact fun busy => busy.2 second
  have total := (counted idle (.string "52.53.228.21") (.string "185.3.95.25")).1
  rw [sum, Finset.sum_filter, Fin.sum_univ_two] at total
  simp [twoPings, UpdateCall.Processed, first, second] at total

end SimpleCdn
