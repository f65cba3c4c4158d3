import SimpleCdn.Dns.RoutingTable
import Mathlib.Logic.Function.Basic

namespace SimpleCdn

/-- An item of an entry with the value to be written. -/
inductive Item
  | sum (value : ℚ)
  | min (value : WithTop ℚ)
  | max (value : ℚ)
  | samples (value : Nat)
  deriving DecidableEq

def Item.write (entry : Entry) : Item → Entry
  | .sum value => { entry with sum := value }
  | .min value => { entry with min := value }
  | .max value => { entry with max := value }
  | .samples value => { entry with samples := value }

/-- The objects that threads share. Dictionaries and entries have an identity:
a thread may hold one that has since been replaced in the dictionary above it. -/
structure Heap where
  outer : Dict Key Nat
  tables : Nat → Dict Key Nat
  entries : Nat → Entry
  nextTable : Nat
  nextEntry : Nat

namespace Heap

def empty : Heap where
  outer := ∅
  tables _ := ∅
  entries _ := Entry.new
  nextTable := 0
  nextEntry := 0

/-- `defaultdict` stores the dictionary its factory made, over whatever another
thread may have stored since the lookup. -/
def insertTable (heap : Heap) (client : Key) : Heap :=
  { heap with
    outer := heap.outer.set client heap.nextTable
    tables := Function.update heap.tables heap.nextTable ∅
    nextTable := heap.nextTable + 1 }

def insertEntry (heap : Heap) (table : Nat) (replica : Key) : Heap :=
  { heap with
    tables := Function.update heap.tables table ((heap.tables table).set replica heap.nextEntry)
    entries := Function.update heap.entries heap.nextEntry Entry.new
    nextEntry := heap.nextEntry + 1 }

def assign (heap : Heap) (e : Nat) (item : Item) : Heap :=
  { heap with entries := Function.update heap.entries e (item.write (heap.entries e)) }

def find (heap : Heap) (client replica : Key) : Option Nat :=
  (heap.outer.get? client).bind fun table => (heap.tables table).get? replica

def entry (heap : Heap) (client replica : Key) : Entry :=
  ((heap.find client replica).map heap.entries).getD Entry.new

end Heap

/-- Where a thread is in the evaluation of `CLIENT_REPLICA_ROUTING_TABLE[client]`.
After a lookup that misses, the default factory is called and its result stored. -/
inductive ClientAccess
  | lookup
  | factory
  | insert
  | found (table : Nat)
  deriving DecidableEq

def ClientAccess.step (heap : Heap) (client : Key) : ClientAccess → Heap × ClientAccess
  | .lookup =>
    match heap.outer.get? client with
    | some table => (heap, .found table)
    | none => (heap, .factory)
  | .factory => (heap, .insert)
  | .insert => (heap.insertTable client, .found heap.nextTable)
  | .found table => (heap, .found table)

/-- Where a thread is in the evaluation of `CLIENT_REPLICA_ROUTING_TABLE[client][replica]`. -/
inductive ItemAccess
  | client (access : ClientAccess)
  | factory (table : Nat)
  | insert (table : Nat)
  | found (entry : Nat)
  deriving DecidableEq

def ItemAccess.step (heap : Heap) (client replica : Key) : ItemAccess → Heap × ItemAccess
  | .client (.found table) =>
    match (heap.tables table).get? replica with
    | some entry => (heap, .found entry)
    | none => (heap, .factory table)
  | .client access => ((access.step heap client).1, .client (access.step heap client).2)
  | .factory table => (heap, .insert table)
  | .insert table => (heap.insertEntry table replica, .found heap.nextEntry)
  | .found entry => (heap, .found entry)

/-- What a step does to the shared objects. -/
inductive Effect
  | quiet
  | newTable
  | newEntry (table : Nat)
  | assign (entry : Nat) (item : Item)
  deriving DecidableEq

def Effect.apply (heap : Heap) (client replica : Key) : Effect → Heap
  | .quiet => heap
  | .newTable => heap.insertTable client
  | .newEntry table => heap.insertEntry table replica
  | .assign e item => heap.assign e item

def ItemAccess.effect : ItemAccess → Effect
  | .client .insert => .newTable
  | .insert table => .newEntry table
  | _ => .quiet

theorem ItemAccess.step_heap (heap : Heap) (client replica : Key) (item : ItemAccess) :
    (item.step heap client replica).1 = item.effect.apply heap client replica := by
  rcases item with (_ | _ | _ | table) | table | table | entry
  case client.lookup =>
    simp only [ItemAccess.step, ClientAccess.step]
    split <;> rfl
  case client.found =>
    simp only [ItemAccess.step]
    split <;> rfl
  all_goals rfl

/-- The dictionary in which an access is about to look its replica up or to
store an entry. -/
def ItemAccess.heldTable : ItemAccess → Option Nat
  | .client (.found table) => some table
  | .factory table => some table
  | .insert table => some table
  | _ => none

def ItemAccess.heldEntry : ItemAccess → Option Nat
  | .found entry => some entry
  | _ => none

/-- A dictionary comes into a thread's hands by a lookup that finds it or by the
thread's own insertion. -/
theorem ItemAccess.step_heldTable {heap : Heap} {client replica : Key} {item : ItemAccess} {table : Nat}
    (held : (item.step heap client replica).2.heldTable = some table) :
    item.heldTable = some table ∨ heap.outer.get? client = some table ∨
      (item.effect = .newTable ∧ table = heap.nextTable) := by
  rcases item with (_ | _ | _ | t) | t | t | e
  case client.lookup =>
    simp only [ItemAccess.step, ClientAccess.step] at held
    cases found : heap.outer.get? client with
    | none => simp [found, ItemAccess.heldTable] at held
    | some t =>
      rw [found] at held
      exact Or.inr (Or.inl held)
  case client.factory => simp [ItemAccess.step, ClientAccess.step, ItemAccess.heldTable] at held
  case client.insert => exact Or.inr (Or.inr ⟨rfl, (Option.some.inj held).symm⟩)
  case client.found =>
    simp only [ItemAccess.step] at held
    cases found : (heap.tables t).get? replica with
    | none =>
      rw [found] at held
      exact Or.inl held
    | some e => simp [found, ItemAccess.heldTable] at held
  case factory => exact Or.inl held
  case insert => simp [ItemAccess.step, ItemAccess.heldTable] at held
  case found => simp [ItemAccess.step, ItemAccess.heldTable] at held

theorem ItemAccess.step_heldEntry {heap : Heap} {client replica : Key} {item : ItemAccess} {entry : Nat}
    (held : (item.step heap client replica).2.heldEntry = some entry) :
    item.heldEntry = some entry ∨ ∃ table, item.heldTable = some table ∧
      ((heap.tables table).get? replica = some entry ∨
        (item.effect = .newEntry table ∧ entry = heap.nextEntry)) := by
  rcases item with (_ | _ | _ | t) | t | t | e
  case client.lookup => simp [ItemAccess.step, ItemAccess.heldEntry] at held
  case client.factory => simp [ItemAccess.step, ItemAccess.heldEntry] at held
  case client.insert => simp [ItemAccess.step, ItemAccess.heldEntry] at held
  case client.found =>
    simp only [ItemAccess.step] at held
    cases found : (heap.tables t).get? replica with
    | none => simp [found, ItemAccess.heldEntry] at held
    | some e =>
      rw [found] at held
      exact Or.inr ⟨t, rfl, Or.inl (found.trans held)⟩
  case factory => simp [ItemAccess.step, ItemAccess.heldEntry] at held
  case insert => exact Or.inr ⟨t, rfl, Or.inr ⟨rfl, (Option.some.inj held).symm⟩⟩
  case found => exact Or.inl held

/-- References point to objects that exist, no dictionary belongs to two
clients, and no entry stands at two places. -/
structure Heap.WellFormed (heap : Heap) : Prop where
  table_bound : ∀ client table, heap.outer.get? client = some table → table < heap.nextTable
  table_owner : ∀ client other table, heap.outer.get? client = some table →
    heap.outer.get? other = some table → client = other
  entry_bound : ∀ table replica entry, (heap.tables table).get? replica = some entry → entry < heap.nextEntry
  entry_owner : ∀ table replica table' replica' entry, (heap.tables table).get? replica = some entry →
    (heap.tables table').get? replica' = some entry → table = table' ∧ replica = replica'

theorem Heap.wellFormed_empty : Heap.empty.WellFormed where
  table_bound client table found := by simp [Heap.empty] at found
  table_owner client other table found _ := by simp [Heap.empty] at found
  entry_bound table replica entry found := by simp [Heap.empty] at found
  entry_owner table replica table' replica' entry found _ := by simp [Heap.empty] at found

namespace Heap.WellFormed
variable {heap : Heap}

theorem insertTable (wf : heap.WellFormed) (client : Key) : (heap.insertTable client).WellFormed where
  table_bound c table found := by
    simp only [Heap.insertTable, Dict.get?_set] at found ⊢
    split at found
    · cases Option.some.inj found; omega
    · have := wf.table_bound c table found; omega
  table_owner c other table found found' := by
    simp only [Heap.insertTable, Dict.get?_set] at found found'
    split at found <;> split at found'
    · rename_i left right; rw [left, right]
    · cases Option.some.inj found
      exact absurd (wf.table_bound other _ found') (lt_irrefl _)
    · cases Option.some.inj found'
      exact absurd (wf.table_bound c _ found) (lt_irrefl _)
    · exact wf.table_owner c other table found found'
  entry_bound table replica entry found := by
    simp only [Heap.insertTable, Function.update_apply] at found ⊢
    split at found
    · simp at found
    · exact wf.entry_bound table replica entry found
  entry_owner table replica table' replica' entry found found' := by
    simp only [Heap.insertTable, Function.update_apply] at found found'
    split at found
    · simp at found
    · split at found'
      · simp at found'
      · exact wf.entry_owner table replica table' replica' entry found found'

/-- The lookups in a dictionary after an insertion into some dictionary. -/
theorem insertEntry_get? (heap : Heap) (table other : Nat) (replica replica' : Key) :
    ((heap.insertEntry table replica).tables other).get? replica' =
      if other = table ∧ replica' = replica then some heap.nextEntry
      else (heap.tables other).get? replica' := by
  by_cases same : other = table
  · subst same
    by_cases here : replica' = replica
    · simp [Heap.insertEntry, here]
    · simp [Heap.insertEntry, here, Dict.get?_set_of_ne]
  · simp [Heap.insertEntry, same]

theorem insertEntry (wf : heap.WellFormed) (table : Nat) (replica : Key) :
    (heap.insertEntry table replica).WellFormed where
  table_bound := wf.table_bound
  table_owner := wf.table_owner
  entry_bound t r entry found := by
    rw [insertEntry_get?] at found
    simp only [Heap.insertEntry]
    split at found
    · cases Option.some.inj found; omega
    · have := wf.entry_bound t r entry found; omega
  entry_owner t r t' r' entry found found' := by
    rw [insertEntry_get?] at found found'
    split at found <;> split at found'
    · rename_i left right
      exact ⟨left.1.trans right.1.symm, left.2.trans right.2.symm⟩
    · cases Option.some.inj found
      exact absurd (wf.entry_bound t' r' _ found') (lt_irrefl _)
    · cases Option.some.inj found'
      exact absurd (wf.entry_bound t r _ found) (lt_irrefl _)
    · exact wf.entry_owner t r t' r' entry found found'

theorem assign (wf : heap.WellFormed) (e : Nat) (item : Item) : (heap.assign e item).WellFormed where
  table_bound := wf.table_bound
  table_owner := wf.table_owner
  entry_bound := wf.entry_bound
  entry_owner := wf.entry_owner

end Heap.WellFormed

namespace Heap
variable {heap : Heap}

theorem find_insertTable_other (wf : heap.WellFormed) {client other : Key} (differs : other ≠ client)
    (replica : Key) : (heap.insertTable client).find other replica = heap.find other replica := by
  simp only [find, insertTable, Dict.get?_set_of_ne _ _ differs]
  cases found : heap.outer.get? other with
  | none => rfl
  | some table =>
    have older := wf.table_bound other table found
    simp only [Option.bind_some, Function.update_of_ne older.ne]

theorem find_insertTable_self (client replica : Key) :
    (heap.insertTable client).find client replica = none := by
  simp [find, insertTable]

theorem find_insertEntry (heap : Heap) (table : Nat) (replica client replica' : Key) :
    (heap.insertEntry table replica).find client replica' =
      if heap.outer.get? client = some table ∧ replica' = replica then some heap.nextEntry
      else heap.find client replica' := by
  simp only [find, show (heap.insertEntry table replica).outer = heap.outer from rfl]
  cases found : heap.outer.get? client with
  | none => simp
  | some t =>
    simp only [Option.bind_some, WellFormed.insertEntry_get?, Option.some.injEq]

theorem find_assign (heap : Heap) (e : Nat) (item : Item) (client replica : Key) :
    (heap.assign e item).find client replica = heap.find client replica := rfl

theorem WellFormed.find_bound (wf : heap.WellFormed) {client replica : Key} {entry : Nat}
    (found : heap.find client replica = some entry) : entry < heap.nextEntry := by
  obtain ⟨table, _, inTable⟩ := Option.bind_eq_some_iff.mp found
  exact wf.entry_bound table replica entry inTable

theorem WellFormed.find_owner (wf : heap.WellFormed) {client replica client' replica' : Key} {entry : Nat}
    (found : heap.find client replica = some entry) (found' : heap.find client' replica' = some entry) :
    client = client' ∧ replica = replica' := by
  obtain ⟨table, atClient, inTable⟩ := Option.bind_eq_some_iff.mp found
  obtain ⟨table', atClient', inTable'⟩ := Option.bind_eq_some_iff.mp found'
  obtain ⟨sameTable, sameReplica⟩ := wf.entry_owner table replica table' replica' entry inTable inTable'
  subst sameTable
  exact ⟨wf.table_owner client client' table atClient atClient', sameReplica⟩

theorem entry_of_find {client replica : Key} {e : Nat} (found : heap.find client replica = some e) :
    heap.entry client replica = heap.entries e := by
  rw [entry, found]
  rfl

/-- A client that is stored with an empty dictionary reads as before. -/
theorem entry_insertTable (wf : heap.WellFormed) {client : Key} (missing : heap.outer.get? client = none)
    (other replica : Key) : (heap.insertTable client).entry other replica = heap.entry other replica := by
  by_cases same : other = client
  · subst same
    have nothing : heap.find other replica = none := by simp [find, missing]
    rw [entry, find_insertTable_self, entry, nothing]
    rfl
  · rw [entry, find_insertTable_other wf same]
    rfl

/-- A new entry reads like a missing one. -/
theorem entry_insertEntry (wf : heap.WellFormed) {client replica : Key} {table : Nat}
    (known : heap.outer.get? client = some table) (missing : (heap.tables table).get? replica = none)
    (client' replica' : Key) :
    (heap.insertEntry table replica).entry client' replica' = heap.entry client' replica' := by
  rw [entry, find_insertEntry]
  split
  · rename_i here
    have sameClient := wf.table_owner client' client table here.1 known
    have nothing : heap.find client replica = none := by simpa [find, known] using missing
    rw [entry, sameClient, here.2, nothing]
    simp [insertEntry]
  · cases found : heap.find client' replica' with
    | none => rw [entry, found]; rfl
    | some e =>
      have older := wf.find_bound found
      rw [entry_of_find found]
      exact Function.update_of_ne older.ne Entry.new heap.entries

theorem entry_assign (wf : heap.WellFormed) {client replica : Key} {e : Nat}
    (own : heap.find client replica = some e) (item : Item) (client' replica' : Key) :
    (heap.assign e item).entry client' replica' =
      if client' = client ∧ replica' = replica then item.write (heap.entry client' replica')
      else heap.entry client' replica' := by
  rw [entry, find_assign]
  by_cases here : client' = client ∧ replica' = replica
  · rw [if_pos here, entry, here.1, here.2, own]
    simp [assign]
  · rw [if_neg here]
    cases found : heap.find client' replica' with
    | none => rw [entry, found]; rfl
    | some other =>
      have differs : other ≠ e := by
        rintro rfl
        exact here (wf.find_owner found own)
      rw [entry_of_find found]
      exact Function.update_of_ne differs (item.write (heap.entries e)) heap.entries

end Heap

theorem Effect.apply_wellFormed {heap : Heap} (wf : heap.WellFormed) (client replica : Key) (effect : Effect) :
    (effect.apply heap client replica).WellFormed := by
  cases effect with
  | quiet => exact wf
  | newTable => exact wf.insertTable client
  | newEntry table => exact wf.insertEntry table replica
  | assign e item => exact wf.assign e item

end SimpleCdn
