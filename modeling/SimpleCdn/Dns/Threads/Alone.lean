import SimpleCdn.Dns.Resolve
import SimpleCdn.Dns.Threads.LostUpdates
import SimpleCdn.Dns.Threads.SafeAnswers

namespace SimpleCdn

/-- The routing table that the shared objects make up. -/
structure Heap.Shows (heap : Heap) (table : RoutingTable) : Prop where
  wellFormed : heap.WellFormed
  clients : heap.outer.keys = table.keys
  replicas : ∀ client t, heap.outer.get? client = some t → (heap.tables t).keys = (table.inner client).keys
  entries : ∀ client replica, heap.entry client replica = table.entry client replica

namespace Heap.Shows
variable {heap : Heap} {table : RoutingTable} {client replica : Key}

theorem empty : Heap.empty.Shows ∅ where
  wellFormed := Heap.wellFormed_empty
  clients := rfl
  replicas client t found := by simp [Heap.empty] at found
  entries client replica := rfl

theorem mem_iff (shows : heap.Shows table) (client : Key) : client ∈ heap.outer ↔ client ∈ table := by
  rw [← Dict.mem_keys, ← Dict.mem_keys, shows.clients]

theorem mem_inner_iff (shows : heap.Shows table) {t : Nat} (known : heap.outer.get? client = some t)
    (replica : Key) : replica ∈ heap.tables t ↔ replica ∈ table.inner client := by
  rw [← Dict.mem_keys, ← Dict.mem_keys, shows.replicas client t known]

theorem inner_of_missing (shows : heap.Shows table) (missing : heap.outer.get? client = none) :
    table.inner client = ∅ := by
  have absent : client ∉ table := fun known => by
    obtain ⟨t, found⟩ := Dict.mem_iff_get?.mp ((shows.mem_iff client).mpr known)
    rw [missing] at found
    cases found
  rw [RoutingTable.inner, Dict.not_mem_iff_get?.mp absent]
  rfl

theorem insertTable (shows : heap.Shows table) (missing : heap.outer.get? client = none) :
    (heap.insertTable client).Shows (table.set client (table.inner client)) where
  wellFormed := shows.wellFormed.insertTable client
  clients := by
    simp only [Heap.insertTable, Dict.keys_set, shows.mem_iff, shows.clients]
  replicas other t found := by
    simp only [Heap.insertTable, Dict.get?_set] at found ⊢
    split at found
    · rename_i here
      subst here
      cases Option.some.inj found
      rw [Function.update_self, RoutingTable.inner_set, shows.inner_of_missing missing]
      rfl
    · rename_i elsewhere
      have older := shows.wellFormed.table_bound other t found
      rw [Function.update_of_ne older.ne, RoutingTable.inner_set_other table _ elsewhere]
      exact shows.replicas other t found
  entries other replica := by
    rw [Heap.entry_insertTable shows.wellFormed missing, shows.entries]
    by_cases here : other = client
    · subst here
      rw [RoutingTable.entry, RoutingTable.entry, RoutingTable.inner_set]
    · rw [RoutingTable.entry, RoutingTable.entry, RoutingTable.inner_set_other table _ here]

/-- Storing an entry of a client that is there changes no key but the replica's. -/
theorem keys_store (known : client ∈ table) (e : Entry) :
    (table.store client replica e).keys = table.keys := by
  rw [RoutingTable.store, Dict.keys_set_of_mem known]

theorem insertEntry (shows : heap.Shows table) {t : Nat} (known : heap.outer.get? client = some t)
    (missing : (heap.tables t).get? replica = none) :
    (heap.insertEntry t replica).Shows (table.store client replica (table.entry client replica)) where
  wellFormed := shows.wellFormed.insertEntry t replica
  clients := by
    have present : client ∈ table := (shows.mem_iff client).mp (Dict.mem_iff_get?.mpr ⟨t, known⟩)
    rw [keys_store present, ← shows.clients]
    rfl
  replicas other t' found := by
    have found' : heap.outer.get? other = some t' := found
    rw [RoutingTable.inner_store]
    by_cases here : other = client
    · subst here
      cases Option.some.inj (found'.symm.trans known)
      have absent : replica ∉ heap.tables t := Dict.not_mem_iff_get?.mpr missing
      have absent' : replica ∉ table.inner other := fun present =>
        absent ((shows.mem_inner_iff known replica).mpr present)
      simp only [Heap.insertEntry, Function.update_self, if_true]
      rw [Dict.keys_set_of_not_mem absent, Dict.keys_set_of_not_mem absent', shows.replicas other t known]
    · have apart : t' ≠ t := by
        rintro rfl
        exact here (shows.wellFormed.table_owner other client t' found' known)
      simp only [Heap.insertEntry, Function.update_of_ne apart, if_neg here]
      exact shows.replicas other t' found'
  entries client' replica' := by
    rw [Heap.entry_insertEntry shows.wellFormed known missing, shows.entries, RoutingTable.entry_store_apply]
    split
    · rename_i here
      rw [here.1, here.2]
    · rfl

theorem assign (shows : heap.Shows table) {e : Nat} (own : heap.find client replica = some e) (item : Item) :
    (heap.assign e item).Shows (table.store client replica (item.write (table.entry client replica))) where
  wellFormed := shows.wellFormed.assign e item
  clients := by
    obtain ⟨t, known, _⟩ := Option.bind_eq_some_iff.mp own
    rw [keys_store ((shows.mem_iff client).mp (Dict.mem_iff_get?.mpr ⟨t, known⟩)), ← shows.clients]
    rfl
  replicas other t' found := by
    have found' : heap.outer.get? other = some t' := found
    obtain ⟨t, known, inTable⟩ := Option.bind_eq_some_iff.mp own
    rw [RoutingTable.inner_store]
    by_cases here : other = client
    · subst here
      have present := (shows.mem_inner_iff known replica).mp (Dict.mem_iff_get?.mpr ⟨e, inTable⟩)
      rw [if_pos rfl, Dict.keys_set_of_mem present]
      exact shows.replicas other t' found'
    · rw [if_neg here]
      exact shows.replicas other t' found'
  entries client' replica' := by
    rw [Heap.entry_assign shows.wellFormed own, RoutingTable.entry_store_apply, shows.entries]
    split
    · rename_i here
      rw [here.1, here.2]
    · rfl

end Heap.Shows

section Updates
variable {heap : Heap} {table : RoutingTable}

theorem Heap.Shows.find_eq (shows : heap.Shows table) {client replica : Key} {e : Nat}
    (found : heap.find client replica = some e) : heap.entries e = table.entry client replica := by
  rw [← shows.entries, Heap.entry_of_find found]

/-- The first half of an access alone: the client's dictionary is looked up, and
made where there is none. -/
theorem Heap.Shows.openTable (shows : heap.Shows table) (m : Measurement) (stage : Stage) :
    ∃ heap' t, Pool.Alone UpdateCall.step (heap, ⟨m, .access stage (.client .lookup)⟩)
        (heap', ⟨m, .access stage (.client (.found t))⟩) ∧
      heap'.Shows (table.set m.client (table.inner m.client)) ∧ heap'.outer.get? m.client = some t := by
  cases found : heap.outer.get? m.client with
  | some t =>
    have looked : UpdateCall.step heap ⟨m, .access stage (.client .lookup)⟩ =
        some (heap, ⟨m, .access stage (.client (.found t))⟩) := by
      simp only [UpdateCall.step, ItemAccess.step, ClientAccess.step, found]
    have known := (shows.mem_iff m.client).mp (Dict.mem_iff_get?.mpr ⟨t, found⟩)
    obtain ⟨inner, present⟩ := Dict.mem_iff_get?.mp known
    have same : table.set m.client (table.inner m.client) = table := by
      rw [RoutingTable.inner, present]
      exact Dict.set_of_get? present
    refine ⟨heap, t, Pool.Alone.single looked, ?_, found⟩
    rwa [same]
  | none =>
    have looked : UpdateCall.step heap ⟨m, .access stage (.client .lookup)⟩ =
        some (heap, ⟨m, .access stage (.client .factory)⟩) := by
      simp only [UpdateCall.step, ItemAccess.step, ClientAccess.step, found]
    have made : Pool.Alone UpdateCall.step (heap, ⟨m, .access stage (.client .lookup)⟩)
        (heap, ⟨m, .access stage (.client .insert)⟩) := (Pool.Alone.single looked).tail rfl
    exact ⟨heap.insertTable m.client, heap.nextTable, made.tail rfl, shows.insertTable found,
      Dict.get?_set_self _ _ _⟩

/-- An access alone does to the objects what `replicaItem` does to the table. -/
theorem Heap.Shows.access (shows : heap.Shows table) (m : Measurement) (stage : Stage) :
    ∃ heap' e, Pool.Alone UpdateCall.step (heap, ⟨m, .access stage (.client .lookup)⟩)
        (heap', ⟨m, .access stage (.found e)⟩) ∧
      heap'.Shows (table.store m.client m.replica (table.entry m.client m.replica)) ∧
      heap'.find m.client m.replica = some e := by
  obtain ⟨opened, t, first, shown, known⟩ := shows.openTable m stage
  let openedTable : RoutingTable := table.set m.client (table.inner m.client)
  have inner : openedTable.store m.client m.replica (openedTable.entry m.client m.replica) =
      table.store m.client m.replica (table.entry m.client m.replica) := by
    simp only [openedTable, RoutingTable.store, RoutingTable.entry, RoutingTable.inner_set, Dict.set_set]
  cases found : (opened.tables t).get? m.replica with
  | some e =>
    have looked : UpdateCall.step opened ⟨m, .access stage (.client (.found t))⟩ =
        some (opened, ⟨m, .access stage (.found e)⟩) := by
      simp only [UpdateCall.step, ItemAccess.step, found]
    have own : opened.find m.client m.replica = some e := by simp [Heap.find, known, found]
    have present := (shown.mem_inner_iff known m.replica).mp (Dict.mem_iff_get?.mpr ⟨e, found⟩)
    refine ⟨opened, e, first.tail looked, ?_, own⟩
    rwa [← inner, RoutingTable.store_entry_of_mem present]
  | none =>
    have looked : UpdateCall.step opened ⟨m, .access stage (.client (.found t))⟩ =
        some (opened, ⟨m, .access stage (.factory t)⟩) := by
      simp only [UpdateCall.step, ItemAccess.step, found]
    have made : Pool.Alone UpdateCall.step (opened, ⟨m, .access stage (.client (.found t))⟩)
        (opened, ⟨m, .access stage (.insert t)⟩) := (Pool.Alone.single looked).tail rfl
    refine ⟨opened.insertEntry t m.replica, opened.nextEntry, (first.trans made).tail rfl, ?_, ?_⟩
    · rw [← inner]
      exact shown.insertEntry known found
    · rw [Heap.find_insertEntry, if_pos ⟨known, rfl⟩]

/-- The same for a pair whose entry is there already: nothing changes. -/
theorem Heap.Shows.access_stored {m : Measurement} {entry : Entry}
    (shows : heap.Shows (table.store m.client m.replica entry)) (stage : Stage) :
    ∃ heap' e, Pool.Alone UpdateCall.step (heap, ⟨m, .access stage (.client .lookup)⟩)
        (heap', ⟨m, .access stage (.found e)⟩) ∧
      heap'.Shows (table.store m.client m.replica entry) ∧ heap'.find m.client m.replica = some e ∧
      heap'.entries e = entry := by
  obtain ⟨heap', e, alone, shown, found⟩ := shows.access m stage
  rw [RoutingTable.entry_store, RoutingTable.store_store] at shown
  exact ⟨heap', e, alone, shown, found, (shown.find_eq found).trans (RoutingTable.entry_store ..)⟩

theorem Heap.Shows.assign_stored {m : Measurement} {entry : Entry} {e : Nat}
    (shows : heap.Shows (table.store m.client m.replica entry))
    (found : heap.find m.client m.replica = some e) (item : Item) :
    (heap.assign e item).Shows (table.store m.client m.replica (item.write entry)) := by
  have shown := shows.assign found item
  rwa [RoutingTable.entry_store, RoutingTable.store_store] at shown

/-- A call of `update_latency` that is not interrupted records its measurement,
as the sequential program does. -/
theorem update_alone (shows : heap.Shows table) (m : Measurement) :
    ∃ heap', Pool.Alone UpdateCall.step (heap, ⟨m, .start⟩) (heap', ⟨m, .done⟩) ∧
      heap'.Shows (table.record m) := by
  let entry := table.entry m.client m.replica
  obtain ⟨heap₁, e₁, access₁, shows₁, found₁⟩ := shows.access m .sum
  have entry₁ : heap₁.entries e₁ = entry := (shows₁.find_eq found₁).trans (RoutingTable.entry_store ..)
  have summed := shows₁.assign_stored found₁ (.sum ((heap₁.entries e₁).sum + m.latency))
  obtain ⟨heap₂, e₂, access₂, shows₂, found₂, entry₂⟩ := summed.access_stored .minRead
  obtain ⟨heap₃, e₃, access₃, shows₃, found₃, entry₃⟩ :=
    shows₂.access_stored (.minWrite (Min.min (m.latency : WithTop ℚ) (heap₂.entries e₂).min))
  have lowered := shows₃.assign_stored found₃
    (.min (Min.min (m.latency : WithTop ℚ) (heap₂.entries e₂).min))
  obtain ⟨heap₄, e₄, access₄, shows₄, found₄, entry₄⟩ := lowered.access_stored .maxRead
  obtain ⟨heap₅, e₅, access₅, shows₅, found₅, entry₅⟩ :=
    shows₄.access_stored (.maxWrite (Max.max m.latency (heap₄.entries e₄).max))
  have raised := shows₅.assign_stored found₅ (.max (Max.max m.latency (heap₄.entries e₄).max))
  obtain ⟨heap₆, e₆, access₆, shows₆, found₆, entry₆⟩ := raised.access_stored .samples
  have counted := shows₆.assign_stored found₆ (.samples ((heap₆.entries e₆).samples + 1))
  have begun : Pool.Alone UpdateCall.step (heap, ⟨m, .start⟩) (heap, ⟨m, .access .sum (.client .lookup)⟩) :=
    .single rfl
  have summing := ((begun.trans access₁).tail rfl).tail rfl
  have lowering := (((summing.trans access₂).tail rfl).trans access₃).tail rfl
  have raising := (((lowering.trans access₄).tail rfl).trans access₅).tail rfl
  have counting := ((raising.trans access₆).tail rfl).tail rfl
  refine ⟨heap₆.assign e₆ (.samples ((heap₆.entries e₆).samples + 1)), counting, ?_⟩
  simpa only [RoutingTable.record, Entry.add, Item.write, entry₁, entry₂, entry₄, entry₆, entry] using counted

/-- Calls that run one after the other, in any order, are one interleaving of
all, and leave what the sequential program leaves. -/
theorem updates_in_turn {ι : Type} [DecidableEq ι] (records : ι → Measurement) {order : List ι}
    (once : order.Nodup) :
    ∃ p, Pool.Reach updateStep Pool.Free (updatePool records) p ∧ (∀ i ∈ order, (p.task i).Processed) ∧
      (∀ i ∉ order, p.task i = ⟨records i, .start⟩) ∧
      p.shared.Shows ((order.map records).foldl RoutingTable.record ∅) := by
  have each : ∀ (heap : Heap) (earlier : List ι) i, heap.Shows
    ((earlier.map records).foldl RoutingTable.record ∅) →
      ∃ heap' call, Pool.Alone UpdateCall.step (heap, (updatePool records).task i) (heap', call) ∧
        heap'.Shows (((earlier ++ [i]).map records).foldl RoutingTable.record ∅) ∧
          call = ⟨records i, .done⟩ := by
    intro heap earlier i shows
    obtain ⟨heap', alone, recorded⟩ := update_alone shows (records i)
    refine ⟨heap', _, alone, ?_, rfl⟩
    rw [List.map_append, List.foldl_append]
    exact recorded
  obtain ⟨p, reach, shows, ends, waiting⟩ := Pool.Alone.in_turn _ _ Heap.Shows.empty each once
  refine ⟨p, reach, fun i member => ?_, waiting, shows⟩
  obtain ⟨earlier, later, split⟩ := List.append_of_mem member
  rw [ends earlier i later split]
  rfl

theorem updates_in_turn_twoPings :
    ∃ p, Pool.Reach updateStep Pool.Free (updatePool twoPings) p ∧ (∀ i ∈ [1, 0], (p.task i).Processed) ∧
      (∀ i ∉ [1, 0], p.task i = ⟨twoPings i, .start⟩) ∧
      p.shared.Shows (([1, 0].map twoPings).foldl RoutingTable.record ∅) :=
  updates_in_turn twoPings (by decide)

end Updates

section Answers
variable {heap : Heap} {table : RoutingTable} {client : Key}

/-- The fold behind the minimum, with the value of the best key kept beside it. -/
theorem foldl_better (mean : Key → ℚ) (keys : List Key) (best : Option Key) :
    keys.foldl (fun b replica => some (better replica (mean replica) b)) (best.map fun b => (b, mean b)) =
      (keys.foldl (List.argAux fun b c => mean b < mean c) best).map fun b => (b, mean b) := by
  induction keys generalizing best with
  | nil => rfl
  | cons replica rest ih =>
    rw [List.foldl_cons, List.foldl_cons, ← ih]
    congr 1
    cases best with
    | none => rfl
    | some b =>
      simp only [better, List.argAux, Option.map_some]
      split <;> rfl

theorem access_found {t e : Nat} {replica : Key} (known : heap.outer.get? client = some t)
    (found : (heap.tables t).get? replica = some e) (place : ItemAccess → ResolvePc)
    (moves : ∀ item, (∀ e', item ≠ .found e') → ResolveCall.step heap ⟨client, place item⟩ =
      some ((item.step heap client replica).1, ⟨client, place (item.step heap client replica).2⟩)) :
    Pool.Alone ResolveCall.step (heap, ⟨client, place (.client .lookup)⟩)
      (heap, ⟨client, place (.found e)⟩) := by
  have first := moves (.client .lookup) (fun _ same => by cases same)
  have second := moves (.client (.found t)) (fun _ same => by cases same)
  simp only [ItemAccess.step, ClientAccess.step, known] at first
  simp only [ItemAccess.step, found] at second
  exact (Pool.Alone.single first).tail second

theorem turn_alone (shows : heap.Shows table) {t used position : Nat}
    (known : heap.outer.get? client = some t) (complete : table.Complete client)
    (unchanged : (heap.tables t).size = used) {replica : Key}
    (at_position : (heap.tables t).keys[position]? = some replica) (best : Option (Key × ℚ)) :
    Pool.Alone ResolveCall.step (heap, ⟨client, .advance ⟨t, used, position⟩ best⟩)
      (heap, ⟨client, .advance ⟨t, used, position + 1⟩
        (some (better replica (table.entry client replica).mean best))⟩) := by
  have member : replica ∈ heap.tables t := List.mem_of_getElem? at_position
  obtain ⟨e, found⟩ := Dict.mem_iff_get?.mp member
  have entry : heap.entries e = table.entry client replica :=
    shows.find_eq (by simp [Heap.find, known, found])
  have sampled : (heap.entries e).samples ≠ 0 := by
    rw [entry]
    exact complete.2 replica ((shows.mem_inner_iff known replica).mp member)
  have chosen : ResolveCall.step heap ⟨client, .advance ⟨t, used, position⟩ best⟩ =
      some (heap, ⟨client, .sum ⟨t, used, position + 1⟩ best replica (.client .lookup)⟩) := by
    simp only [ResolveCall.step, Iterator.next.eq_def, unchanged, ne_eq, not_true_eq_false, if_false, at_position]
  have summed := access_found known found
    (ResolvePc.sum ⟨t, used, position + 1⟩ best replica) fun item other => by
      cases item with
      | found e' => exact absurd rfl (other e')
      | _ => rfl
  have counted := access_found known found
    (ResolvePc.samples ⟨t, used, position + 1⟩ best replica (heap.entries e).sum) fun item other => by
      cases item with
      | found e' => exact absurd rfl (other e')
      | _ => rfl
  have divided : ResolveCall.step heap
      ⟨client, .samples ⟨t, used, position + 1⟩ best replica (heap.entries e).sum (.found e)⟩ =
        some (heap, ⟨client, .advance ⟨t, used, position + 1⟩
          (some (better replica (table.entry client replica).mean best))⟩) := by
    simp only [ResolveCall.step, if_neg sampled, ← entry, Entry.mean]
  exact ((((Pool.Alone.single chosen).trans summed).tail rfl).trans counted).tail divided

theorem scan_alone (shows : heap.Shows table) {t used : Nat} (known : heap.outer.get? client = some t)
    (complete : table.Complete client) (unchanged : (heap.tables t).size = used) {rest : List Key}
    {position : Nat} (left : (heap.tables t).keys.drop position = rest) {best : Option (Key × ℚ)}
    {least : Key × ℚ}
    (scanned : rest.foldl (fun b replica => some (better replica (table.entry client replica).mean b)) best =
      some least) :
    Pool.Alone ResolveCall.step (heap, ⟨client, .advance ⟨t, used, position⟩ best⟩)
      (heap, ⟨client, .returned least.1⟩) := by
  induction rest generalizing position best with
  | nil =>
    have ended : (heap.tables t).keys[position]? = none :=
      List.getElem?_eq_none_iff.mpr (List.drop_eq_nil_iff.mp left)
    have same : best = some least := scanned
    refine Pool.Alone.single ?_
    simp only [ResolveCall.step, Iterator.next.eq_def, unchanged, ne_eq, not_true_eq_false, if_false, ended, same]
  | cons replica others ih =>
    have here : (heap.tables t).keys[position]? = some replica := by
      rw [← List.head?_drop, left, List.head?_cons]
    have behind : (heap.tables t).keys.drop (position + 1) = others := by
      rw [← List.tail_drop, left, List.tail_cons]
    exact (turn_alone shows known complete unchanged here best).trans (ih behind scanned)

/-- A query that is not interrupted gives the answer of the sequential program
and changes nothing. -/
theorem resolve_alone (shows : heap.Shows table) (known : client ∈ table) (complete : table.Complete client) :
    ∃ replica, (leastLatency client).run table = .ok replica table ∧
      Pool.Alone ResolveCall.step (heap, ⟨client, .test⟩) (heap, ⟨client, .returned replica⟩) := by
  obtain ⟨replica, least, run⟩ := leastLatency_run known complete
  obtain ⟨t, found⟩ := Dict.mem_iff_get?.mp ((shows.mem_iff client).mpr known)
  refine ⟨replica, run, ?_⟩
  have tested : ResolveCall.step heap ⟨client, .test⟩ = some (heap, ⟨client, .table .lookup⟩) := by
    simp only [ResolveCall.step, if_pos ((shows.mem_iff client).mpr known)]
  have looked : ResolveCall.step heap ⟨client, .table .lookup⟩ =
      some (heap, ⟨client, .table (.found t)⟩) := by
    simp only [ResolveCall.step, ClientAccess.step, found]
  have scanned := foldl_better (fun r => (table.entry client r).mean) (table.inner client).keys none
  rw [← List.argmin, least, ← shows.replicas client t found] at scanned
  have scan := scan_alone shows found complete rfl (List.drop_zero (l := (heap.tables t).keys)) scanned
  exact (((Pool.Alone.single tested).tail looked).tail rfl).trans scan

end Answers

section Turns
variable {heap : Heap} {table : RoutingTable} {ι : Type} [DecidableEq ι] (calls : ι → Measurement ⊕ Key)

/-- The table of the sequential program after some calls. -/
def tableAfter (order : List ι) : RoutingTable :=
  (order.filterMap fun i => (calls i).getLeft?).foldl RoutingTable.record ∅

/-- How a call ends that the sequential program makes with this table. A client
that is not in it is answered by geography. -/
def ServerCall.EndsWith (table : RoutingTable) (task : ServerCall) : Measurement ⊕ Key → Prop
  | .inl m => task = .update ⟨m, .done⟩
  | .inr client =>
    if client ∈ table then
      ∃ replica, (leastLatency client).run table = .ok replica table ∧
        task = .resolve ⟨client, .returned replica⟩
    else task = .resolve ⟨client, .fallback⟩

omit [DecidableEq ι] in
theorem tableAfter_complete (order : List ι) {client : Key} (known : client ∈ tableAfter calls order) :
    (tableAfter calls order).Complete client :=
  (represents_empty.record_all _).complete known

omit [DecidableEq ι] in
/-- One call, from its start to its end. -/
theorem call_alone {order : List ι} (shows : heap.Shows (tableAfter calls order)) (i : ι) :
    ∃ heap' task, Pool.Alone ServerCall.step (heap, (serverPool calls).task i) (heap', task) ∧
      heap'.Shows (tableAfter calls (order ++ [i])) ∧ task.EndsWith (tableAfter calls order) (calls i) := by
  have after : tableAfter calls (order ++ [i]) =
      (calls i).elim (tableAfter calls order).record fun _ => tableAfter calls order := by
    rw [tableAfter, List.filterMap_append, List.foldl_append]
    cases kind : calls i <;> simp [kind, tableAfter]
  rw [after]
  cases kind : calls i with
  | inl m =>
    obtain ⟨heap', alone, recorded⟩ := update_alone shows m
    refine ⟨heap', .update ⟨m, .done⟩, ?_, recorded, rfl⟩
    simp only [serverPool, kind]
    exact alone.wrapped ServerCall.step .update fun _ _ => rfl
  | inr client =>
    simp only [serverPool, kind, ServerCall.EndsWith]
    by_cases known : client ∈ tableAfter calls order
    · obtain ⟨replica, run, alone⟩ := resolve_alone shows known (tableAfter_complete calls order known)
      refine ⟨heap, _, alone.wrapped ServerCall.step .resolve fun _ _ => rfl, shows, ?_⟩
      rw [if_pos known]
      exact ⟨replica, run, rfl⟩
    · have tested : ResolveCall.step heap ⟨client, .test⟩ = some (heap, ⟨client, .fallback⟩) := by
        simp only [ResolveCall.step, if_neg fun inOuter => known ((shows.mem_iff client).mp inOuter)]
      have ended : Pool.Alone ResolveCall.step (heap, ⟨client, .test⟩) (heap, ⟨client, .fallback⟩) :=
        .single tested
      refine ⟨heap, _, ended.wrapped ServerCall.step .resolve fun _ _ => rfl, shows, ?_⟩
      rw [if_neg known]

/-- Where records and queries are handled one after the other, in any order, each
ends as in the sequential program, and so does the table. -/
theorem calls_in_turn {order : List ι} (once : order.Nodup) :
    ∃ p, Pool.Reach serverStep Pool.Free (serverPool calls) p ∧ p.shared.Shows (tableAfter calls order) ∧
      (∀ earlier i later, order = earlier ++ i :: later →
        (p.task i).EndsWith (tableAfter calls earlier) (calls i)) ∧
      ∀ i ∉ order, p.task i = (serverPool calls).task i :=
  Pool.Alone.in_turn (fun heap earlier => Heap.Shows heap (tableAfter calls earlier))
    (fun earlier i task => ServerCall.EndsWith (tableAfter calls earlier) task (calls i)) Heap.Shows.empty
    (fun _ _ i shows => call_alone calls shows i) once

/-- The record is handled first, so the query finds its client. -/
theorem calls_in_turn_pingAndQuery :
    ∃ p, Pool.Reach serverStep Pool.Free (serverPool pingAndQuery) p ∧
      p.shared.Shows (tableAfter pingAndQuery [0, 1]) ∧
      p.task 1 = .resolve ⟨.string "52.53.228.21", .returned (.string "185.3.95.25")⟩ := by
  obtain ⟨p, reach, shows, ends, _⟩ := calls_in_turn pingAndQuery (show [(0 : Fin 2), 1].Nodup by decide)
  refine ⟨p, reach, shows, ?_⟩
  have answered := ends [0] 1 [] rfl
  have known : Key.string "52.53.228.21" ∈ tableAfter pingAndQuery [0] := by decide
  simp only [pingAndQuery, ServerCall.EndsWith, if_pos known] at answered
  obtain ⟨replica, run, task⟩ := answered
  cases run
  exact task

end Turns

end SimpleCdn
