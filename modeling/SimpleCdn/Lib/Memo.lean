import SimpleCdn.Lib.Dict
import SimpleCdn.Lib.Effects
import SimpleCdn.Lib.Recursion

namespace SimpleCdn

section Transparent
variable {ε σ α β : Type}

/-- An outcome together with the state in which it comes. -/
def answer : Except ε α → σ → EStateM.Result ε σ α
  | .ok value, s => .ok value s
  | .error raised, s => .error raised s

def outcome : EStateM.Result ε σ α → Except ε α
  | .ok value _ => .ok value
  | .error raised _ => .error raised

@[simp] theorem outcome_answer (result : Except ε α) (s : σ) : outcome (answer result s) = result := by
  cases result <;> rfl

/-- A computation that has the same outcome in all states of some kind and
keeps to them: the state is only a memory of earlier work. -/
def Transparent (inv : σ → Prop) (x : EStateM ε σ α) (result : Except ε α) : Prop :=
  ∀ s, inv s → ∃ t, inv t ∧ x.run s = answer result t

/-- The outcomes of some calls, one after another. An exception ends a call, but
not the ones behind it. -/
def outcomes : List (EStateM ε σ α) → σ → List (Except ε α)
  | [], _ => []
  | call :: rest, s =>
    match call.run s with
    | .ok value t => .ok value :: outcomes rest t
    | .error raised t => .error raised :: outcomes rest t

variable {inv : σ → Prop}

theorem Transparent.unchanged {x : EStateM ε σ α} {result : Except ε α}
    (run : ∀ s, x.run s = answer result s) :
    Transparent inv x result := fun s start => ⟨s, start, run s⟩

theorem Transparent.bind {x : EStateM ε σ α} {f : α → EStateM ε σ β} {result : Except ε α}
    {next : α → Except ε β}
    (first : Transparent inv x result) (rest : ∀ value, result = .ok value →
      Transparent inv (f value) (next value)) :
    Transparent inv (x >>= f) (result >>= next) := by
  intro s start
  obtain ⟨t, middle, run⟩ := first s start
  rw [EStateM.run_bind, run]
  cases result with
  | ok value => exact rest value rfl t middle
  | error raised => exact ⟨t, middle, rfl⟩

theorem Transparent.outcome_eq {x : EStateM ε σ α} {result : Except ε α} (transparent : Transparent inv x result)
    {s : σ} (start : inv s) : outcome (x.run s) = result := by
  obtain ⟨t, _, run⟩ := transparent s start
  rw [run, outcome_answer]

theorem Transparent.keeps {x : EStateM ε σ α} {result : Except ε α} (transparent : Transparent inv x result) :
    Keeps inv x := by
  intro s start
  obtain ⟨t, kept, run⟩ := transparent s start
  rw [run]
  cases result <;> exact kept

/-- So it does not matter what has been called before. -/
theorem Transparent.outcomes {ι : Type} {call : ι → EStateM ε σ α} {result : ι → Except ε α}
    (each : ∀ i, Transparent inv (call i) (result i)) (order : List ι) {s : σ} (start : inv s) :
    SimpleCdn.outcomes (order.map call) s = order.map result := by
  induction order generalizing s with
  | nil => rfl
  | cons i rest ih =>
    obtain ⟨t, middle, run⟩ := each i s start
    rw [List.map_cons, List.map_cons, SimpleCdn.outcomes, run]
    cases result i with
    | ok value => exact congrArg _ (ih middle)
    | error raised => exact congrArg _ (ih middle)

end Transparent

section LruCache
variable {ε κ ν : Type}

/-- A cache of the last results of a function, the oldest one first, and the
arguments that were missed in it, which `lru_cache` counts. -/
structure LruCache (κ ν : Type) where
  entries : List (κ × ν)
  misses : List κ

def LruCache.empty : LruCache κ ν := ⟨[], []⟩

/-- Every stored result is one of the function, no key is stored twice, and
there are not too many. -/
structure LruCache.Sound (maxsize : Nat) (f : κ → Except ε ν) (cache : LruCache κ ν) : Prop where
  result : ∀ entry ∈ cache.entries, f entry.1 = .ok entry.2
  keys_nodup : (cache.entries.map Prod.fst).Nodup
  length_le : cache.entries.length ≤ maxsize

theorem LruCache.sound_empty (maxsize : Nat) (f : κ → Except ε ν) : LruCache.Sound maxsize f LruCache.empty :=
  ⟨nofun, List.nodup_nil, Nat.zero_le _⟩

variable [DecidableEq κ]

/-- An entry in use is the youngest one. -/
def LruCache.refresh (cache : LruCache κ ν) (key : κ) (value : ν) : LruCache κ ν :=
  { cache with entries := cache.entries.filter (fun entry => entry.1 ≠ key) ++ [(key, value)] }

def LruCache.miss (cache : LruCache κ ν) (key : κ) : LruCache κ ν :=
  { cache with misses := cache.misses ++ [key] }

/-- A new entry. The oldest one makes room for it. -/
def LruCache.store (maxsize : Nat) (cache : LruCache κ ν) (key : κ) (value : ν) : LruCache κ ν :=
  { cache with
    entries := (if cache.entries.length < maxsize then cache.entries else cache.entries.tail) ++ [(key, value)] }

/-- `lru_cache` with a positive size. A function that raises stores nothing. -/
def lruCached (maxsize : Nat) (f : κ → Except ε ν) (key : κ) : EStateM ε (LruCache κ ν) ν := fun cache =>
  match findEntry key cache.entries with
  | some value => .ok value (cache.refresh key value)
  | none =>
    match f key with
    | .ok value => .ok value ((cache.miss key).store maxsize key value)
    | .error raised => .error raised (cache.miss key)

variable {maxsize : Nat} {f : κ → Except ε ν} {cache : LruCache κ ν} {key : κ} {value : ν}

theorem findEntry_eq_none_iff {entries : List (κ × ν)} :
    findEntry key entries = none ↔ key ∉ entries.map Prod.fst := by
  rw [← findEntry_isSome_iff, Option.not_isSome_iff_eq_none]

theorem LruCache.Sound.refresh (sound : cache.Sound maxsize f) (found : findEntry key cache.entries = some value) :
    (cache.refresh key value).Sound maxsize f := by
  have member := mem_of_findEntry found
  refine ⟨fun entry inside => ?_, ?_, ?_⟩
  · rcases List.mem_append.mp inside with old | new
    · exact sound.result entry (List.mem_of_mem_filter old)
    · rw [List.mem_singleton.mp new]
      exact sound.result _ member
  · rw [LruCache.refresh, List.map_append, List.nodup_append]
    refine ⟨sound.keys_nodup.sublist (List.filter_sublist.map _), List.nodup_singleton _, ?_⟩
    rintro k old k' new rfl
    obtain ⟨entry, inside, rfl⟩ := List.mem_map.mp old
    have other : entry.1 ≠ key := by simpa using (List.mem_filter.mp inside).2
    exact other (List.mem_singleton.mp new)
  · have shorter : (cache.entries.filter fun entry => entry.1 ≠ key).length < cache.entries.length :=
      List.length_filter_lt_length_iff_exists.mpr ⟨_, member, by simp⟩
    rw [LruCache.refresh, List.length_append, List.length_singleton]
    exact le_trans shorter sound.length_le

omit [DecidableEq κ] in
theorem LruCache.Sound.miss (sound : cache.Sound maxsize f) (key : κ) : (cache.miss key).Sound maxsize f :=
  ⟨sound.result, sound.keys_nodup, sound.length_le⟩

theorem LruCache.Sound.store (positive : 0 < maxsize) (sound : cache.Sound maxsize f)
    (missing : findEntry key cache.entries = none) (result : f key = .ok value) :
    (cache.store maxsize key value).Sound maxsize f := by
  have new := findEntry_eq_none_iff.mp missing
  have kept :
      (if cache.entries.length < maxsize then cache.entries else cache.entries.tail).Sublist cache.entries := by
    split
    · exact List.Sublist.refl _
    · exact List.tail_sublist _
  refine ⟨fun entry inside => ?_, ?_, ?_⟩
  · rcases List.mem_append.mp inside with old | here
    · exact sound.result entry (kept.subset old)
    · rw [List.mem_singleton.mp here]
      exact result
  · rw [LruCache.store, List.map_append, List.nodup_append]
    refine ⟨sound.keys_nodup.sublist (kept.map _), List.nodup_singleton _, ?_⟩
    rintro k old k' last rfl
    cases List.mem_singleton.mp last
    exact new ((kept.map _).subset old)
  · rw [LruCache.store, List.length_append, List.length_singleton]
    have bound := sound.length_le
    split
    · omega
    · rw [List.length_tail]
      omega

/-- The cache is transparent: a cached function has the outcomes of the
function, in whatever order it is called. -/
theorem lruCached_transparent (positive : 0 < maxsize) (f : κ → Except ε ν) (key : κ) :
    Transparent (LruCache.Sound maxsize f) (lruCached maxsize f key) (f key) := by
  intro cache sound
  show ∃ t, _ ∧ lruCached maxsize f key cache = _
  unfold lruCached
  cases found : findEntry key cache.entries with
  | some value =>
    have result := sound.result _ (mem_of_findEntry found)
    exact ⟨_, sound.refresh found, by rw [result]; rfl⟩
  | none =>
    cases result : f key with
    | ok value => exact ⟨_, (sound.miss key).store positive found result, rfl⟩
    | error raised => exact ⟨_, sound.miss key, rfl⟩

/-- The entry of a key, with at most this many entries that are younger. -/
def LruCache.Recent (n : Nat) (key : κ) (cache : LruCache κ ν) : Prop :=
  ∃ older younger, cache.entries.map Prod.fst = older ++ key :: younger ∧ younger.length ≤ n

/-- A key has been missed once at most, and then its entry is recent. -/
def LruCache.MissedOnce (n : Nat) (key : κ) (cache : LruCache κ ν) : Prop :=
  cache.misses.count key = 0 ∨ cache.misses.count key = 1 ∧ cache.Recent n key

variable {n : Nat} {other : κ}

omit [DecidableEq κ] in
theorem LruCache.Recent.mono {m : Nat} (recent : cache.Recent n key) (le : n ≤ m) : cache.Recent m key := by
  obtain ⟨older, younger, keys, few⟩ := recent
  exact ⟨older, younger, keys, few.trans le⟩

theorem LruCache.MissedOnce.mono {m : Nat} (once : cache.MissedOnce n key) (le : n ≤ m) : cache.MissedOnce m key :=
  once.imp_right fun both => ⟨both.1, both.2.mono le⟩

theorem LruCache.Recent.refresh (recent : cache.Recent n key) (different : other ≠ key) (value : ν) :
    (cache.refresh other value).Recent (n + 1) key := by
  obtain ⟨older, younger, keys, few⟩ := recent
  let others := fun k : κ => decide (k ≠ other)
  have kept : (cache.entries.filter fun entry => entry.1 ≠ other).map Prod.fst =
      older.filter others ++ key :: younger.filter others := by
    rw [show (fun entry : κ × ν => decide (entry.1 ≠ other)) =
      others ∘ Prod.fst from rfl, ← List.filter_map, keys,
      List.filter_append, List.filter_cons_of_pos (by simpa [others] using Ne.symm different)]
  refine ⟨older.filter others, younger.filter others ++ [other], ?_, ?_⟩
  · rw [LruCache.refresh, List.map_append, kept, List.append_assoc]
    rfl
  · rw [List.length_append, List.length_singleton]
    exact Nat.succ_le_succ ((List.length_filter_le ..).trans few)

omit [DecidableEq κ] in
theorem LruCache.Recent.store (recent : cache.Recent n key) (room : n + 1 < maxsize) (other : κ) (value : ν) :
    (cache.store maxsize other value).Recent (n + 1) key := by
  obtain ⟨older, younger, keys, few⟩ := recent
  have length : cache.entries.length = older.length + (younger.length + 1) := by
    rw [← List.length_map Prod.fst, keys, List.length_append, List.length_cons]
  have longer : (younger ++ [other]).length ≤ n + 1 := by
    rw [List.length_append, List.length_singleton]
    omega
  by_cases space : cache.entries.length < maxsize
  · refine ⟨older, younger ++ [other], ?_, longer⟩
    rw [LruCache.store, if_pos space, List.map_append, keys, List.append_assoc]
    rfl
  · -- The oldest entry goes, and it is not the one of the key.
    cases older with
    | nil =>
      rw [List.length_nil] at length
      omega
    | cons first older =>
      refine ⟨older, younger ++ [other], ?_, longer⟩
      rw [LruCache.store, if_neg space, List.map_append, List.map_tail, keys, List.cons_append, List.tail_cons,
        List.append_assoc]
      rfl

theorem LruCache.recent_refresh (cache : LruCache κ ν) (key : κ) (value : ν) :
    (cache.refresh key value).Recent 0 key :=
  ⟨(cache.entries.filter fun entry => entry.1 ≠ key).map Prod.fst, [],
    by rw [LruCache.refresh, List.map_append]; rfl, le_rfl⟩

omit [DecidableEq κ] in
theorem LruCache.recent_store (cache : LruCache κ ν) (key : κ) (value : ν) :
    (cache.store maxsize key value).Recent 0 key :=
  ⟨(if cache.entries.length < maxsize then cache.entries else cache.entries.tail).map Prod.fst, [],
    by rw [LruCache.store, List.map_append]; rfl, le_rfl⟩

/-- A call with another key makes the entry of a key older by one at most, and
not at all when it raises. -/
theorem LruCache.MissedOnce.call_other (once : cache.MissedOnce n key) (different : other ≠ key)
    (room : n + 1 < maxsize) (f : κ → Except ε ν) :
    (∃ value t, (lruCached maxsize f other).run cache = .ok value t ∧ t.MissedOnce (n + 1) key) ∨
      ∃ raised t, f other = .error raised ∧ (lruCached maxsize f other).run cache = .error raised t ∧
        t.MissedOnce n key := by
  have count : (cache.misses ++ [other]).count key = cache.misses.count key := by
    rw [List.count_append, List.count_singleton, if_neg (by simpa using different), Nat.add_zero]
  show (∃ value t, lruCached maxsize f other cache = _ ∧ _) ∨ ∃ raised t, _ ∧
    lruCached maxsize f other cache = _ ∧ _
  unfold lruCached
  cases findEntry other cache.entries with
  | some value =>
    refine .inl ⟨value, _, rfl, once.imp_right fun both => ⟨both.1, both.2.refresh different value⟩⟩
  | none =>
    cases f other with
    | ok value =>
      refine .inl ⟨value, _, rfl, once.imp count.trans fun both => ⟨count.trans both.1, ?_⟩⟩
      have recent : (cache.miss other).Recent n key := both.2
      exact recent.store room other value
    | error raised =>
      exact .inr ⟨raised, _, rfl, rfl, once.imp count.trans fun both => ⟨count.trans both.1, both.2⟩⟩

/-- A recent entry is used again, and is the youngest one then. -/
theorem LruCache.MissedOnce.call (once : cache.MissedOnce n key) (result : f key = .ok value) :
    ∃ value t, (lruCached maxsize f key).run cache = .ok value t ∧ t.MissedOnce 0 key := by
  show ∃ value t, lruCached maxsize f key cache = _ ∧ _
  unfold lruCached
  cases found : findEntry key cache.entries with
  | some stored => exact ⟨stored, _, rfl, once.imp_right fun both =>
      ⟨both.1, cache.recent_refresh key stored⟩⟩
  | none =>
    rw [result]
    refine ⟨value, _, rfl, .inr ⟨?_, (cache.miss key).recent_store key value⟩⟩
    rcases once with never | ⟨_, older, younger, keys, _⟩
    · show (cache.misses ++ [key]).count key = 1
      rw [List.count_append, never, List.count_singleton_self]
    · refine absurd ?_ (findEntry_eq_none_iff.mp found)
      rw [keys]
      exact List.mem_append_right _ (List.mem_cons_self ..)

end LruCache

end SimpleCdn
