import Mathlib.Data.List.Nodup
import Mathlib.Data.List.Dedup
import Mathlib.Data.List.Induction

namespace SimpleCdn
universe u v
variable {κ : Type u} {ν : Type v} [DecidableEq κ]

/-- Store a value under a key of an association list. A key that is present
keeps its place, a new one goes to the end. -/
def putEntry (k : κ) (v : ν) : List (κ × ν) → List (κ × ν)
  | [] => [(k, v)]
  | entry :: rest => if entry.1 = k then (entry.1, v) :: rest else entry :: putEntry k v rest

def findEntry (k : κ) : List (κ × ν) → Option ν
  | [] => none
  | entry :: rest => if entry.1 = k then some entry.2 else findEntry k rest

theorem putEntry_keys (k : κ) (v : ν) (entries : List (κ × ν)) :
    (putEntry k v entries).map Prod.fst =
      if k ∈ entries.map Prod.fst then entries.map Prod.fst else entries.map Prod.fst ++ [k] := by
  induction entries with
  | nil => simp [putEntry]
  | cons entry rest ih =>
    by_cases same : entry.1 = k
    · simp [putEntry, same]
    · have other : ¬ k = entry.1 := fun eq => same eq.symm
      simp only [putEntry, same, if_false, List.map_cons, ih, List.mem_cons, other, false_or]
      split <;> simp

theorem findEntry_put (k k' : κ) (v : ν) (entries : List (κ × ν)) :
    findEntry k' (putEntry k v entries) = if k' = k then some v else findEntry k' entries := by
  induction entries with
  | nil =>
    by_cases same : k' = k
    · simp [putEntry, findEntry, same]
    · simp [putEntry, findEntry, same, Ne.symm same]
  | cons entry rest ih =>
    by_cases atKey : entry.1 = k
    · by_cases same : k' = k
      · simp [putEntry, findEntry, atKey, same]
      · simp [putEntry, findEntry, atKey, same, Ne.symm same]
    · simp only [putEntry, atKey, if_false, findEntry, ih]
      by_cases here : entry.1 = k'
      · subst here
        simp [atKey]
      · simp [here]

theorem putEntry_put (k : κ) (first second : ν) (entries : List (κ × ν)) :
    putEntry k second (putEntry k first entries) = putEntry k second entries := by
  induction entries with
  | nil => simp [putEntry]
  | cons entry rest ih =>
    by_cases here : entry.1 = k
    · simp [putEntry, here]
    · simp only [putEntry, here, if_false, ih]

theorem mem_of_findEntry {k : κ} {v : ν} {entries : List (κ × ν)} (found : findEntry k entries = some v) :
    (k, v) ∈ entries := by
  induction entries with
  | nil => simp [findEntry] at found
  | cons entry rest ih =>
    by_cases here : entry.1 = k
    · simp only [findEntry, here, if_true, Option.some.injEq] at found
      rw [← here, ← found]
      exact List.mem_cons_self ..
    · simp only [findEntry, here, if_false] at found
      exact List.mem_cons_of_mem _ (ih found)

theorem putEntry_of_find {k : κ} {v : ν} {entries : List (κ × ν)}
    (found : findEntry k entries = some v) : putEntry k v entries = entries := by
  induction entries with
  | nil => simp [findEntry] at found
  | cons entry rest ih =>
    by_cases here : entry.1 = k
    · simp only [findEntry, here, if_true, Option.some.injEq] at found
      rw [putEntry, if_pos here, ← found]
    · simp only [findEntry, here, if_false] at found
      simp only [putEntry, here, if_false, ih found]

theorem findEntry_isSome_iff {k : κ} {entries : List (κ × ν)} :
    (findEntry k entries).isSome ↔ k ∈ entries.map Prod.fst := by
  induction entries with
  | nil => simp [findEntry]
  | cons entry rest ih =>
    by_cases here : entry.1 = k
    · simp [findEntry, here]
    · simp only [findEntry, here, if_false, ih, List.map_cons, List.mem_cons, Ne.symm here, false_or]

/-- An insertion-ordered dictionary. Keys are distinct by construction, so an
iteration meets each key once, in the order of first insertion. -/
structure Dict (κ : Type u) (ν : Type v) where
  entries : List (κ × ν)
  nodup : (entries.map Prod.fst).Nodup
  deriving DecidableEq

namespace Dict

section
omit [DecidableEq κ]

instance : EmptyCollection (Dict κ ν) := ⟨⟨[], .nil⟩⟩

def keys (d : Dict κ ν) : List κ := d.entries.map Prod.fst

def size (d : Dict κ ν) : Nat := d.entries.length

instance : Membership κ (Dict κ ν) := ⟨fun d k => k ∈ d.keys⟩

theorem mem_keys {d : Dict κ ν} {k : κ} : k ∈ d.keys ↔ k ∈ d := Iff.rfl

@[simp] theorem keys_empty : (∅ : Dict κ ν).keys = [] := rfl

@[simp] theorem not_mem_empty (k : κ) : k ∉ (∅ : Dict κ ν) := List.not_mem_nil

end

def get? (d : Dict κ ν) (k : κ) : Option ν := findEntry k d.entries

def set (d : Dict κ ν) (k : κ) (v : ν) : Dict κ ν where
  entries := putEntry k v d.entries
  nodup := by
    rw [putEntry_keys]
    split
    · exact d.nodup
    · rename_i absent
      exact List.nodup_append.mpr ⟨d.nodup, List.nodup_singleton k, fun a left b right same =>
        absent (by rwa [← List.mem_singleton.mp right, ← same])⟩

instance (d : Dict κ ν) (k : κ) : Decidable (k ∈ d) := inferInstanceAs (Decidable (k ∈ d.keys))

@[simp] theorem get?_empty (k : κ) : (∅ : Dict κ ν).get? k = none := rfl

theorem get?_set (d : Dict κ ν) (k k' : κ) (v : ν) :
    (d.set k v).get? k' = if k' = k then some v else d.get? k' :=
  findEntry_put k k' v d.entries

@[simp] theorem get?_set_self (d : Dict κ ν) (k : κ) (v : ν) : (d.set k v).get? k = some v := by
  rw [get?_set, if_pos rfl]

theorem get?_set_of_ne (d : Dict κ ν) {k k' : κ} (v : ν) (other : k' ≠ k) :
    (d.set k v).get? k' = d.get? k' := by
  rw [get?_set, if_neg other]

/-- Only the last of several values stored under one key remains. -/
@[simp] theorem set_set (d : Dict κ ν) (k : κ) (first second : ν) :
    (d.set k first).set k second = d.set k second := by
  rw [Dict.mk.injEq]
  exact putEntry_put k first second d.entries

theorem set_of_get? {d : Dict κ ν} {k : κ} {v : ν} (found : d.get? k = some v) : d.set k v = d := by
  cases d
  rw [Dict.mk.injEq]
  exact putEntry_of_find found

theorem keys_set (d : Dict κ ν) (k : κ) (v : ν) :
    (d.set k v).keys = if k ∈ d then d.keys else d.keys ++ [k] :=
  putEntry_keys k v d.entries

theorem mem_iff_isSome {d : Dict κ ν} {k : κ} : k ∈ d ↔ (d.get? k).isSome :=
  findEntry_isSome_iff.symm

theorem mem_iff_get? {d : Dict κ ν} {k : κ} : k ∈ d ↔ ∃ v, d.get? k = some v := by
  rw [mem_iff_isSome, Option.isSome_iff_exists]

theorem not_mem_iff_get? {d : Dict κ ν} {k : κ} : k ∉ d ↔ d.get? k = none := by
  rw [mem_iff_isSome, Option.not_isSome_iff_eq_none]

theorem mem_set {d : Dict κ ν} {k k' : κ} {v : ν} : k' ∈ d.set k v ↔ k' = k ∨ k' ∈ d := by
  rw [mem_iff_isSome, mem_iff_isSome, get?_set]
  split <;> simp_all

theorem keys_set_of_mem {d : Dict κ ν} {k : κ} (present : k ∈ d) (v : ν) :
    (d.set k v).keys = d.keys := by
  rw [keys_set, if_pos present]

theorem keys_set_of_not_mem {d : Dict κ ν} {k : κ} (absent : k ∉ d) (v : ν) :
    (d.set k v).keys = d.keys ++ [k] := by
  rw [keys_set, if_neg absent]

/-- Storing several values one after the other lists the keys in the order of
their first occurrence. -/
theorem keys_set_eraseDups {d : Dict κ ν} {seen : List κ} (ordered : d.keys = seen.eraseDups)
    (k : κ) (v : ν) : (d.set k v).keys = (seen ++ [k]).eraseDups := by
  have member : k ∈ d ↔ k ∈ seen := by
    rw [← mem_keys, ordered, List.mem_eraseDups]
  rw [keys_set, List.eraseDups_append, ordered]
  by_cases present : k ∈ seen
  · simp [member, present, List.removeAll]
  · simp [member, present, List.removeAll, List.eraseDups_cons]

end Dict

/-- Removing later duplicates keeps the order of first occurrences. -/
theorem idxOf_eraseDups_lt_iff {l : List κ} {x y : κ} (hx : x ∈ l) (hy : y ∈ l) :
    l.eraseDups.idxOf x < l.eraseDups.idxOf y ↔ l.idxOf x < l.idxOf y := by
  induction l using List.reverseRecOn with
  | nil => simp at hx
  | append_singleton l z ih =>
    rw [List.eraseDups_append]
    have single : ([z].removeAll l).eraseDups = if z ∈ l then [] else [z] := by
      by_cases present : z ∈ l <;> simp [List.removeAll, present, List.eraseDups_cons]
    rw [single]
    have inLeft : ∀ w ∈ l, w ∈ l.eraseDups := fun w hw => List.mem_eraseDups.mpr hw
    by_cases left : x ∈ l
    · by_cases right : y ∈ l
      · rw [List.idxOf_append_of_mem (inLeft x left), List.idxOf_append_of_mem (inLeft y right),
          List.idxOf_append_of_mem left, List.idxOf_append_of_mem right]
        exact ih left right
      · have atEnd : y = z := by simpa [right] using hy
        subst atEnd
        have before := List.idxOf_lt_length_of_mem (inLeft x left)
        have before' := List.idxOf_lt_length_of_mem left
        rw [if_neg right, List.idxOf_append_of_mem (inLeft x left), List.idxOf_append_of_mem left,
          List.idxOf_append_of_notMem right,
          List.idxOf_append_of_notMem (fun old => right (List.mem_eraseDups.mp old))]
        simp only [List.idxOf_cons_self, Nat.add_zero]
        exact ⟨fun _ => before', fun _ => before⟩
    · have atEnd : x = z := by simpa [left] using hx
      subst atEnd
      rw [if_neg left]
      by_cases right : y ∈ l
      · have before := List.idxOf_lt_length_of_mem (inLeft y right)
        have before' := List.idxOf_lt_length_of_mem right
        rw [List.idxOf_append_of_mem (inLeft y right), List.idxOf_append_of_mem right,
          List.idxOf_append_of_notMem left,
          List.idxOf_append_of_notMem (fun old => left (List.mem_eraseDups.mp old))]
        omega
      · have same : y = x := by simpa [right] using hy
        subst same
        exact iff_of_false (Nat.lt_irrefl _) (Nat.lt_irrefl _)

end SimpleCdn
