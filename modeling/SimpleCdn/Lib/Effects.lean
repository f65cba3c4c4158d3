import Mathlib.Data.List.MinMax

namespace SimpleCdn
universe u
variable {ε σ : Type} {α β : Type}

/-- The state in which a computation ends. A raised exception undoes nothing:
what was written before it stays written. -/
def finalState : EStateM.Result ε σ α → σ
  | .ok _ s => s
  | .error _ s => s

@[simp] theorem finalState_ok (a : α) (s : σ) : finalState (.ok a s : EStateM.Result ε σ α) = s := rfl

@[simp] theorem finalState_error (e : ε) (s : σ) :
    finalState (.error e s : EStateM.Result ε σ α) = s := rfl

def returned : EStateM.Result ε σ α → Option α
  | .ok a _ => some a
  | .error _ _ => none

theorem returned_eq_some {result : EStateM.Result ε σ α} {a : α} :
    returned result = some a ↔ ∃ s, result = .ok a s := by
  cases result with
  | ok b s => simp [returned]
  | error e s => simp [returned]

/-- An invariant that a computation keeps whether or not it raises. -/
def Keeps (inv : σ → Prop) (x : EStateM ε σ α) : Prop :=
  ∀ s, inv s → inv (finalState (x.run s))

theorem Keeps.bind {inv : σ → Prop} {x : EStateM ε σ α} {f : α → EStateM ε σ β}
    (first : Keeps inv x) (rest : ∀ a, Keeps inv (f a)) : Keeps inv (x >>= f) := by
  intro s start
  have middle := first s start
  rw [EStateM.run_bind]
  cases run : x.run s with
  | ok a t =>
    rw [run] at middle
    exact rest a t middle
  | error e t =>
    rw [run] at middle
    exact middle

theorem Keeps.pure {inv : σ → Prop} (a : α) : Keeps inv (Pure.pure a : EStateM ε σ α) := fun _ start => start

theorem Keeps.throw {inv : σ → Prop} (e : ε) : Keeps inv (MonadExcept.throw e : EStateM ε σ α) :=
  fun _ start => start

theorem Keeps.forM {inv : σ → Prop} {f : α → EStateM ε σ Unit} {l : List α}
    (each : ∀ a ∈ l, Keeps inv (f a)) : Keeps inv (forM l f) := by
  induction l with
  | nil => exact fun s start => start
  | cons a rest ih =>
    exact Keeps.bind (each a (List.mem_cons_self ..))
      (fun _ => ih (fun b member => each b (List.mem_cons_of_mem a member)))

/-- A loop whose body never raises folds the effect of the body. -/
theorem forM_run_ok {f : α → EStateM ε σ Unit} {g : σ → α → σ} {l : List α}
    (each : ∀ a ∈ l, ∀ s, (f a).run s = .ok () (g s a)) (s : σ) :
    (forM l f).run s = .ok () (l.foldl g s) := by
  induction l generalizing s with
  | nil => rfl
  | cons a rest ih =>
    rw [List.forM_cons, EStateM.run_bind, each a (List.mem_cons_self ..)]
    exact ih (fun b member => each b (List.mem_cons_of_mem a member)) (g s a)

def Returns (x : EStateM ε σ α) (s : σ) : Prop := ∃ a t, x.run s = .ok a t

theorem bind_run_eq_ok {x : EStateM ε σ α} {f : α → EStateM ε σ β} {s t : σ} {b : β} :
    (x >>= f).run s = .ok b t ↔ ∃ a u, x.run s = .ok a u ∧ (f a).run u = .ok b t := by
  rw [EStateM.run_bind]
  cases run : x.run s with
  | ok a u =>
    constructor
    · exact fun rest => ⟨a, u, rfl, rest⟩
    · rintro ⟨a', u', same, rest⟩
      cases same
      exact rest
  | error e u =>
    constructor
    · intro impossible
      cases impossible
    · rintro ⟨a', u', same, _⟩
      cases same

theorem returns_bind_iff {x : EStateM ε σ α} {f : α → EStateM ε σ β} {s : σ} :
    Returns (x >>= f) s ↔ ∃ a t, x.run s = .ok a t ∧ Returns (f a) t := by
  unfold Returns
  simp only [bind_run_eq_ok]
  constructor
  · rintro ⟨b, t, a, u, first, rest⟩
    exact ⟨a, u, first, b, t, rest⟩
  · rintro ⟨a, u, first, b, t, rest⟩
    exact ⟨b, t, a, u, first, rest⟩

/-- Where it does not depend on the state whether the body returns, a loop
returns when the body does for every item. -/
theorem forM_returns_iff (inv : σ → Prop) {fine : α → Prop} {f : α → EStateM ε σ Unit} {l : List α}
    (keeps : ∀ a ∈ l, Keeps inv (f a)) (each : ∀ a ∈ l, ∀ s, inv s → (Returns (f a) s ↔ fine a))
    {s : σ} (start : inv s) : Returns (forM l f) s ↔ ∀ a ∈ l, fine a := by
  induction l generalizing s with
  | nil =>
    constructor
    · intro _ a member
      cases member
    · exact fun _ => ⟨(), s, rfl⟩
  | cons a rest ih =>
    have here := each a (List.mem_cons_self ..) s start
    have later := fun t next => ih (fun b member => keeps b (List.mem_cons_of_mem a member))
      (fun b member => each b (List.mem_cons_of_mem a member)) (s := t) next
    rw [List.forM_cons, returns_bind_iff, List.forall_mem_cons]
    constructor
    · rintro ⟨_, t, run, returns⟩
      have next := keeps a (List.mem_cons_self ..) s start
      rw [run] at next
      exact ⟨here.mp ⟨_, t, run⟩, (later t next).mp returns⟩
    · rintro ⟨first, others⟩
      obtain ⟨_, t, run⟩ := here.mpr first
      have next := keeps a (List.mem_cons_self ..) s start
      rw [run] at next
      exact ⟨_, t, run, (later t next).mpr others⟩

theorem forM_flatMap (f : β → EStateM ε σ Unit) (g : α → List β) (l : List α) :
    forM (l.flatMap g) f = forM l fun a => forM (g a) f := by
  induction l with
  | nil => rfl
  | cons a rest ih => rw [List.flatMap_cons, List.forM_append, List.forM_cons, ih]

/-- A call that also notes its argument, whether or not it raises. -/
def logged (f : α → EStateM ε σ Unit) (a : α) : EStateM ε (σ × List α) Unit := fun (s, log) =>
  match (f a).run s with
  | .ok _ t => .ok () (t, log ++ [a])
  | .error e t => .error e (t, log ++ [a])

def forgetLog : EStateM.Result ε (σ × List α) β → EStateM.Result ε σ β
  | .ok b (s, _) => .ok b s
  | .error e (s, _) => .error e s

/-- A computation of which something is observed, whether or not it raises. -/
def observed {ω : Type} (events : List ω) (x : EStateM ε σ α) : EStateM ε (σ × List ω) α := fun (s, log) =>
  match x.run s with
  | .ok a t => .ok a (t, log ++ events)
  | .error e t => .error e (t, log ++ events)

theorem logged_eq (f : α → EStateM ε σ Unit) (a : α) : logged f a = observed [a] (f a) := by
  funext state
  simp only [logged, observed, EStateM.run]
  cases f a state.1 <;> rfl

theorem observed_run_ok {ω : Type} {x : EStateM ε σ α} {s t : σ} {a : α} (run : x.run s = .ok a t)
    (events log : List ω) : (observed events x).run (s, log) = .ok a (t, log ++ events) := by
  simp only [EStateM.run, observed]
  rw [show x s = .ok a t from run]

theorem observed_run_error {ω : Type} {x : EStateM ε σ α} {s t : σ} {e : ε} (run : x.run s = .error e t)
    (events log : List ω) : (observed events x).run (s, log) = .error e (t, log ++ events) := by
  simp only [EStateM.run, observed]
  rw [show x s = .error e t from run]

theorem observed_keeps {ω : Type} {inv : σ × List ω → Prop} {events : List ω} {x : EStateM ε σ α}
    (each : ∀ s log, inv (s, log) → inv (finalState (x.run s), log ++ events)) :
    Keeps inv (observed events x) := by
  rintro ⟨s, log⟩ start
  have next := each s log start
  simp only [EStateM.run, observed] at next ⊢
  cases run : x s with
  | ok a t =>
    rw [run] at next
    exact next
  | error e t =>
    rw [run] at next
    exact next

/-- The first computation is the second one with observations. -/
def Forgets {ω : Type} (y : EStateM ε (σ × List ω) α) (x : EStateM ε σ α) : Prop :=
  ∀ s log, forgetLog (y.run (s, log)) = x.run s

namespace Forgets
variable {ω : Type}

theorem observed (events : List ω) (x : EStateM ε σ α) : Forgets (observed events x) x := by
  intro s log
  simp only [EStateM.run, SimpleCdn.observed]
  cases x s <;> rfl

theorem pure (a : α) : Forgets (Pure.pure a : EStateM ε (σ × List ω) α) (Pure.pure a) := fun _ _ => rfl

theorem throw (e : ε) :
    Forgets (MonadExcept.throw e : EStateM ε (σ × List ω) α) (MonadExcept.throw e) := fun _ _ => rfl

theorem bind {y : EStateM ε (σ × List ω) α} {x : EStateM ε σ α} {g : α → EStateM ε (σ × List ω) β}
    {f : α → EStateM ε σ β} (first : Forgets y x) (rest : ∀ a, Forgets (g a) (f a)) :
    Forgets (y >>= g) (x >>= f) := by
  intro s log
  rw [EStateM.run_bind, EStateM.run_bind, ← first s log]
  cases y.run (s, log) with
  | ok a t => exact rest a t.1 t.2
  | error e t => rfl

theorem forM {g : α → EStateM ε (σ × List ω) Unit} {f : α → EStateM ε σ Unit} {l : List α}
    (each : ∀ a ∈ l, Forgets (g a) (f a)) : Forgets (ForM.forM l g) (ForM.forM l f) := by
  induction l with
  | nil => exact Forgets.pure ()
  | cons a rest ih =>
    exact Forgets.bind (each a (List.mem_cons_self ..))
      fun _ => ih fun b member => each b (List.mem_cons_of_mem a member)

/-- Both end in the same state, the one with the observations made on the way. -/
theorem finalState {y : EStateM ε (σ × List ω) α} {x : EStateM ε σ α} (forgets : Forgets y x) (s : σ)
    (log : List ω) : (SimpleCdn.finalState (y.run (s, log))).1 = SimpleCdn.finalState (x.run s) := by
  rw [← forgets s log]
  cases y.run (s, log) <;> rfl

end Forgets

section Minimum
variable [LinearOrder β]

/-- The scan behind a minimum with an effectful key. The key is computed once
per item, left to right, and an item replaces the best one only when its key
is strictly smaller. -/
def minLoop (key : α → EStateM ε σ β) : List α → α × β → EStateM ε σ α
  | [], best => pure best.1
  | item :: rest, best => do
    let value ← key item
    minLoop key rest (if value < best.2 then (item, value) else best)

def minByKey (key : α → EStateM ε σ β) : List α → EStateM ε σ (Option α)
  | [] => pure none
  | item :: rest => do
    let value ← key item
    some <$> minLoop key rest (item, value)

theorem minLoop_run {key : α → EStateM ε σ β} {f : α → β} {s : σ} {l : List α}
    (pureKey : ∀ a ∈ l, (key a).run s = .ok (f a) s) (best : α) :
    (some <$> minLoop key l (best, f best)).run s =
      .ok (l.foldl (List.argAux fun b c => f b < f c) (some best)) s := by
  induction l generalizing best with
  | nil => rfl
  | cons item rest ih =>
    have restKey := fun a member => pureKey a (List.mem_cons_of_mem item member)
    have here := pureKey item (List.mem_cons_self ..)
    rw [minLoop, map_bind, EStateM.run_bind, here, List.foldl_cons]
    by_cases smaller : f item < f best
    · simpa only [smaller, if_true, List.argAux] using ih restKey item
    · simpa only [smaller, if_false, List.argAux] using ih restKey best

/-- When the keys can be computed without changing the state, the result is
the first item of least key. -/
theorem minByKey_run {key : α → EStateM ε σ β} {f : α → β} {s : σ} {l : List α}
    (pureKey : ∀ a ∈ l, (key a).run s = .ok (f a) s) :
    (minByKey key l).run s = .ok (l.argmin f) s := by
  cases l with
  | nil => rfl
  | cons item rest =>
    rw [minByKey, EStateM.run_bind, pureKey item (List.mem_cons_self ..)]
    exact minLoop_run (fun a member => pureKey a (List.mem_cons_of_mem item member)) item

/-- The key of every item is computed, so a minimum returns only if all keys do. -/
theorem minLoop_returns {key : α → EStateM ε σ β} {s : σ} {l : List α} {best : α × β}
    (reads : ∀ a ∈ l, ∀ v t, (key a).run s = .ok v t → t = s) (returns : Returns (minLoop key l best) s) :
    ∀ a ∈ l, Returns (key a) s := by
  induction l generalizing best with
  | nil =>
    intro a member
    cases member
  | cons item rest ih =>
    obtain ⟨value, t, run, later⟩ := returns_bind_iff.mp returns
    cases reads item (List.mem_cons_self ..) value t run
    have others := ih (fun a member => reads a (List.mem_cons_of_mem item member)) later
    exact List.forall_mem_cons.mpr ⟨⟨value, _, run⟩, others⟩

theorem minByKey_returns {key : α → EStateM ε σ β} {s : σ} {l : List α}
    (reads : ∀ a ∈ l, ∀ v t, (key a).run s = .ok v t → t = s) (returns : Returns (minByKey key l) s) :
    ∀ a ∈ l, Returns (key a) s := by
  cases l with
  | nil =>
    intro a member
    cases member
  | cons item rest =>
    obtain ⟨value, t, run, later⟩ := returns_bind_iff.mp returns
    cases reads item (List.mem_cons_self ..) value t run
    have looped : Returns (minLoop key rest (item, value)) s := by
      rw [map_eq_pure_bind, returns_bind_iff] at later
      obtain ⟨a, u, ran, _⟩ := later
      exact ⟨a, u, ran⟩
    have others := minLoop_returns (fun a member => reads a (List.mem_cons_of_mem item member)) looped
    exact List.forall_mem_cons.mpr ⟨⟨value, _, run⟩, others⟩

theorem minLoop_keeps {inv : σ → Prop} {key : α → EStateM ε σ β} (each : ∀ a, Keeps inv (key a))
    (l : List α) (best : α × β) : Keeps inv (minLoop key l best) := by
  induction l generalizing best with
  | nil => exact Keeps.pure best.1
  | cons item rest ih => exact Keeps.bind (each item) fun value => ih _

theorem minByKey_keeps {inv : σ → Prop} {key : α → EStateM ε σ β} (each : ∀ a, Keeps inv (key a))
    (l : List α) : Keeps inv (minByKey key l) := by
  cases l with
  | nil => exact Keeps.pure none
  | cons item rest =>
    refine Keeps.bind (each item) fun value => ?_
    rw [map_eq_pure_bind]
    exact Keeps.bind (minLoop_keeps each rest _) fun least => Keeps.pure _

/-- Where the key of the next item can always be computed, the scan reaches its
end. What holds before a step may depend on the items that are left. -/
theorem minLoop_reaches {P : List α → σ → Prop} {key : α → EStateM ε σ β}
    (each : ∀ a rest s, P (a :: rest) s → ∃ value t, (key a).run s = .ok value t ∧ P rest t) {l : List α}
    {s : σ}
    (start : P l s) (best : α × β) : ∃ least t, (minLoop key l best).run s = .ok least t ∧ P [] t := by
  induction l generalizing s best with
  | nil => exact ⟨best.1, s, rfl, start⟩
  | cons item rest ih =>
    obtain ⟨value, t, run, next⟩ := each item rest s start
    rw [minLoop, EStateM.run_bind, run]
    exact ih next _

theorem minByKey_reaches {P : List α → σ → Prop} {key : α → EStateM ε σ β}
    (each : ∀ a rest s, P (a :: rest) s → ∃ value t, (key a).run s = .ok value t ∧ P rest t) {l : List α}
    {s : σ}
    (start : P l s) : ∃ least t, (minByKey key l).run s = .ok least t ∧ P [] t := by
  cases l with
  | nil => exact ⟨none, s, rfl, start⟩
  | cons item rest =>
    obtain ⟨value, t, run, next⟩ := each item rest s start
    obtain ⟨least, u, looped, final⟩ := minLoop_reaches each next (item, value)
    refine ⟨some least, u, ?_, final⟩
    rw [minByKey, EStateM.run_bind, run]
    show (some <$> minLoop key rest (item, value)).run t = _
    rw [map_eq_pure_bind, EStateM.run_bind, looped]
    rfl

theorem minLoop_mem {key : α → EStateM ε σ β} {l : List α} {best : α × β} {s t : σ} {least : α}
    (run : (minLoop key l best).run s = .ok least t) : least = best.1 ∨ least ∈ l := by
  induction l generalizing best s with
  | nil =>
    cases run
    exact Or.inl rfl
  | cons item rest ih =>
    obtain ⟨value, u, _, looped⟩ := bind_run_eq_ok.mp run
    rcases ih looped with same | later
    · by_cases smaller : value < best.2
      · rw [if_pos smaller] at same
        exact Or.inr (same ▸ List.mem_cons_self ..)
      · rw [if_neg smaller] at same
        exact Or.inl same
    · exact Or.inr (List.mem_cons_of_mem item later)

/-- A minimum is one of the items, whatever the keys do. -/
theorem minByKey_mem {key : α → EStateM ε σ β} {l : List α} {s t : σ} {least : α}
    (run : (minByKey key l).run s = .ok (some least) t) : least ∈ l := by
  cases l with
  | nil => cases run
  | cons item rest =>
    obtain ⟨value, u, _, scanned⟩ := bind_run_eq_ok.mp run
    rw [map_eq_pure_bind] at scanned
    obtain ⟨found, v, looped, ends⟩ := bind_run_eq_ok.mp scanned
    cases ends
    exact List.mem_cons.mpr (minLoop_mem looped)

namespace Forgets
variable {ω : Type} {noisy : α → EStateM ε (σ × List ω) β} {key : α → EStateM ε σ β}

theorem minLoop (each : ∀ a, Forgets (noisy a) (key a)) (l : List α) (best : α × β) :
    Forgets (minLoop noisy l best) (minLoop key l best) := by
  induction l generalizing best with
  | nil => exact Forgets.pure best.1
  | cons item rest ih => exact Forgets.bind (each item) fun value => ih _

theorem minByKey (each : ∀ a, Forgets (noisy a) (key a)) {l : List α} :
    Forgets (minByKey noisy l) (minByKey key l) := by
  cases l with
  | nil => exact Forgets.pure none
  | cons item rest =>
    refine Forgets.bind (each item) fun value => ?_
    rw [map_eq_pure_bind, map_eq_pure_bind]
    exact Forgets.bind (Forgets.minLoop each rest _) fun least => Forgets.pure _

end Forgets

end Minimum

end SimpleCdn
