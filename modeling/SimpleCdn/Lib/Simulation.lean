import SimpleCdn.Lib.Memo

namespace SimpleCdn
variable {ε ε' σ τ α β : Type} {same : ε → ε' → Prop} {rel : σ → τ → Prop}

/-- The same value, or exceptions that correspond. -/
def Alike (same : ε → ε' → Prop) : Except ε α → Except ε' α → Prop
  | .ok value, .ok other => value = other
  | .error raised, .error other => same raised other
  | _, _ => False

theorem Alike.bind {x : Except ε α} {y : Except ε' α} {f : α → Except ε β} {g : α → Except ε' β}
    (first : Alike same x y) (rest : ∀ value, Alike same (f value) (g value)) : Alike same (x >>= f) (y >>= g) := by
  cases x with
  | ok value =>
    cases y with
    | ok other =>
      cases first
      exact rest value
    | error raised => exact first.elim
  | error raised =>
    cases y with
    | ok other => exact first.elim
    | error other => exact first

theorem Alike.refl {same : ε → ε → Prop} (each : ∀ raised, same raised raised) (x : Except ε α) :
    Alike same x x := by
  cases x with
  | ok value => exact rfl
  | error raised => exact each raised

section Zoom
variable (part : σ → τ) (put : σ → τ → σ) (wrap : ε → ε')

/-- A computation on a part of the state. -/
def zoom (call : EStateM ε τ α) : EStateM ε' σ α := fun s =>
  match call.run (part s) with
  | .ok value t => .ok value (put s t)
  | .error raised t => .error (wrap raised) (put s t)

theorem finalState_zoom (call : EStateM ε τ α) (s : σ) :
    finalState ((zoom part put wrap call).run s) = put s (finalState (call.run (part s))) := by
  show finalState (zoom part put wrap call s) = _
  unfold zoom
  cases call.run (part s) <;> rfl

end Zoom

/-- Where the states of two computations are related, they come to the same, and
in states that are related again. -/
def Follows (rel : σ → τ → Prop) (same : ε → ε' → Prop) (x : EStateM ε σ α) (y : EStateM ε' τ α) :
    Prop :=
  ∀ s t, rel s t → Alike same (outcome (x.run s)) (outcome (y.run t)) ∧
    rel (finalState (x.run s)) (finalState (y.run t))

/-- The state behind some calls, one after another. -/
def stateAfter (calls : List (EStateM ε σ α)) (s : σ) : σ :=
  calls.foldl (fun s call => finalState (call.run s)) s

theorem Keeps.stateAfter {inv : σ → Prop} {calls : List (EStateM ε σ α)}
    (each : ∀ call ∈ calls, Keeps inv call) {s : σ}
    (start : inv s) : inv (stateAfter calls s) := by
  induction calls generalizing s with
  | nil => exact start
  | cons call rest ih =>
    exact ih (fun other member => each other (List.mem_cons_of_mem call member))
      (each call (List.mem_cons_self ..) s start)

theorem outcomes_cons (call : EStateM ε σ α) (rest : List (EStateM ε σ α)) (s : σ) :
    outcomes (call :: rest) s = outcome (call.run s) :: outcomes rest (finalState (call.run s)) := by
  rw [outcomes]
  cases call.run s <;> rfl

namespace Follows

theorem pure (value : α) : Follows rel same (Pure.pure value) (Pure.pure value) := fun _ _ start => ⟨rfl, start⟩

theorem bind {x : EStateM ε σ α} {y : EStateM ε' τ α} {f : α → EStateM ε σ β}
    {g : α → EStateM ε' τ β}
    (first : Follows rel same x y) (rest : ∀ value, Follows rel same (f value) (g value)) :
    Follows rel same (x >>= f) (y >>= g) := by
  intro s t start
  obtain ⟨alike, related⟩ := first s t start
  rw [EStateM.run_bind, EStateM.run_bind]
  cases left : x.run s with
  | ok value s' =>
    cases right : y.run t with
    | ok other t' =>
      rw [left, right] at alike related
      cases alike
      exact rest value s' t' related
    | error other t' =>
      rw [left, right] at alike
      exact alike.elim
  | error raised s' =>
    cases right : y.run t with
    | ok other t' =>
      rw [left, right] at alike
      exact alike.elim
    | error other t' =>
      rw [left, right] at alike related
      exact ⟨alike, related⟩

section Minimum
variable [LinearOrder β] {key : α → EStateM ε σ β} {key' : α → EStateM ε' τ β} {l : List α}

theorem minLoop (each : ∀ a ∈ l, Follows rel same (key a) (key' a)) (best : α × β) :
    Follows rel same (SimpleCdn.minLoop key l best) (SimpleCdn.minLoop key' l best) := by
  induction l generalizing best with
  | nil => exact Follows.pure best.1
  | cons item rest ih =>
    exact Follows.bind (each item (List.mem_cons_self ..))
      fun value => ih (fun a member => each a (List.mem_cons_of_mem item member)) _

theorem minByKey (each : ∀ a ∈ l, Follows rel same (key a) (key' a)) :
    Follows rel same (SimpleCdn.minByKey key l) (SimpleCdn.minByKey key' l) := by
  cases l with
  | nil => exact Follows.pure none
  | cons item rest =>
    refine Follows.bind (each item (List.mem_cons_self ..)) fun value => ?_
    rw [map_eq_pure_bind, map_eq_pure_bind]
    refine Follows.bind (Follows.minLoop (fun a member => each a (List.mem_cons_of_mem item member)) _) fun least =>
      ?_
    exact Follows.pure _

end Minimum

/-- One run follows another when each call does. -/
theorem calls {ι : Type} {x : ι → EStateM ε σ α} {y : ι → EStateM ε' τ α} {order : List ι}
    (each : ∀ i ∈ order, Follows rel same (x i) (y i)) {s : σ} {t : τ} (start : rel s t) :
    List.Forall₂ (Alike same) (outcomes (order.map x) s) (outcomes (order.map y) t) ∧
      rel (stateAfter (order.map x) s) (stateAfter (order.map y) t) := by
  induction order generalizing s t with
  | nil => exact ⟨.nil, start⟩
  | cons i rest ih =>
    obtain ⟨alike, related⟩ := each i (List.mem_cons_self ..) s t start
    obtain ⟨others, final⟩ := ih (fun j member => each j (List.mem_cons_of_mem i member)) related
    rw [List.map_cons, List.map_cons, outcomes_cons, outcomes_cons]
    exact ⟨.cons alike others, final⟩

end Follows

end SimpleCdn
