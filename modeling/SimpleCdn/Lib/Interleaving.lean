import Mathlib.Algebra.BigOperators.Group.Finset.Basic
import Mathlib.Logic.Relation

namespace SimpleCdn
variable {ι σ τ : Type} [DecidableEq ι]

/-- Tasks that run over one shared state. Each task keeps its own control state. -/
structure Pool (ι σ τ : Type) where
  shared : σ
  task : ι → τ

namespace Pool

def advance (p : Pool ι σ τ) (i : ι) (s : σ) (t : τ) : Pool ι σ τ := ⟨s, Function.update p.task i t⟩

@[simp] theorem advance_shared (p : Pool ι σ τ) (i : ι) (s : σ) (t : τ) :
    (p.advance i s t).shared = s := rfl

@[simp] theorem advance_self (p : Pool ι σ τ) (i : ι) (s : σ) (t : τ) :
    (p.advance i s t).task i = t := Function.update_self ..

theorem advance_other (p : Pool ι σ τ) {i j : ι} (s : σ) (t : τ) (other : j ≠ i) :
    (p.advance i s t).task j = p.task j := Function.update_of_ne other ..

/-- The pools that some interleaving reaches. A task may be scheduled in a
pool only where `allowed` says so; the unrestricted runs allow everything. -/
inductive Reach (step : σ → τ → σ → τ → Prop) (allowed : Pool ι σ τ → ι → Prop)
    (initial : Pool ι σ τ) : Pool ι σ τ → Prop
  | start : Reach step allowed initial initial
  | next {p i s t} : Reach step allowed initial p → allowed p i →
      step p.shared (p.task i) s t → Reach step allowed initial (p.advance i s t)

def Free : Pool ι σ τ → ι → Prop := fun _ _ => True

variable {step : σ → τ → σ → τ → Prop} {allowed : Pool ι σ τ → ι → Prop}
  {initial p : Pool ι σ τ}

theorem Reach.invariant (inv : Pool ι σ τ → Prop) (reach : Reach step allowed initial p)
    (holds : inv initial)
    (preserved : ∀ q i s t, inv q → allowed q i → step q.shared (q.task i) s t → inv (q.advance i s t)) :
    inv p := by
  induction reach with
  | start => exact holds
  | next _ chosen taken ih => exact preserved _ _ _ _ ih chosen taken

theorem Reach.trans {q : Pool ι σ τ} (first : Reach step allowed initial p)
    (second : Reach step allowed p q) : Reach step allowed initial q := by
  induction second with
  | start => exact first
  | next _ chosen taken ih => exact .next ih chosen taken

theorem Reach.mono {step' : σ → τ → σ → τ → Prop} (reach : Reach step allowed initial p)
    (sub : ∀ s t s' t', step s t s' t' → step' s t s' t') : Reach step' allowed initial p := by
  induction reach with
  | start => exact .start
  | next _ chosen taken ih => exact .next ih chosen (sub _ _ _ _ taken)

/-- Invariants that split into one about the shared state and one about each
task over it. A step has to keep the first and its own task's, and must not
disturb the fact of any other task. -/
theorem Reach.indexed (shared : σ → Prop) (own : ι → σ → τ → Prop) (reach : Reach step allowed initial p)
    (sharedStart : shared initial.shared) (ownStart : ∀ i, own i initial.shared (initial.task i))
    (keeps : ∀ i s t s' t', shared s → own i s t → step s t s' t' → shared s' ∧ own i s' t')
    (stable : ∀ i j s t s' t' u, shared s → own i s t → step s t s' t' → own j s u → own j s' u) :
    shared p.shared ∧ ∀ i, own i p.shared (p.task i) := by
  refine Reach.invariant (fun q => shared q.shared ∧ ∀ i, own i q.shared (q.task i)) reach
    ⟨sharedStart, ownStart⟩ ?_
  rintro q i s t ⟨sharedHere, ownHere⟩ _ taken
  obtain ⟨sharedNext, ownNext⟩ := keeps i _ _ _ _ sharedHere (ownHere i) taken
  refine ⟨sharedNext, fun j => ?_⟩
  by_cases same : j = i
  · subst same
    simpa only [advance_shared, advance_self] using ownNext
  · rw [advance_other q s t same]
    exact stable i j _ _ _ _ _ sharedHere (ownHere i) taken (ownHere j)

/-- The same where the tasks need not be told apart. -/
theorem Reach.modular (shared : σ → Prop) (own : σ → τ → Prop) (reach : Reach step allowed initial p)
    (sharedStart : shared initial.shared) (ownStart : ∀ i, own initial.shared (initial.task i))
    (keeps : ∀ s t s' t', shared s → own s t → step s t s' t' → shared s' ∧ own s' t')
    (stable : ∀ s t s' t' u, shared s → own s t → step s t s' t' → own s u → own s' u) :
    shared p.shared ∧ ∀ i, own p.shared (p.task i) :=
  Reach.indexed shared (fun _ => own) reach sharedStart ownStart (fun _ => keeps) fun _ _ => stable

/-- A total over all tasks changes by what the scheduled task contributes. -/
theorem sum_advance [Fintype ι] {M : Type} [AddCommMonoid M] (f : τ → M) (p : Pool ι σ τ)
    (i : ι) (s : σ) (t : τ) :
    ∑ j, f ((p.advance i s t).task j) + f (p.task i) = ∑ j, f (p.task j) + f t := by
  have others : ∑ j ∈ Finset.univ.erase i, f ((p.advance i s t).task j) =
      ∑ j ∈ Finset.univ.erase i, f (p.task j) :=
    Finset.sum_congr rfl fun j member => by rw [advance_other p s t (Finset.ne_of_mem_erase member)]
  rw [← Finset.add_sum_erase _ _ (Finset.mem_univ i), ← Finset.add_sum_erase _ _ (Finset.mem_univ i),
    others, advance_self]
  ac_rfl

/-- A task that takes one step after the other, with no other task in between. -/
def Alone (next : σ → τ → Option (σ × τ)) : σ × τ → σ × τ → Prop :=
  Relation.ReflTransGen fun a b => next a.1 a.2 = some b

namespace Alone
variable {next : σ → τ → Option (σ × τ)} {a b c : σ × τ}

theorem single (taken : next a.1 a.2 = some b) : Alone next a b := Relation.ReflTransGen.single taken

theorem trans (first : Alone next a b) (second : Alone next b c) : Alone next a c :=
  Relation.ReflTransGen.trans first second

theorem tail (earlier : Alone next a b) (taken : next b.1 b.2 = some c) : Alone next a c :=
  Relation.ReflTransGen.tail earlier taken

/-- A task that is wrapped takes the same steps. -/
theorem wrapped {τ' : Type} (next' : σ → τ' → Option (σ × τ')) (wrap : τ → τ')
    (same : ∀ s t, next' s (wrap t) = (next s t).map fun after => (after.1, wrap after.2))
    (alone : Alone next a b) :
    Alone next' (a.1, wrap a.2) (b.1, wrap b.2) := by
  refine Relation.ReflTransGen.lift (fun state => (state.1, wrap state.2)) (fun before after taken => ?_) _ _ alone
  show next' before.1 (wrap before.2) = some (after.1, wrap after.2)
  rw [same, taken]
  rfl

end Alone

theorem Alone.reach {next : σ → τ → Option (σ × τ)} {i : ι} {t : τ} {last : σ × τ}
    (alone : Alone next (p.shared, t) last) (scheduled : p.task i = t) :
    Reach (fun s t s' t' => next s t = some (s', t')) Free p (p.advance i last.1 last.2) := by
  induction alone with
  | refl =>
    have same : p.advance i p.shared t = p := by
      rw [advance, ← scheduled, Function.update_eq_self]
    rw [same]
    exact .start
  | @tail middle last _ taken ih =>
    have step := ih.next (i := i) (s := last.1) (t := last.2) trivial (by rwa [advance_self])
    rwa [advance, advance, Function.update_idem] at step

/-- Tasks that run one after the other, each to its end. What a task that runs
alone makes of the state it finds is all that there is to know about each. -/
theorem Alone.in_turn {next : σ → τ → Option (σ × τ)} (shows : σ → List ι → Prop)
    (ends : List ι → ι → τ → Prop)
    (start : shows initial.shared [])
    (each : ∀ s order i, shows s order → ∃ s' t, Alone next (s, initial.task i) (s', t) ∧
      shows s' (order ++ [i]) ∧ ends order i t)
    {order : List ι} (once : order.Nodup) :
    ∃ q, Reach (fun s t s' t' => next s t = some (s', t')) Free initial q ∧ shows q.shared order ∧
      (∀ earlier i later, order = earlier ++ i :: later → ends earlier i (q.task i)) ∧
      ∀ i ∉ order, q.task i = initial.task i := by
  induction order using List.reverseRecOn with
  | nil =>
    refine ⟨initial, .start, start, fun earlier i later split => ?_, fun i _ => rfl⟩
    simp at split
  | append_singleton before last ih =>
    obtain ⟨onceBefore, _, apart⟩ := List.nodup_append.mp once
    have new : last ∉ before := fun member => apart last member last (List.mem_singleton_self last) rfl
    obtain ⟨q, reach, shown, ended, waiting⟩ := ih onceBefore
    obtain ⟨s, t, alone, shownNext, endedNext⟩ := each q.shared before last shown
    have reached := Alone.reach alone (waiting last new)
    refine ⟨q.advance last s t, reach.trans reached, shownNext, fun earlier i later split => ?_,
      fun i absent => ?_⟩
    · rcases List.eq_nil_or_concat later with rfl | ⟨middle, other, rfl⟩
      · obtain ⟨same, here⟩ := List.append_inj' split rfl
        cases here
        rw [advance_self, ← same]
        exact endedNext
      · rw [List.concat_eq_append, ← List.cons_append, ← List.append_assoc] at split
        obtain ⟨same, _⟩ := List.append_inj' split rfl
        have old : i ≠ last := by
          rintro rfl
          exact new (by simp [same])
        rw [advance_other q s t old]
        exact ended earlier i middle same
    · have old : i ≠ last := fun same => absent (by simp [same])
      rw [advance_other q s t old]
      exact waiting i fun member => absent (List.mem_append_left _ member)

section Schedules
variable (next : σ → τ → Option (σ × τ)) (allowed : Pool ι σ τ → ι → Prop)
  [∀ p i, Decidable (allowed p i)]

/-- Run the tasks of a schedule one after the other, each for one step, as long
as every choice is allowed. -/
def runSchedule : Pool ι σ τ → List ι → Option (Pool ι σ τ)
  | p, [] => some p
  | p, i :: rest =>
    if allowed p i then
      (next p.shared (p.task i)).bind fun (s, t) => runSchedule (p.advance i s t) rest
    else none

variable {next allowed}

theorem runSchedule_reach {q : Pool ι σ τ} {schedule : List ι}
    (run : runSchedule next allowed p schedule = some q) :
    Reach (fun s t s' t' => next s t = some (s', t')) allowed p q := by
  induction schedule generalizing p with
  | nil =>
    cases Option.some.inj run
    exact .start
  | cons i rest ih =>
    rw [runSchedule] at run
    split at run
    · rename_i chosen
      obtain ⟨⟨s, t⟩, taken, run⟩ := Option.bind_eq_some_iff.mp run
      exact Reach.trans (.next .start chosen taken) (ih run)
    · cases run

instance (p : Pool ι σ τ) (i : ι) : Decidable (Free p i) := inferInstanceAs (Decidable True)

end Schedules

end Pool

end SimpleCdn
