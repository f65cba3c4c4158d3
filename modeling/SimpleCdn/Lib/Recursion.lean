import Mathlib.Data.Finset.Card
import Mathlib.Data.Finset.Range
import Mathlib.Tactic.Set

namespace SimpleCdn

section Outcomes
variable {ε α β : Type}

@[simp] theorem ok_bind (value : α) (next : α → Except ε β) :
    ((.ok value : Except ε α) >>= next) = next value := rfl

theorem bind_eq_ok {first : Except ε α} {next : α → Except ε β} {result : β} :
    (first >>= next) = .ok result ↔ ∃ value, first = .ok value ∧ next value = .ok result := by
  cases first with
  | error raised => exact ⟨nofun, nofun⟩
  | ok value => exact ⟨fun run => ⟨value, rfl, run⟩, fun ⟨_, same, run⟩ => by cases same; exact run⟩

end Outcomes

section Recursion
variable {ε ι α β γ : Type} (limit : ε)

/-- Where the first procedure does not fail at the recursion limit, the second
does the same. -/
def Extends (f g : ι → Except ε α) : Prop := ∀ x, f x ≠ .error limit → g x = f x

/-- A computation that calls a procedure, one call after another. It does the
same with a procedure that gets further. If it fails at the limit then because
one call does, and for as long as that one does. -/
structure Sequential (run : (ι → Except ε α) → Except ε β) : Prop where
  agrees : ∀ f g, Extends limit f g → run f ≠ .error limit → run g = run f
  blames : ∀ f, run f = .error limit → ∃ x, f x = .error limit ∧
    ∀ g, Extends limit f g → g x = .error limit → run g = .error limit

variable {limit}

theorem bind_off {first : Except ε β} {next : β → Except ε γ} (off : first ≠ .error limit)
    (rest : ∀ value, next value ≠ .error limit) : (first >>= next) ≠ .error limit := by
  cases first with
  | error raised => exact fun met => off (by cases met; rfl)
  | ok value => exact rest value

theorem Sequential.const {outcome : Except ε β} (off : outcome ≠ .error limit) :
    Sequential limit (fun _ : ι → Except ε α => outcome) :=
  ⟨fun _ _ _ _ => rfl, fun _ met => absurd met off⟩

theorem Sequential.call (x : ι) : Sequential limit (fun f : ι → Except ε α => f x) :=
  ⟨fun _ _ more => more x, fun _ met => ⟨x, met, fun _ _ still => still⟩⟩

theorem Sequential.bind {first : (ι → Except ε α) → Except ε β}
    {next : β → (ι → Except ε α) → Except ε γ}
    (sequential : Sequential limit first) (rest : ∀ value, Sequential limit (next value)) :
    Sequential limit (fun f => first f >>= fun value => next value f) := by
  constructor
  · intro f g more off
    cases run : first f with
    | error raised =>
      have other : first f ≠ .error limit := by
        intro met
        apply off
        rw [met]
        rfl
      show first g >>= _ = _
      rw [sequential.agrees f g more other, run]
      rfl
    | ok value =>
      have same := sequential.agrees f g more (by rw [run]; exact nofun)
      rw [run] at off
      show first g >>= _ = _
      rw [same, run]
      exact (rest value).agrees f g more off
  · intro f met
    cases run : first f with
    | error raised =>
      rw [run] at met
      cases met
      obtain ⟨x, called, still⟩ := sequential.blames f run
      refine ⟨x, called, fun g more again => ?_⟩
      show first g >>= _ = _
      rw [still g more again]
      rfl
    | ok value =>
      rw [run] at met
      obtain ⟨x, called, still⟩ := (rest value).blames f met
      refine ⟨x, called, fun g more again => ?_⟩
      have same := sequential.agrees f g more (by rw [run]; exact nofun)
      show first g >>= _ = _
      rw [same, run]
      exact still g more again

variable (limit) (body : (ι → Except ε α) → ι → Except ε α)

/-- A recursive procedure, by its body, when so many nested calls are allowed. -/
def recurse : Nat → ι → Except ε α
  | 0, _ => .error limit
  | depth + 1, x => body (recurse depth) x

variable {limit body} (sequential : ∀ x, Sequential limit fun f => body f x)
include sequential

theorem recurse_extends {depth deeper : Nat} (le : depth ≤ deeper) :
    Extends limit (recurse limit body depth) (recurse limit body deeper) := by
  induction depth generalizing deeper with
  | zero => exact fun x off => absurd rfl off
  | succ depth ih =>
    cases deeper with
    | zero => omega
    | succ deeper => exact fun x off => (sequential x).agrees _ _ (ih (by omega)) off

/-- Calls nested one in another, each of which fails for as long as the next one
does. -/
theorem exists_chain {depth : Nat} {x : ι} (met : recurse limit body depth x = .error limit) :
    ∃ chain : Nat → ι, chain 0 = x ∧ ∀ i < depth, recurse limit body (depth - i) (chain i) = .error limit ∧
      ∀ g, Extends limit (recurse limit body (depth - i - 1)) g → g (chain (i + 1)) = .error limit →
        body g (chain i) = .error limit := by
  induction depth generalizing x with
  | zero => exact ⟨fun _ => x, rfl, fun i below => absurd below (Nat.not_lt_zero i)⟩
  | succ depth ih =>
    obtain ⟨y, called, still⟩ := (sequential x).blames _ met
    obtain ⟨chain, first, links⟩ := ih called
    refine ⟨fun i => i.casesOn x chain, rfl, fun i below => ?_⟩
    cases i with
    | zero =>
      refine ⟨met, fun g more again => still g more ?_⟩
      rwa [← first]
    | succ i =>
      have link := links i (by omega)
      rwa [← Nat.add_sub_add_right depth 1 i] at link

variable {arguments : Finset ι} (outside : ∀ x ∉ arguments, ∀ f, body f x ≠ .error limit)
include outside

/-- A chain of more calls than there are arguments comes back to one of them, and
then it never ends. -/
theorem recurse_forever {depth : Nat} (more : arguments.card < depth) {x : ι}
    (met : recurse limit body depth x = .error limit) (deeper : Nat) :
    recurse limit body deeper x = .error limit := by
  obtain ⟨chain, first, links⟩ := exists_chain sequential met
  have inside : ∀ i ∈ Finset.range depth, chain i ∈ arguments := by
    intro i below
    by_contra out
    have link := (links i (Finset.mem_range.mp below)).1
    have below := Finset.mem_range.mp below
    rw [show depth - i = depth - i - 1 + 1 by omega] at link
    exact outside _ out _ link
  obtain ⟨i, belowI, j, belowJ, other, same⟩ := Finset.exists_ne_map_eq_of_card_lt_of_maps_to
    (by rwa [Finset.card_range]) inside
  obtain ⟨i, j, lt, belowJ, same⟩ : ∃ i j, i < j ∧ j < depth ∧ chain i = chain j := by
    rcases Nat.lt_or_gt_of_ne other with lt | gt
    · exact ⟨i, j, lt, Finset.mem_range.mp belowJ, same⟩
    · exact ⟨j, i, gt, Finset.mem_range.mp belowI, same.symm⟩
  have all : ∀ k ≤ j, recurse limit body deeper (chain k) = .error limit := by
    clear met first
    induction deeper with
    | zero => exact fun _ _ => rfl
    | succ deeper ih =>
      have before : ∀ k < j, recurse limit body (deeper + 1) (chain k) = .error limit := by
        intro k below
        obtain ⟨link, still⟩ := links k (by omega)
        by_cases far : depth - k ≤ deeper + 1
        · exact still _ (recurse_extends sequential (by omega)) (ih (k + 1) below)
        · by_contra off
          exact off ((recurse_extends sequential (by omega) _ off).symm.trans link)
      intro k le
      rcases Nat.lt_or_eq_of_le le with below | last
      · exact before k below
      · rw [last, ← same]
        exact before i lt
  rw [← first]
  exact all 0 (Nat.zero_le j)

/-- So the limit makes no difference once it is above the number of arguments. -/
theorem recurse_of_card_lt {depth deeper : Nat} (more : arguments.card < depth) (le : depth ≤ deeper) (x : ι) :
    recurse limit body deeper x = recurse limit body depth x := by
  by_cases met : recurse limit body depth x = .error limit
  · rw [met, recurse_forever sequential outside more met]
  · exact recurse_extends sequential le x met

end Recursion

end SimpleCdn
