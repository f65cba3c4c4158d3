import SimpleCdn.Lib.Recursion
import Mathlib.Data.List.Infix

namespace SimpleCdn

section Walk
variable {ε σ : Type} (step : σ → Bool → Except ε σ) (inner : σ → Bool)

/-- Follow some bits for as long as the state is an inner one: the last state,
and how many bits were followed. -/
def walk : List Bool → σ → Except ε (σ × Nat)
  | [], s => .ok (s, 0)
  | bit :: bits, s =>
    if inner s then
      step s bit >>= fun next => walk bits next >>= fun found => .ok (found.1, found.2 + 1)
    else .ok (s, 0)

variable {step inner} {bits : List Bool} {s last : σ} {n : Nat}

theorem walk_of_inner (isInner : inner s = true) (bit : Bool) (bits : List Bool) :
    walk step inner (bit :: bits) s =
      step s bit >>= fun next => walk step inner bits next >>= fun found => .ok (found.1, found.2 + 1) := by
  rw [walk, if_pos isInner]

theorem walk_cons_eq_ok {bit : Bool} (isInner : inner s = true) :
    walk step inner (bit :: bits) s = .ok (last, n) ↔
      ∃ next m, step s bit = .ok next ∧ walk step inner bits next = .ok (last, m) ∧ m + 1 = n := by
  rw [walk_of_inner isInner]
  constructor
  · intro run
    obtain ⟨next, first, run⟩ := bind_eq_ok.mp run
    obtain ⟨⟨end', m⟩, rest, run⟩ := bind_eq_ok.mp run
    cases run
    exact ⟨next, m, first, rest, rfl⟩
  · rintro ⟨next, m, first, rest, rfl⟩
    rw [first, ok_bind, rest, ok_bind]

theorem walk_of_not_inner (stopped : inner s = false) (bits : List Bool) : walk step inner bits s = .ok (s, 0) := by
  cases bits with
  | nil => rfl
  | cons bit bits => rw [walk, stopped]; rfl

theorem walk_le (run : walk step inner bits s = .ok (last, n)) : n ≤ bits.length := by
  induction bits generalizing s n with
  | nil => cases run; exact le_rfl
  | cons bit bits ih =>
    by_cases isInner : inner s = true
    · obtain ⟨next, m, _, rest, rfl⟩ := (walk_cons_eq_ok isInner).mp run
      exact Nat.succ_le_succ (ih rest)
    · rw [walk_of_not_inner (Bool.eq_false_of_not_eq_true isInner)] at run
      cases run
      exact Nat.zero_le _

/-- The walk only stops early at a state that is not an inner one. -/
theorem walk_stopped (run : walk step inner bits s = .ok (last, n)) (early : n < bits.length) :
    inner last = false := by
  induction bits generalizing s n with
  | nil => exact absurd early (Nat.not_lt_zero n)
  | cons bit bits ih =>
    by_cases isInner : inner s = true
    · obtain ⟨next, m, _, rest, rfl⟩ := (walk_cons_eq_ok isInner).mp run
      exact ih rest (Nat.lt_of_succ_lt_succ early)
    · have stopped := Bool.eq_false_of_not_eq_true isInner
      rw [walk_of_not_inner stopped] at run
      cases run
      exact stopped

/-- The bits behind the followed ones make no difference. -/
theorem walk_congr (run : walk step inner bits s = .ok (last, n)) {other : List Bool}
    (length : other.length = bits.length) (same : other.take n = bits.take n) :
    walk step inner other s = .ok (last, n) := by
  induction bits generalizing s n other with
  | nil =>
    rw [List.length_eq_zero_iff.mp length]
    exact run
  | cons bit bits ih =>
    cases other with
    | nil => exact absurd length (Nat.succ_ne_zero _).symm
    | cons bit' other =>
      by_cases isInner : inner s = true
      · obtain ⟨next, m, first, rest, rfl⟩ := (walk_cons_eq_ok isInner).mp run
        rw [List.take_succ_cons, List.take_succ_cons, List.cons.injEq] at same
        rw [same.1]
        exact (walk_cons_eq_ok isInner).mpr ⟨next, m, first, ih rest (Nat.succ.inj length) same.2, rfl⟩
      · have stopped := Bool.eq_false_of_not_eq_true isInner
        rw [walk_of_not_inner stopped] at run ⊢
        exact run

/-- A walk goes on where a first part of it ends. -/
theorem walk_append (front back : List Bool) (s : σ) :
    walk step inner (front ++ back) s = walk step inner front s >>= fun found =>
      if inner found.1 then walk step inner back found.1 >>= fun rest => .ok (rest.1, found.2 + rest.2)
      else .ok found := by
  induction front generalizing s with
  | nil =>
    by_cases isInner : inner s = true
    · simp only [List.nil_append, walk, ok_bind, isInner, if_true, Nat.zero_add]
      cases walk step inner back s <;> rfl
    · have stopped := Bool.eq_false_of_not_eq_true isInner
      rw [List.nil_append, walk_of_not_inner stopped, walk, ok_bind, if_neg isInner]
  | cons bit front ih =>
    by_cases isInner : inner s = true
    · rw [List.cons_append, walk_of_inner isInner, walk_of_inner isInner]
      cases step s bit with
      | error raised => rfl
      | ok next =>
        simp only [ok_bind, ih]
        cases walk step inner front next with
        | error raised => rfl
        | ok found =>
          simp only [ok_bind]
          by_cases deeper : inner found.1 = true
          · simp only [deeper, if_true]
            cases walk step inner back found.1 with
            | error raised => rfl
            | ok rest => simp only [ok_bind, Nat.add_right_comm]
          · simp only [deeper, if_false, ok_bind, Bool.false_eq_true]
    · have stopped := Bool.eq_false_of_not_eq_true isInner
      rw [walk_of_not_inner stopped, walk_of_not_inner stopped, ok_bind, if_neg isInner]

end Walk

/-- A binary trie: what is found for the bit strings with some prefix. -/
inductive Trie (α : Type)
  | empty
  | leaf (value : α)
  | node (zero one : Trie α)

namespace Trie
variable {α : Type}

/-- What is found along some bits, and how many of them decide it. There is
nothing where the bits end at an inner node. -/
def lookup : Trie α → List Bool → Option (Option α × Nat)
  | .empty, _ => some (none, 0)
  | .leaf value, _ => some (some value, 0)
  | .node _ _, [] => none
  | .node zero one, bit :: bits => (lookup (if bit then one else zero) bits).map fun found => (found.1, found.2 + 1)

/-- The prefixes of a trie, with what is found below each. -/
def networks : Trie α → List (List Bool × Option α)
  | .empty => [([], none)]
  | .leaf value => [([], some value)]
  | .node zero one =>
    zero.networks.map (fun network => (false :: network.1, network.2)) ++
      one.networks.map (fun network => (true :: network.1, network.2))

def height : Trie α → Nat
  | .node zero one => max zero.height one.height + 1
  | _ => 0

/-- Bits enough lead to an end. -/
theorem lookup_of_height_le {t : Trie α} {bits : List Bool} (long : t.height ≤ bits.length) :
    ∃ found n, t.lookup bits = some (found, n) := by
  induction t generalizing bits with
  | empty => exact ⟨none, 0, by rw [lookup]⟩
  | leaf value => exact ⟨some value, 0, by rw [lookup]⟩
  | node zero one ihZero ihOne =>
    cases bits with
    | nil => exact absurd long (Nat.not_succ_le_zero _)
    | cons bit bits =>
      have deep := max_le_iff.mp (Nat.le_of_succ_le_succ long)
      obtain ⟨found, n, below⟩ : ∃ found n, (if bit then one else zero).lookup bits = some (found, n) := by
        cases bit with
        | false => exact ihZero deep.1
        | true => exact ihOne deep.2
      exact ⟨found, n + 1, by rw [lookup, below]; rfl⟩

def nodes : Trie α → Nat
  | .node zero one => zero.nodes + one.nodes + 1
  | _ => 0

def values : Trie α → List α
  | .empty => []
  | .leaf value => [value]
  | .node zero one => zero.values ++ one.values

theorem cons_mem_networks_node {zero one : Trie α} {bit : Bool} {path : List Bool} {found : Option α} :
    (bit :: path, found) ∈ (node zero one).networks ↔ (path, found) ∈ (if bit then one else zero).networks := by
  cases bit <;> simp [networks]

/-- A lookup finds the network that contains the bits. -/
theorem lookup_eq_some_iff {t : Trie α} {bits : List Bool} {found : Option α} {n : Nat} :
    t.lookup bits = some (found, n) ↔ n ≤ bits.length ∧ (bits.take n, found) ∈ t.networks := by
  induction t generalizing bits n with
  | empty =>
    simp only [lookup, Option.some.injEq, Prod.mk.injEq, networks, List.mem_singleton]
    constructor
    · rintro ⟨rfl, rfl⟩
      exact ⟨Nat.zero_le _, List.take_zero, rfl⟩
    · rintro ⟨short, nothing, rfl⟩
      refine ⟨rfl, ?_⟩
      rcases List.take_eq_nil_iff.mp nothing with zero | rfl
      · exact zero.symm
      · exact (Nat.le_zero.mp short).symm
  | leaf value =>
    simp only [lookup, Option.some.injEq, Prod.mk.injEq, networks, List.mem_singleton]
    constructor
    · rintro ⟨rfl, rfl⟩
      exact ⟨Nat.zero_le _, List.take_zero, rfl⟩
    · rintro ⟨short, nothing, rfl⟩
      refine ⟨rfl, ?_⟩
      rcases List.take_eq_nil_iff.mp nothing with zero | rfl
      · exact zero.symm
      · exact (Nat.le_zero.mp short).symm
  | node zero one ihZero ihOne =>
    have below : ∀ bit : Bool, ∀ {bits : List Bool} {n : Nat},
        (if bit then one else zero).lookup bits = some (found, n) ↔
          n ≤ bits.length ∧ (bits.take n, found) ∈ (if bit then one else zero).networks := by
      rintro (_ | _)
      · exact ihZero
      · exact ihOne
    cases bits with
    | nil => simp [lookup, networks]
    | cons bit bits =>
      cases n with
      | zero => simp [lookup, networks]
      | succ n =>
        rw [List.take_succ_cons, cons_mem_networks_node, List.length_cons, Nat.succ_le_succ_iff, ← below bit,
          lookup]
        simp

theorem lookup_of_prefix {t : Trie α} {network : List Bool × Option α} {bits : List Bool}
    (member : network ∈ t.networks)
    (inside : network.1 <+: bits) : t.lookup bits = some (network.2, network.1.length) := by
  refine lookup_eq_some_iff.mpr ⟨inside.length_le, ?_⟩
  rw [← List.prefix_iff_eq_take.mp inside]
  exact member

/-- The networks do not overlap. -/
theorem networks_disjoint {t : Trie α} {bits path path' : List Bool} {found found' : Option α}
    (first : (path, found) ∈ t.networks) (second : (path', found') ∈ t.networks) (inFirst : path <+: bits)
    (inSecond : path' <+: bits) : path = path' ∧ found = found' := by
  have one := lookup_of_prefix first inFirst
  have two := lookup_of_prefix second inSecond
  rw [one, Option.some.injEq, Prod.mk.injEq] at two
  exact ⟨List.prefix_of_prefix_length_le inFirst inSecond two.2.le |>.eq_of_length two.2, two.1⟩

end Trie

section Unfolds
variable {ε σ α : Type} (step : σ → Bool → Except ε σ) (inner : σ → Bool) (nothing : σ)
  (points : σ → α → Prop)

/-- The walks from a state are the paths of a trie. The states that the trie
goes through may be shared. -/
inductive Unfolds : σ → Trie α → Prop
  | empty : inner nothing = false → Unfolds nothing .empty
  | leaf {s : σ} {value : α} : inner s = false → points s value → Unfolds s (.leaf value)
  | node {s left right : σ} {zero one : Trie α} : inner s = true → step s false = .ok left →
      step s true = .ok right → Unfolds left zero → Unfolds right one → Unfolds s (.node zero one)

/-- A state at which something, or nothing, is found. -/
def Reached : σ → Option α → Prop
  | s, none => s = nothing
  | s, some value => points s value

variable {step inner nothing points}

theorem Unfolds.step_ok {s : σ} {zero one : Trie α} (unfolds : Unfolds step inner nothing points s (.node zero one))
    (bit : Bool) : inner s = true ∧ ∃ next, step s bit = .ok next ∧
      Unfolds step inner nothing points next (if bit then one else zero) := by
  cases unfolds with
  | node isInner left right unfoldsLeft unfoldsRight =>
    cases bit with
    | false => exact ⟨isInner, _, left, unfoldsLeft⟩
    | true => exact ⟨isInner, _, right, unfoldsRight⟩

/-- Walking is looking up. -/
theorem Unfolds.walk {s : σ} {t : Trie α} (unfolds : Unfolds step inner nothing points s t) {bits : List Bool}
    {found : Option α} {n : Nat} (looked : t.lookup bits = some (found, n)) :
    ∃ last, SimpleCdn.walk step inner bits s = .ok (last, n) ∧ inner last = false ∧
      Reached nothing points last found := by
  induction bits generalizing s t n with
  | nil =>
    cases unfolds with
    | empty stopped => cases looked; exact ⟨_, rfl, stopped, rfl⟩
    | leaf stopped pointed => cases looked; exact ⟨_, rfl, stopped, pointed⟩
    | node => cases looked
  | cons bit bits ih =>
    cases t with
    | empty =>
      cases unfolds with
      | empty stopped => cases looked; exact ⟨_, walk_of_not_inner stopped _, stopped, rfl⟩
    | leaf value =>
      cases unfolds with
      | leaf stopped pointed => cases looked; exact ⟨_, walk_of_not_inner stopped _, stopped, pointed⟩
    | node zero one =>
      obtain ⟨isInner, next, first, below⟩ := unfolds.step_ok bit
      obtain ⟨⟨found', m⟩, rest, same⟩ := Option.map_eq_some_iff.mp looked
      cases same
      obtain ⟨last, run, stopped, result⟩ := ih below rest
      exact ⟨last, (walk_cons_eq_ok isInner).mpr ⟨next, m, first, run, rfl⟩, stopped, result⟩

end Unfolds

end SimpleCdn
