import Mathlib.Data.List.Basic
import Mathlib.Data.List.Infix
import Mathlib.Data.List.GetD
import Mathlib.Tactic.Ring

namespace SimpleCdn

/-- The number that some bytes stand for, the most significant byte first. -/
def beNat (bytes : List UInt8) : Nat := bytes.foldl (fun n byte => n * 256 + byte.toNat) 0

def beBytes : Nat → Nat → List UInt8
  | 0, _ => []
  | width + 1, n => beBytes width (n / 256) ++ [UInt8.ofNat n]

@[simp] theorem beNat_nil : beNat [] = 0 := rfl

theorem beNat_concat (bytes : List UInt8) (byte : UInt8) :
    beNat (bytes ++ [byte]) = beNat bytes * 256 + byte.toNat := by
  rw [beNat, List.foldl_append]
  rfl

theorem beNat_append (front back : List UInt8) :
    beNat (front ++ back) = beNat front * 256 ^ back.length + beNat back := by
  induction back using List.reverseRecOn with
  | nil => simp
  | append_singleton back byte ih =>
    rw [← List.append_assoc, beNat_concat, ih, beNat_concat, List.length_append, List.length_singleton]
    ring

theorem beNat_cons (byte : UInt8) (bytes : List UInt8) :
    beNat (byte :: bytes) = byte.toNat * 256 ^ bytes.length + beNat bytes := by
  rw [← List.singleton_append, beNat_append]
  simp [beNat]

theorem beNat_lt (bytes : List UInt8) : beNat bytes < 256 ^ bytes.length := by
  induction bytes using List.reverseRecOn with
  | nil => simp
  | append_singleton bytes byte ih =>
    have small := byte.toNat_lt
    rw [beNat_concat, List.length_append, List.length_singleton, pow_succ]
    omega

/-- Zeros in front do not count. -/
theorem beNat_zeros (n : Nat) (bytes : List UInt8) : beNat (List.replicate n 0 ++ bytes) = beNat bytes := by
  have zeros : beNat (List.replicate n 0) = 0 := by
    induction n with
    | zero => rfl
    | succ n ih => rw [List.replicate_succ', beNat_concat, ih]; rfl
  rw [beNat_append, zeros]
  omega

@[simp] theorem length_beBytes (width n : Nat) : (beBytes width n).length = width := by
  induction width generalizing n with
  | zero => rfl
  | succ width ih => rw [beBytes, List.length_append, ih, List.length_singleton]

theorem beNat_beBytes {width n : Nat} (small : n < 256 ^ width) : beNat (beBytes width n) = n := by
  induction width generalizing n with
  | zero => rw [pow_zero, Nat.lt_one_iff] at small; subst small; rfl
  | succ width ih =>
    have front : n / 256 < 256 ^ width := by rw [Nat.div_lt_iff_lt_mul (by decide)]; rwa [pow_succ] at small
    rw [beBytes, beNat_concat, ih front, UInt8.toNat_ofNat']
    omega

section Bits

/-- The bits of some bytes, the most significant one first. -/
def bitsOf (bytes : List UInt8) : List Bool :=
  (List.range (bytes.length * 8)).map fun i => (beNat bytes).testBit (bytes.length * 8 - 1 - i)

@[simp] theorem length_bitsOf (bytes : List UInt8) : (bitsOf bytes).length = bytes.length * 8 := by
  rw [bitsOf, List.length_map, List.length_range]

theorem beNat_lt_two_pow (bytes : List UInt8) : beNat bytes < 2 ^ (bytes.length * 8) := by
  have bound := beNat_lt bytes
  rwa [show 256 = 2 ^ 8 from rfl, ← pow_mul, Nat.mul_comm] at bound

/-- Each byte has eight of the bits. -/
theorem testBit_beNat (bytes : List UInt8) {i : Nat} (inside : i < bytes.length * 8) :
    (beNat bytes).testBit (bytes.length * 8 - 1 - i) = (bytes.getD (i / 8) 0).toNat.testBit (7 - i % 8) := by
  induction bytes using List.reverseRecOn generalizing i with
  | nil => exact absurd inside (Nat.not_lt_zero i)
  | append_singleton bytes byte ih =>
    have small : byte.toNat < 2 ^ 8 := byte.toNat_lt
    rw [List.length_append, List.length_singleton] at inside ⊢
    rw [beNat_concat, show (256 : Nat) = 2 ^ 8 from rfl, Nat.mul_comm, Nat.testBit_two_pow_mul_add _ small]
    by_cases last : bytes.length * 8 ≤ i
    · rw [if_pos (by omega), show i / 8 = bytes.length by omega, List.getD_append_right _ _ _ _ le_rfl,
        Nat.sub_self, List.getD_cons_zero]
      congr 1
      omega
    · rw [if_neg (by omega), List.getD_append _ _ _ _ (by omega), ← ih (by omega)]
      congr 1
      omega

/-- Two addresses have the same first bits when they are in the same network. -/
theorem take_bitsOf_eq_iff {first second : List UInt8} (length : first.length = second.length) {n : Nat}
    (short : n ≤ first.length * 8) : (bitsOf first).take n = (bitsOf second).take n ↔
      beNat first / 2 ^ (first.length * 8 - n) = beNat second / 2 ^ (first.length * 8 - n) := by
  have bits : (bitsOf first).take n = (bitsOf second).take n ↔ ∀ i < n,
      (beNat first).testBit (first.length * 8 - 1 - i) = (beNat second).testBit (first.length * 8 - 1 - i) := by
    rw [bitsOf, bitsOf, ← List.map_take, ← List.map_take, ← length, List.take_range, Nat.min_eq_left short,
      List.map_inj_left]
    simp only [List.mem_range]
  rw [bits]
  constructor
  · intro same
    refine Nat.eq_of_testBit_eq fun j => ?_
    rw [Nat.testBit_div_two_pow, Nat.testBit_div_two_pow]
    by_cases inside : j < n
    · have bit := same (n - 1 - j) (by omega)
      rwa [show first.length * 8 - 1 - (n - 1 - j) = j + (first.length * 8 - n) by omega] at bit
    · have far : first.length * 8 ≤ j + (first.length * 8 - n) := by omega
      rw [Nat.testBit_lt_two_pow (lt_of_lt_of_le (beNat_lt_two_pow first) (Nat.pow_le_pow_right (by decide) far)),
        Nat.testBit_lt_two_pow (lt_of_lt_of_le (beNat_lt_two_pow second)
          (Nat.pow_le_pow_right (by decide) (length ▸ far)))]
  · intro same i inside
    have bit := congrArg (fun number => number.testBit (n - 1 - i)) same
    simp only [Nat.testBit_div_two_pow] at bit
    rwa [show n - 1 - i + (first.length * 8 - n) = first.length * 8 - 1 - i by omega] at bit

/-- Zeros in front are bits in front. -/
theorem bitsOf_zeros (n : Nat) (bytes : List UInt8) :
    bitsOf (List.replicate n 0 ++ bytes) = List.replicate (n * 8) false ++ bitsOf bytes := by
  have length : (List.replicate n 0 ++ bytes).length * 8 = n * 8 + bytes.length * 8 := by
    rw [List.length_append, List.length_replicate, Nat.add_mul]
  rw [bitsOf, length, List.range_add, List.map_append, beNat_zeros]
  congr 1
  · rw [List.eq_replicate_iff]
    refine ⟨by rw [List.length_map, List.length_range], fun bit member => ?_⟩
    obtain ⟨i, inside, rfl⟩ := List.mem_map.mp member
    have low := List.mem_range.mp inside
    exact Nat.testBit_lt_two_pow (lt_of_lt_of_le (beNat_lt_two_pow bytes)
      (Nat.pow_le_pow_right (by decide) (by omega)))
  · rw [bitsOf, List.map_map]
    refine List.map_congr_left fun i inside => ?_
    have low := List.mem_range.mp inside
    show (beNat bytes).testBit (n * 8 + bytes.length * 8 - 1 - (n * 8 + i)) = _
    congr 1
    omega

end Bits

/-- `buffer[start:stop]`, which is cut off where the buffer ends. -/
def slice (buffer : List UInt8) (start stop : Nat) : List UInt8 := (buffer.drop start).take (stop - start)

/-- These bytes are in the buffer at an offset. -/
def Holds (buffer : List UInt8) (offset : Nat) (bytes : List UInt8) : Prop := bytes <+: buffer.drop offset

section Holds
variable {buffer bytes first second : List UInt8} {offset : Nat}

theorem holds_iff : Holds buffer offset bytes ↔ (buffer.drop offset).take bytes.length = bytes := by
  rw [Holds, List.prefix_iff_eq_take]
  exact eq_comm

instance (buffer : List UInt8) (offset : Nat) (bytes : List UInt8) : Decidable (Holds buffer offset bytes) :=
  inferInstanceAs (Decidable (bytes <+: buffer.drop offset))

theorem holds_between (before bytes after : List UInt8) : Holds (before ++ bytes ++ after) before.length bytes := by
  rw [Holds, List.append_assoc, List.drop_left]
  exact List.prefix_append bytes after

theorem Holds.slice (holds : Holds buffer offset bytes) : slice buffer offset (offset + bytes.length) = bytes := by
  rw [SimpleCdn.slice, Nat.add_sub_cancel_left]
  exact holds_iff.mp holds

theorem Holds.slice_of_length (holds : Holds buffer offset bytes) {size : Nat} (length : bytes.length = size) :
    SimpleCdn.slice buffer offset (offset + size) = bytes := by
  rw [← length]
  exact holds.slice

theorem Holds.getElem? {byte : UInt8} (holds : Holds buffer offset (byte :: bytes)) :
    buffer[offset]? = some byte := by
  obtain ⟨after, split⟩ := holds
  have first : (buffer.drop offset)[0]? = some byte := by rw [← split]; rfl
  rwa [List.getElem?_drop, Nat.add_zero] at first

theorem holds_append : Holds buffer offset (first ++ second) ↔
    Holds buffer offset first ∧ Holds buffer (offset + first.length) second := by
  constructor
  · rintro ⟨after, split⟩
    refine ⟨⟨second ++ after, by rw [← split, List.append_assoc]⟩, after, ?_⟩
    rw [← List.drop_drop, ← split, List.append_assoc, List.drop_left]
  · rintro ⟨⟨behind, front⟩, after, back⟩
    refine ⟨after, ?_⟩
    rw [← List.drop_drop, ← front, List.drop_left] at back
    rw [← front, ← back, List.append_assoc]

theorem holds_cons {byte : UInt8} : Holds buffer offset (byte :: bytes) ↔
    Holds buffer offset [byte] ∧ Holds buffer (offset + 1) bytes := by
  rw [← List.singleton_append, holds_append, List.length_singleton]

theorem Holds.end_le (holds : Holds buffer offset bytes) (nonempty : bytes ≠ []) :
    offset + bytes.length ≤ buffer.length := by
  have shorter := holds.length_le
  have positive := List.length_pos_iff.mpr nonempty
  rw [List.length_drop] at shorter
  omega

end Holds

/-- The last place below a bound, and not before a start, that holds some bytes. -/
def rfindBelow (needle : List UInt8) (start : Nat) (buffer : List UInt8) : Nat → Option Nat
  | 0 => none
  | place + 1 =>
    if start ≤ place ∧ Holds buffer place needle then some place else rfindBelow needle start buffer place

/-- `rfind` from a start on. -/
def rfind (needle : List UInt8) (start : Nat) (buffer : List UInt8) : Option Nat :=
  rfindBelow needle start buffer (buffer.length + 1)

theorem rfindBelow_eq_some_iff {needle : List UInt8} {start : Nat} {buffer : List UInt8} {bound place : Nat} :
    rfindBelow needle start buffer bound = some place ↔
      (place < bound ∧ start ≤ place ∧ Holds buffer place needle) ∧
        ∀ later, place < later → later < bound → ¬ Holds buffer later needle := by
  induction bound with
  | zero => simp [rfindBelow]
  | succ bound ih =>
    by_cases here : start ≤ bound ∧ Holds buffer bound needle
    · rw [rfindBelow, if_pos here, Option.some.injEq]
      constructor
      · rintro rfl
        exact ⟨⟨Nat.lt_succ_self _, here⟩, fun later above below => absurd below (by omega)⟩
      · rintro ⟨⟨below, _⟩, none⟩
        by_contra other
        exact none bound (by omega) (Nat.lt_succ_self _) here.2
    · rw [rfindBelow, if_neg here, ih]
      constructor
      · rintro ⟨⟨below, first, holds⟩, none⟩
        refine ⟨⟨by omega, first, holds⟩, fun later above below' held => ?_⟩
        by_cases last : later = bound
        · subst last
          exact here ⟨by omega, held⟩
        · exact none later above (by omega) held
      · rintro ⟨⟨below, first, holds⟩, none⟩
        have other : place ≠ bound := by
          rintro rfl
          exact here ⟨first, holds⟩
        exact ⟨⟨by omega, first, holds⟩, fun later above below' => none later above (by omega)⟩

theorem rfind_eq_some_iff {needle buffer : List UInt8} {start place : Nat} (nonempty : needle ≠ []) :
    rfind needle start buffer = some place ↔
      (start ≤ place ∧ Holds buffer place needle) ∧ ∀ later, place < later →
        ¬ Holds buffer later needle := by
  have inside : ∀ {at' : Nat}, Holds buffer at' needle → at' < buffer.length + 1 := fun holds => by
    have := holds.end_le nonempty
    omega
  rw [rfind, rfindBelow_eq_some_iff]
  constructor
  · rintro ⟨⟨_, first, holds⟩, none⟩
    exact ⟨⟨first, holds⟩, fun later above held => none later above (inside held) held⟩
  · rintro ⟨⟨first, holds⟩, none⟩
    exact ⟨⟨inside holds, first, holds⟩, fun later above _ => none later above⟩

theorem holds_drop_iff {buffer needle : List UInt8} {start place : Nat} :
    Holds (buffer.drop start) place needle ↔ Holds buffer (start + place) needle := by
  rw [Holds, List.drop_drop, Holds]

theorem holds_behind_iff {before buffer needle : List UInt8} {place : Nat} :
    Holds (before ++ buffer) (before.length + place) needle ↔ Holds buffer place needle := by
  rw [← holds_drop_iff, List.drop_left]

/-- Searching behind a start is searching from it on. -/
theorem rfind_drop {needle : List UInt8} (nonempty : needle ≠ []) (buffer : List UInt8) (start : Nat) :
    (rfind needle 0 (buffer.drop start)).map (start + ·) = rfind needle start buffer := by
  refine Option.ext fun place => ?_
  rw [Option.map_eq_some_iff, rfind_eq_some_iff nonempty]
  constructor
  · rintro ⟨behind, found, rfl⟩
    obtain ⟨⟨_, holds⟩, none⟩ := (rfind_eq_some_iff nonempty).mp found
    refine ⟨⟨Nat.le_add_right .., holds_drop_iff.mp holds⟩, fun later above held => ?_⟩
    rw [← Nat.add_sub_cancel' (show start ≤ later by omega)] at held
    exact none (later - start) (by omega) (holds_drop_iff.mpr held)
  · rintro ⟨⟨first, holds⟩, none⟩
    rw [← Nat.add_sub_cancel' first] at holds
    refine ⟨place - start, (rfind_eq_some_iff nonempty).mpr
      ⟨⟨Nat.zero_le _, holds_drop_iff.mpr holds⟩, ?_⟩, by omega⟩
    exact fun later above held => none (start + later) (by omega) (holds_drop_iff.mp held)

end SimpleCdn
