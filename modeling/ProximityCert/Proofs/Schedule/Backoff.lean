import Mathlib.Algebra.Group.Nat.Defs
import ProximityCert.Schedule.State

/-!
The wait after failures in a row. It is computed within limits: the factor is a 32-bit number, which
bounds the doublings, and a product that is too long to be told gives way to the greatest delay. The
second limit never shows. The first one does: the wait follows its formula, one doubling for each
further failure, exactly as long as all doublings are made, and beyond them only if the greatest delay
is reached by then.
-/

namespace ProximityCert

/-- A multiple that is too long to be told is longer than any greatest delay. -/
theorem Duration.min_times? {d most : Duration} {n : UInt32} (told : most ≤ longest) :
    ((d.times? n).elim most fun delay => min delay most) = min most (d * n.toNat) := by
  unfold times?
  split
  · exact Nat.min_comm _ _
  · next beyond =>
      have longer : most ≤ d * n.toNat := Nat.le_trans told (Nat.le_of_not_le beyond)
      exact (Nat.min_eq_left longer).symm

namespace RetryPolicy

variable {p : RetryPolicy} {failures j k : Nat}

/-- The wait after a number of doublings, in exact arithmetic. -/
def doubled (p : RetryPolicy) (doublings : Nat) : Nat := min p.maxDelay (p.baseDelay * 2 ^ doublings)

theorem doubled_le (more : j ≤ k) : p.doubled j ≤ p.doubled k := by
  have powers (base : Nat) : base * 2 ^ j ≤ base * 2 ^ k :=
    Nat.mul_le_mul_left base (Nat.pow_le_pow_right (by decide) more)
  have longer := powers p.baseDelay
  unfold doubled
  omega

/-- Unless there is nothing to double, more doublings make a longer wait until it is the longest. -/
theorem doubled_lt_iff (more : j < k) :
    p.doubled j < p.doubled k ↔ 0 < p.baseDelay ∧ p.doubled j < p.maxDelay := by
  constructor
  · intro longer
    refine ⟨Nat.pos_of_ne_zero fun none => ?_, Nat.lt_of_lt_of_le longer (Nat.min_le_left _ _)⟩
    simp only [doubled, none, Nat.zero_mul] at longer
    exact Nat.lt_irrefl _ longer
  · rintro ⟨some, below⟩
    have powers (base : Nat) (some : 0 < base) : base * 2 ^ j < base * 2 ^ k :=
      (Nat.mul_lt_mul_left some).2 (Nat.pow_lt_pow_right (by decide) more)
    have longer := powers p.baseDelay some
    unfold doubled at below ⊢
    omega

/-- Within 32 bits the factor loses none of its doublings. -/
theorem toNat_factor (few : k ≤ maxDoublings) :
    ((1 : UInt32) <<< UInt32.ofNat k).toNat = 2 ^ k := by
  have bit : k < 32 := Nat.lt_succ_of_le few
  have small : k < UInt32.size := Nat.lt_trans bit (by decide)
  have fits : 2 ^ k < 2 ^ 32 := Nat.pow_lt_pow_right (by decide) bit
  rw [UInt32.toNat_shiftLeft, UInt32.toNat_ofNat_of_lt' small, Nat.mod_eq_of_lt bit,
    UInt32.toNat_one, Nat.one_shiftLeft, Nat.mod_eq_of_lt fits]

theorem delayFor_eq (told : p.maxDelay ≤ Duration.longest) (failed : 1 ≤ failures) :
    p.delayFor failures = p.doubled (min (failures - 1) maxDoublings) := by
  have factor := toNat_factor (Nat.min_le_right (failures - 1) maxDoublings)
  rw [doubled, ← factor, ← Duration.min_times? told, delayFor, if_neg (Nat.ne_of_gt failed)]
  split
  · next found =>
      rw [found]
      rfl
  · next beyond =>
      rw [beyond]
      rfl

/-- Beyond the last doubling the formula goes on, unless it has reached its end. -/
theorem doubled_min_eq_iff :
    p.doubled (min k maxDoublings) = p.doubled k ↔
      k ≤ maxDoublings ∨ p.baseDelay = 0 ∨ p.maxDelay ≤ p.baseDelay * 2 ^ maxDoublings := by
  by_cases few : k ≤ maxDoublings
  · rw [Nat.min_eq_left few]
    exact iff_of_true rfl (.inl few)
  · have many : maxDoublings < k := Nat.lt_of_not_le few
    have shorter : p.doubled maxDoublings = p.doubled k ↔
        ¬ p.doubled maxDoublings < p.doubled k := by
      have most := doubled_le (p := p) (Nat.le_of_lt many)
      omega
    rw [Nat.min_eq_right (Nat.le_of_lt many), shorter, doubled_lt_iff many, Decidable.not_and_iff_or_not,
      Nat.not_lt, Nat.not_lt, Nat.le_zero, doubled, Nat.le_min, and_iff_right (Nat.le_refl _)]
    exact (or_iff_right few).symm

/-- After any number of failures the wait is the one that its formula gives, for as many doublings as are
made at most. So it is the exact one if there are no more to make, none to show, or the greatest delay is
reached with them; it never becomes shorter, and longer only as long as doublings are left. -/
theorem delayFor_doubles (told : p.maxDelay ≤ Duration.longest) (failed : 1 ≤ failures) :
    p.delayFor failures = min p.maxDelay (p.baseDelay * 2 ^ min (failures - 1) maxDoublings) ∧
    (p.delayFor failures = min p.maxDelay (p.baseDelay * 2 ^ (failures - 1)) ↔
      failures ≤ maxDoublings + 1 ∨ p.baseDelay = 0 ∨
        p.maxDelay ≤ p.baseDelay * 2 ^ maxDoublings) ∧
    (∀ more, failures ≤ more → p.delayFor failures ≤ p.delayFor more) ∧
    (p.delayFor failures < p.delayFor (failures + 1) ↔
      failures ≤ maxDoublings ∧ 0 < p.baseDelay ∧ p.delayFor failures < p.maxDelay) := by
  have wait := delayFor_eq told failed
  refine ⟨wait, ?_, ?_, ?_⟩
  · show _ = p.doubled (failures - 1) ↔ _
    rw [wait, doubled_min_eq_iff, Nat.sub_le_iff_le_add]
  · intro more later
    rw [wait, delayFor_eq told (Nat.le_trans failed later)]
    exact doubled_le (by omega)
  · rw [wait, delayFor_eq told (Nat.le_add_left 1 failures), Nat.add_sub_cancel]
    by_cases few : failures ≤ maxDoublings
    · rw [Nat.min_eq_left few, Nat.min_eq_left (by omega)]
      rw [doubled_lt_iff (by omega)]
      exact (and_iff_right few).symm
    · rw [Nat.min_eq_right (by omega), Nat.min_eq_right (by omega)]
      exact iff_of_false (Nat.lt_irrefl _) fun grows => few grows.1

/-- A base delay of a nanosecond, doubled up to an hour. -/
def nanosecond : RetryPolicy := ⟨1, Duration.ofHours 1⟩

theorem delayFor_doubles_nanosecond :
    nanosecond.maxDelay ≤ Duration.longest ∧ nanosecond.delayFor 40 = 2147483648 ∧
    nanosecond.delayFor 40 ≠ min nanosecond.maxDelay (nanosecond.baseDelay * 2 ^ 39) ∧
    nanosecond.delayFor 31 < nanosecond.delayFor 32 ∧
    ¬ nanosecond.delayFor 32 < nanosecond.delayFor 33 := by
  have told : nanosecond.maxDelay ≤ Duration.longest := by decide
  obtain ⟨value, formula, _, _⟩ := @delayFor_doubles nanosecond 40 told (by decide)
  have grows := (@delayFor_doubles nanosecond 31 told (by decide)).2.2.2
  have rests := (@delayFor_doubles nanosecond 32 told (by decide)).2.2.2
  refine ⟨told, value, ?_, grows.2 (by decide +kernel), fun longer => ?_⟩
  · intro same
    exact absurd (formula.1 same) (by decide +kernel)
  · exact absurd (rests.1 longer).1 (by decide)

/-- After 33 failures the wait is the one after 32, half of what the formula gives, though an hour is far
from reached. -/
theorem undoubled_nanosecond :
    nanosecond.delayFor 33 = 2147483648 ∧ nanosecond.delayFor 32 = 2147483648 ∧
    min nanosecond.maxDelay (nanosecond.baseDelay * 2 ^ (33 - 1)) = 4294967296 := by
  decide +kernel

end RetryPolicy
end ProximityCert
