/-! Rounding a quotient of whole numbers. -/

namespace ProximityCert.Rounding

/-- The nearest whole number to a quotient; a tie goes to the even one. -/
def nearest (n d : Nat) : Nat :=
  let q := n / d
  let r := n % d
  if 2 * r < d then q else if d < 2 * r then q + 1 else q + q % 2

/-- The rounded number is at most half away from the quotient. -/
theorem nearest_within_half {n d : Nat} (pos : 0 < d) :
    2 * n ≤ 2 * (nearest n d * d) + d ∧ 2 * (nearest n d * d) ≤ 2 * n + d := by
  have split := Nat.div_add_mod' n d
  have small := Nat.mod_lt n pos
  simp only [nearest]
  by_cases down : 2 * (n % d) < d
  · rw [if_pos down]; omega
  · rw [if_neg down]
    by_cases up : d < 2 * (n % d)
    · rw [if_pos up, Nat.add_mul]; omega
    · rw [if_neg up, Nat.add_mul]
      rcases Nat.mod_two_eq_zero_or_one (n / d) with even | odd
      · rw [even]; omega
      · rw [odd]; omega

end ProximityCert.Rounding
