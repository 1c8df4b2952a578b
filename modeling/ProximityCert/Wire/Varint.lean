import ProximityCert.Bytes

/-!
Numbers in base 128, least significant digit first, with a mark on every octet but the last.
Reading takes at most ten octets and a value below 2^64; what was written reads back in front of
any further bytes.
-/

namespace ProximityCert.Varint

/-- The octets a number below 2^64 can take. -/
def maxOctets : Nat := 10

/-- At most `octets` octets of a number. -/
def digits : (octets : Nat) → Nat → Bytes
  | 0, _ => []
  | octets + 1, n =>
    if n < 128 then [UInt8.ofNat n] else UInt8.ofNat (n % 128 + 128) :: digits octets (n / 128)

def bytes (n : Nat) : Bytes := digits maxOctets n

/-- Reads at most `octets` octets up to the first one without a mark. -/
def readDigits : (octets : Nat) → Bytes → Option (Nat × Bytes)
  | 0, _ => none
  | _ + 1, [] => none
  | octets + 1, b :: rest =>
    if b < 128 then some (b.toNat, rest)
    else (readDigits octets rest).map fun (n, rest) => (b.toNat - 128 + 128 * n, rest)

def read (bs : Bytes) : Option (Nat × Bytes) :=
  (readDigits maxOctets bs).bind fun (n, rest) => if n < UInt64.size then some (n, rest) else none

theorem readDigits_digits {octets n : Nat} (h : n < Nat.pow 128 octets) (pos : 0 < octets) (rest : Bytes) :
    readDigits octets (digits octets n ++ rest) = some (n, rest) := by
  induction octets generalizing n with
  | zero => omega
  | succ octets ih =>
    unfold digits
    by_cases small : n < 128
    · have : (UInt8.ofNat n) < 128 := by simp [UInt8.lt_iff_toNat_lt]; omega
      simp [small, readDigits, this]; omega
    · have big : ¬ (UInt8.ofNat (n % 128 + 128)) < 128 := by simp [UInt8.lt_iff_toNat_lt]; omega
      have step : n / 128 < Nat.pow 128 octets := Nat.div_lt_of_lt_mul (Nat.mul_comm .. ▸ h)
      have more : 0 < octets := by
        rcases Nat.eq_zero_or_pos octets with zero | pos
        · subst zero; simp at step; omega
        · exact pos
      rw [if_neg small, List.cons_append, readDigits, if_neg big, ih step more]
      simp; omega

/-- Every number below 2^64 reads back, whatever follows it. -/
theorem read_bytes {n : Nat} (h : n < UInt64.size) (rest : Bytes) : read (bytes n ++ rest) = some (n, rest) := by
  have wide : n < Nat.pow 128 maxOctets := Nat.lt_of_lt_of_le h (by decide)
  simp only [read, bytes, readDigits_digits wide (by decide), Option.bind_some, if_pos h]

end ProximityCert.Varint
