import ProximityCert.Bytes

/-!
A source of random octets: an endless sequence and how much of it has been used. Whatever is drawn
is a function of the sequence, so statements may range over every source.
-/

namespace ProximityCert

structure Entropy where
  octet : Nat → UInt8
  used : Nat := 0

namespace Entropy

/-- The next `n` octets. -/
def bytes (n : Nat) (e : Entropy) : Bytes × Entropy :=
  ((List.range n).map fun i => e.octet (e.used + i), { e with used := e.used + n })

/-- Octets behind a number below a bound. -/
def boundedOctets : Nat := 16

/-- A number below `upper`; zero if there is none. -/
def below (upper : Nat) (e : Entropy) : Nat × Entropy :=
  let (drawn, e) := e.bytes boundedOctets
  (if upper = 0 then 0 else Bytes.toNat drawn % upper, e)

@[simp] theorem length_bytes (n : Nat) (e : Entropy) : (e.bytes n).1.length = n := by simp [bytes]

theorem below_lt {upper : Nat} (h : 0 < upper) (e : Entropy) : (e.below upper).1 < upper := by
  simp only [below]
  rw [if_neg (by omega)]
  exact Nat.mod_lt _ h

end Entropy
end ProximityCert
