import ProximityCert.Clock.Instant
import ProximityCert.Rounding
import ProximityCert.Wire.Message

/-!
Timestamps count seconds and nanoseconds from the epoch. Writing an instant drops its fraction of a
second: toward the past from the epoch on, and toward the epoch's far side before it, where the
distance is first rounded to 53 significant bits.
-/

namespace ProximityCert

structure Timestamp where
  seconds : Int64 := 0
  nanos : Int32 := 0
  deriving DecidableEq

instance : Message Timestamp where
  empty := {}
  fields m := Field.int64 1 m.seconds ++ Field.int32 2 m.nanos
  merge depth m
    | ⟨1, p⟩ => p.int64?.map fun n => { m with seconds := n }
    | ⟨2, p⟩ => p.int32?.map fun n => { m with nanos := n }
    | _ => Field.skip depth m

namespace Timestamp

/-- The quotient rounded to 53 significant bits, or to a whole number if it has fewer. -/
def roundSignificant (n d : Nat) : Nat :=
  let scale := Nat.pow 2 (Nat.log2 (n / d) + 1 - 53)
  Rounding.nearest n (d * scale) * scale

/-- A scale at which fractions of a second keep all their significant bits. -/
def fractionScale : Nat := Nat.pow 2 84

/-- The seconds of a span as a sum of its rounded whole and fractional parts, rounded again and then
taken up to a whole number. -/
def secondsUp (d : Duration) : Nat :=
  let whole := roundSignificant (d / 1000000000) 1
  let fraction := roundSignificant (d % 1000000000 * fractionScale) 1000000000
  (roundSignificant (whole * fractionScale + fraction) 1 + fractionScale - 1) / fractionScale

/-- The largest signed 64-bit number, where larger ones end up. -/
def maxSeconds : Nat := Int64.maxValue.toInt.toNat

def ofInstant (t : Instant) : Timestamp :=
  if 0 ≤ t.nanos then ⟨Int64.ofInt (t.nanos / 1000000000), 0⟩
  else ⟨Int64.ofInt (-(min (secondsUp (-t.nanos).toNat) maxSeconds : Nat)), 0⟩

/-- The instant of a timestamp. Negative nanoseconds count as none, and those past a second carry. -/
def toInstant (m : Timestamp) : Except ClockFault Instant :=
  match Instant.ofNanos? (m.seconds.toInt * 1000000000 + max 0 m.nanos.toInt) with
  | some t => .ok t
  | none => .error .outOfRange

end Timestamp
end ProximityCert
