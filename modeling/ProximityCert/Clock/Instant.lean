/-!
Points and spans of time. The clock counts whole seconds in a signed 64-bit number and nanoseconds
below a second, so an instant is a number of nanoseconds in a fixed range, and arithmetic that
leaves the range is a fault. A span has no upper limit, but a multiple of one is given only up to the
longest that whole seconds in an unsigned 64-bit number can tell.
-/

namespace ProximityCert

/-- Nanoseconds of a span. -/
abbrev Duration := Nat

namespace Duration

def ofSeconds (n : Nat) : Duration := n * 1000000000
def ofMillis (n : Nat) : Duration := n * 1000000
def ofMinutes (n : Nat) : Duration := ofSeconds (n * 60)
def ofHours (n : Nat) : Duration := ofSeconds (n * 3600)

/-- The longest span that is told in whole seconds and nanoseconds below a second. -/
def longest : Duration := ofSeconds 18446744073709551615 + 999999999

/-- A multiple of a span, none beyond the longest. -/
def times? (d : Duration) (n : UInt32) : Option Duration := if d * n.toNat ≤ longest then some (d * n.toNat) else none

/-- The longest that anything sleeps, thirty years of 365 days. -/
def longestSleep : Duration := ofHours (30 * 365 * 24)

/-- How long one sleeps who means to sleep for a span. -/
def asleep (d : Duration) : Duration := min d longestSleep

/-- Whole milliseconds of a span, as a 64-bit number. -/
def millis (d : Duration) : UInt64 := UInt64.ofNat (d / 1000000)

end Duration

/-- The one way in which time arithmetic fails. -/
inductive ClockFault | outOfRange
  deriving DecidableEq

/-- Nanoseconds since the epoch, within what the clock can hold. -/
structure Instant where
  nanos : Int
  lower : -9223372036854775808000000000 ≤ nanos
  upper : nanos < 9223372036854775808000000000
  deriving DecidableEq

namespace Instant

def epoch : Instant := ⟨0, by decide, by decide⟩

instance : Inhabited Instant := ⟨epoch⟩

instance : LE Instant := ⟨fun a b => a.nanos ≤ b.nanos⟩
instance : LT Instant := ⟨fun a b => a.nanos < b.nanos⟩
instance (a b : Instant) : Decidable (a ≤ b) := inferInstanceAs (Decidable (a.nanos ≤ b.nanos))
instance (a b : Instant) : Decidable (a < b) := inferInstanceAs (Decidable (a.nanos < b.nanos))

theorem ext_nanos {a b : Instant} (h : a.nanos = b.nanos) : a = b := by
  cases a; cases b; simp_all

def ofNanos? (n : Int) : Option Instant :=
  if h : -9223372036854775808000000000 ≤ n ∧ n < 9223372036854775808000000000 then some ⟨n, h.1, h.2⟩ else none

/-- The instant a span later; a fault beyond the clock's range. -/
def plus (t : Instant) (d : Duration) : Except ClockFault Instant :=
  match ofNanos? (t.nanos + d) with
  | some r => .ok r
  | none => .error .outOfRange

/-- The instant a span earlier, if the clock can hold it. -/
def minus? (t : Instant) (d : Duration) : Option Instant := ofNanos? (t.nanos - d)

/-- The span from an earlier instant, `none` if it is later. -/
def since? (t earlier : Instant) : Option Duration :=
  if earlier ≤ t then some (t.nanos - earlier.nanos).toNat else none

/-- The nanoseconds in a signed 64-bit number; what it cannot hold is cut to its low bits. Before the epoch
this is the negative of the 64-bit count of nanoseconds back to the instant, and the negation wraps: of all
counts one, the least number, has no negative, and with checks for overflow it would be refused. -/
def toUnixNanos (t : Instant) : Int64 := Int64.ofInt t.nanos

def ofUnixNanos (n : Int64) : Instant :=
  ⟨n.toInt, by have := n.le_toInt; omega, by have := n.toInt_lt; omega⟩

@[simp] theorem nanos_ofUnixNanos (n : Int64) : (ofUnixNanos n).nanos = n.toInt := rfl

@[simp] theorem toUnixNanos_ofUnixNanos (n : Int64) : toUnixNanos (ofUnixNanos n) = n := by
  simp [toUnixNanos]

theorem ofUnixNanos_toUnixNanos {t : Instant} (lower : Int64.minValue.toInt ≤ t.nanos)
    (upper : t.nanos ≤ Int64.maxValue.toInt) :
    ofUnixNanos t.toUnixNanos = t :=
  ext_nanos (by simpa [toUnixNanos] using Int64.toInt_ofInt_of_le lower (Int.lt_add_one_of_le upper))

theorem ofNanos?_nanos (t : Instant) : ofNanos? t.nanos = some t := by
  simp [ofNanos?, t.lower, t.upper]

end Instant
end ProximityCert
