import ProximityCert.Clock.Instant

/-!
Validity windows. A window contains its start and excludes its end; windows of public certificates
are widened at both ends by a tolerance for differing clocks.
-/

namespace ProximityCert.Validity

/-- How far a peer's clock may be off. -/
def tolerance : Duration := Duration.ofMinutes 30

/-- The instant from which a certificate ending at `notAfter` is expired. -/
def limit (notAfter : Instant) (tolerant : Bool) : Except ClockFault Instant :=
  if tolerant then notAfter.plus tolerance else .ok notAfter

def isExpired (now notAfter : Instant) (tolerant : Bool) : Except ClockFault Bool :=
  (limit notAfter tolerant).map fun l => decide (l ≤ now)

/-- Where a window opens; with tolerance it opens no earlier than the clock's range allows, and at
the epoch if it would open before that range. -/
def opening (notBefore : Instant) (tolerant : Bool) : Instant :=
  if tolerant then (notBefore.minus? tolerance).getD Instant.epoch else notBefore

/-- Whether `now` lies in the window. The end is looked at only from the opening on. -/
def contains (now notBefore notAfter : Instant) (tolerant : Bool) : Except ClockFault Bool :=
  if opening notBefore tolerant ≤ now then (isExpired now notAfter tolerant).map (! ·) else .ok false

end ProximityCert.Validity
