import ProximityCert.Clock.Validity
import ProximityCert.SortedMap
import ProximityCert.Storage.Preferences
import ProximityCert.Text.Base64Url
import ProximityCert.Wire.PublicCertificate

/-!
The index of end times: the ids of downloaded certificates in the order in which they expire, which
tells what has expired without looking at the rows. It is stored as an object from encoded ids to
decimal nanoseconds.
-/

namespace ProximityCert

/-- Ids with their end times. -/
abbrev Expirations := List (Bytes × Instant)

namespace Expirations

/-- The end times of certificates in order; a certificate without one ends at the epoch. -/
def ofCertificates : List PublicCertificate → Except ClockFault Expirations
  | [] => .ok []
  | c :: rest => do
    let stop ← (c.endTime.getD {}).toInstant
    return (c.secretId, stop) :: (← ofCertificates rest)

/-- Sorts by end time: every entry comes before the first that ends no earlier, so that entries that end
together keep their order. -/
def sort (es : Expirations) : Expirations :=
  es.foldr (fun e sorted =>
    sorted.takeWhile (fun x => ¬ e.2 ≤ x.2) ++ e :: sorted.dropWhile fun x => ¬ e.2 ≤ x.2) []

/-- The entries of both indexes, those of the new one winning, in the order of their end times and,
where these are equal, of their ids. -/
def merge (old new : Expirations) : Expirations :=
  sort (old.foldl (fun m e => m.insertIfAbsent e.1 e.2) (SortedMap.ofList new)).entries

def toJson (es : Expirations) : Json :=
  Json.ofMembers (es.map fun e => (Base64Url.encode e.1, .str (toString e.2.toUnixNanos.toInt)))

/-- The number of a digit text. -/
def naturalOf? (digits : List Char) : Option Nat :=
  if digits.isEmpty || !digits.all Char.isDigit then none
  else some (digits.foldl (fun n c => n * 10 + (c.toNat - 48)) 0)

/-- A decimal signed 64-bit number; a sign of either kind may stand before it. -/
def int64Of? (text : String) : Option Int64 :=
  let n : Option Int := match text.toList with
    | '-' :: digits => (naturalOf? digits).map fun n => -(n : Int)
    | '+' :: digits => (naturalOf? digits).map fun n => (n : Int)
    | digits => (naturalOf? digits).map fun n => (n : Int)
  n.bind fun n => if -9223372036854775808 ≤ n ∧ n ≤ 9223372036854775807 then some (Int64.ofInt n) else none

def entryOf? (member : String × Json) : Option (Bytes × Instant) := do
  let id ← Base64Url.decode member.1
  let nanos ← int64Of? (← member.2.str?)
  return (id, .ofUnixNanos nanos)

/-- The stored index; one bad entry, or none stored, gives an empty one. -/
def ofJson (stored : Option Json) : Expirations :=
  match stored with
  | some (.obj members) => ((members.mapM entryOf?).map sort).getD []
  | _ => []

/-- The leading entries that have expired with tolerance. -/
def takeExpired (now : Instant) : Expirations → Except ClockFault Expirations
  | [] => .ok []
  | e :: rest => do
    if ← Validity.isExpired now e.2 true then return e :: (← takeExpired now rest)
    else return []

end Expirations
end ProximityCert
