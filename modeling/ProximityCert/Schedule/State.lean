import ProximityCert.Clock.Instant
import ProximityCert.Config

/-!
When a recurring task is due. The progress of a task is stored, so that waiting times and open
requests outlive a restart; the time to the next request is a function of the stored progress, the
task's cadence and the clock.
-/

namespace ProximityCert

structure RetryPolicy where
  baseDelay : Duration
  maxDelay : Duration
  deriving DecidableEq

namespace RetryPolicy

/-- The number of times that the base delay is doubled at most. -/
def maxDoublings : Nat := 31

/-- The wait after a number of failures in a row: it doubles with each up to the greatest delay, which
also stands for a multiple of the base delay that is too long to be told. -/
def delayFor (p : RetryPolicy) (failures : Nat) : Duration :=
  if failures = 0 then 0
  else
    match p.baseDelay.times? (1 <<< UInt32.ofNat (min (failures - 1) maxDoublings)) with
    | some delay => min delay p.maxDelay
    | none => p.maxDelay

def ofConfig (c : ManagerConfig) : RetryPolicy := ⟨c.baseRetryDelay, c.maxRetryDelay⟩

end RetryPolicy

/-- What makes a task due besides immediate requests and retries: nothing, a period since the last
success, or an instant. The instant may lie beyond the clock's range, which is a fault once it is
looked at. -/
inductive Cadence | onDemand | periodic (period : Duration) | expiration (next : Except ClockFault (Option Instant))

namespace Cadence

/-- A new instant for a task that is due at one; no other cadence has any. -/
def withExpiration (next : Option Instant) : Cadence → Cadence
  | expiration _ => expiration (.ok next)
  | c => c

/-- A number with a fraction of the given places, without trailing zeros. -/
def decimal (whole fraction places : Nat) : String :=
  let digits := (toString fraction).toList
  let padded := List.replicate (places - digits.length) '0' ++ digits
  let shown := (padded.reverse.dropWhile (· = '0')).reverse
  toString whole ++ (if shown.isEmpty then "" else "." ++ String.ofList shown)

/-- A span in the largest unit of which it holds at least one. -/
def spanText (d : Duration) : String :=
  if d ≥ 1000000000 then decimal (d / 1000000000) (d % 1000000000) 9 ++ "s"
  else if d ≥ 1000000 then decimal (d / 1000000) (d % 1000000) 6 ++ "ms"
  else if d ≥ 1000 then decimal (d / 1000) (d % 1000) 3 ++ "µs"
  else decimal d 0 0 ++ "ns"

def describe : Cadence → String
  | onDemand => "OnDemand"
  | periodic period => "Periodic(" ++ spanText period ++ ")"
  | expiration _ => "Expiration"

end Cadence

/-- The stored progress of a task. -/
structure TaskState where
  lastAttempt : Option Int64 := none
  lastSuccess : Option Int64 := none
  consecutiveFailures : UInt32 := 0
  pendingImmediateRequest : Bool := false
  waitingForResult : Bool := false
  deriving DecidableEq

namespace TaskState

def fieldNames : List String :=
  ["last_attempt_nanos", "last_success_nanos", "consecutive_failures", "pending_immediate_request", "waiting_for_result"]

def toJson (s : TaskState) : Json := Json.ofMembers
  [("last_attempt_nanos", (s.lastAttempt.map Json.ofInt64).getD .null),
    ("last_success_nanos", (s.lastSuccess.map Json.ofInt64).getD .null),
    ("consecutive_failures", .ofNat s.consecutiveFailures.toNat),
    ("pending_immediate_request", .bool s.pendingImmediateRequest), ("waiting_for_result", .bool s.waitingForResult)]

/-- Fields that are missing take their defaults. -/
def ofJson? (j : Json) : Option TaskState :=
  match j.structFields? fieldNames with
  | some [attempt, success, failures, pending, waiting] => do
    return {
      lastAttempt := ← Json.defaulted? none (Json.optional? Json.int64?) attempt
      lastSuccess := ← Json.defaulted? none (Json.optional? Json.int64?) success
      consecutiveFailures := ← Json.defaulted? 0 Json.uint32? failures
      pendingImmediateRequest := ← Json.defaulted? false Json.bool? pending
      waitingForResult := ← Json.defaulted? false Json.bool? waiting }
  | _ => none

/-- Failures are counted up to the largest 32-bit number. -/
def countFailure (n : UInt32) : UInt32 := if n = 4294967295 then n else n + 1

/-- Records the outcome of the request that fired last. -/
def recordResult (s : TaskState) (success : Bool) (now : Instant) : TaskState :=
  { s with
    lastAttempt := some now.toUnixNanos
    lastSuccess := if success then some now.toUnixNanos else s.lastSuccess
    consecutiveFailures := if success then 0 else countFailure s.consecutiveFailures
    waitingForResult := false }

/-- A request whose result never came is made again; tells whether there was one. -/
def recoverInterrupted (s : TaskState) : Bool × TaskState :=
  if s.waitingForResult then (true, { s with waitingForResult := false, pendingImmediateRequest := true }) else (false, s)

/-- The span to a target, none if it has passed. -/
def untilTarget (now target : Instant) : Duration := (target.since? now).getD 0

/-- The span to the next request; absent while stopped, while a result is awaited, and while nothing
makes the task due. -/
def timeUntilNext (s : TaskState) (cadence : Cadence) (now : Instant) (running : Bool) (retry : RetryPolicy) :
    Except ClockFault (Option Duration) :=
  if !running || s.waitingForResult then .ok none
  else if s.pendingImmediateRequest then .ok (some 0)
  else if s.consecutiveFailures ≠ 0 then
    let elapsed := (s.lastAttempt.bind fun n => now.since? (.ofUnixNanos n)).getD 0
    .ok (some (retry.delayFor s.consecutiveFailures.toNat - elapsed))
  else
    match cadence with
    | .expiration next => next.map fun target => target.map (untilTarget now)
    | .onDemand => .ok none
    | .periodic period =>
      match s.lastSuccess with
      | none => .ok (some 0)
      | some n => ((Instant.ofUnixNanos n).plus period).map fun due => some (untilTarget now due)

end TaskState
end ProximityCert
