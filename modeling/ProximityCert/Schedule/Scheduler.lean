import ProximityCert.Schedule.State
import ProximityCert.Storage.Preferences

/-!
The scheduler of one recurring task. Its progress lives among the preferences and is read again at
every step; in memory it only knows whether it runs and which timer is armed. At most one timer is
armed at a time, since the one before it is cancelled first. Timers run beside the program, on a runtime
that everything which arms one is taken to be called from. A timer that fires marks the request as
awaiting its result and asks for the task to be run.
-/

namespace ProximityCert

/-- The reading of the wall clock, and the milliseconds counted by the clock that drives timers. -/
structure Moment where
  now : Instant
  elapsed : Nat
  deriving DecidableEq

/-- A timer armed at a count of milliseconds. -/
structure Timer where
  armedAt : Nat
  delay : Duration
  deriving DecidableEq

/-- When a timer fires: at the first whole millisecond that is not too early, but never later than
the longest sleep allows. -/
def Timer.due (t : Timer) : Nat := t.armedAt + (t.delay.asleep + 999999) / 1000000

structure Scheduler where
  /-- The name under which the progress is stored. -/
  key : String
  retry : RetryPolicy
  running : Bool := false
  /-- The armed timer. Whoever arms another, or stops the scheduler, cancels this one first. -/
  timer : Option Timer := none
  deriving DecidableEq

namespace Scheduler

/-- The stored progress; what cannot be read counts as none. -/
def load (key : String) (p : Preferences) : TaskState := ((p.find? key).bind TaskState.ofJson?).getD {}

/-- Stores the progress. The preferences are in memory and take the write. -/
def save (key : String) (p : Preferences) (s : TaskState) : Preferences := p.insert key s.toJson

/-- A request that was in flight when the last scheduler or run ended is made again. -/
def recover (key : String) (p : Preferences) : Preferences :=
  match (load key p).recoverInterrupted with
  | (true, s) => save key p s
  | (false, _) => p

/-- A stopped scheduler over stored progress. -/
def create (key : String) (retry : RetryPolicy) (p : Preferences) : Scheduler × Preferences :=
  ({ key, retry }, recover key p)

def timeUntilNext (s : Scheduler) (p : Preferences) (cadence : Cadence) (m : Moment) :
    Except ClockFault (Option Duration) :=
  (load s.key p).timeUntilNext cadence m.now s.running s.retry

/-- Arms the timer anew from the stored progress; the one that was armed is cancelled before that. The
caller is on the runtime that timers need. -/
def reschedule (s : Scheduler) (p : Preferences) (cadence : Cadence) (m : Moment) : Except ClockFault Scheduler :=
  if s.running then
    (s.timeUntilNext p cadence m).map fun delay => { s with timer := delay.map fun d => ⟨m.elapsed, d⟩ }
  else .ok s

/-- Starting a running scheduler changes nothing. -/
def start (s : Scheduler) (p : Preferences) (cadence : Cadence) (m : Moment) :
    Except ClockFault (Scheduler × Preferences) :=
  if s.running then .ok (s, p)
  else
    let p := recover s.key p
    (({ s with running := true }).reschedule p cadence m).map fun s => (s, p)

def stop (s : Scheduler) : Scheduler := if s.running then { s with running := false, timer := none } else s

/-- Asks for the task as soon as possible. -/
def requestNow (s : Scheduler) (p : Preferences) (cadence : Cadence) (m : Moment) :
    Except ClockFault (Scheduler × Preferences) :=
  let p := save s.key p { load s.key p with pendingImmediateRequest := true }
  (({ s with timer := none }).reschedule p cadence m).map fun s => (s, p)

/-- Records the outcome of a request. -/
def handleResult (s : Scheduler) (p : Preferences) (cadence : Cadence) (m : Moment) (success : Bool) :
    Except ClockFault (Scheduler × Preferences) :=
  let p := save s.key p ((load s.key p).recordResult success m.now)
  (s.reschedule p cadence m).map fun s => (s, p)

/-- Fires the armed timer; tells whether the task is to be run. -/
def fire (s : Scheduler) (p : Preferences) : Bool × Scheduler × Preferences :=
  let s := { s with timer := none }
  if s.running then
    (true, s, save s.key p { load s.key p with waitingForResult := true, pendingImmediateRequest := false })
  else (false, s, p)

/-- When the armed timer fires, if that is not later than a count of milliseconds. -/
def dueBy (s : Scheduler) (elapsed : Nat) : Option Nat :=
  (s.timer.map Timer.due).bind fun due => if due ≤ elapsed then some due else none

end Scheduler
end ProximityCert
