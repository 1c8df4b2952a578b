import ProximityCert.Schedule.Scheduler

/-!
Two clocks that run together: the wall clock, which can be set, and a count of milliseconds, which
drives timers and only ever grows. On them, the life of one scheduler: every timer fires at its own
time, and what is due at once fires at once.
-/

namespace ProximityCert

structure Timeline where
  /-- The wall clock's reading when the count was zero, as if it had not been set since. -/
  offset : Int
  elapsed : Nat := 0
  deriving DecidableEq

namespace Timeline

def starting (now : Instant) : Timeline := { offset := now.nanos }

def moment (t : Timeline) : Except ClockFault Moment :=
  match Instant.ofNanos? (t.offset + t.elapsed * 1000000) with
  | some now => .ok ⟨now, t.elapsed⟩
  | none => .error .outOfRange

/-- Sets the wall clock and leaves the count alone. -/
def setNow (t : Timeline) (now : Instant) : Timeline := { t with offset := now.nanos - t.elapsed * 1000000 }

def advanceTo (t : Timeline) (elapsed : Nat) : Timeline := { t with elapsed }

end Timeline

/-- A scheduler with its preferences and clocks, and the readings at which it has fired. -/
structure ScheduledTask where
  scheduler : Scheduler
  preferences : Preferences
  cadence : Cadence
  timeline : Timeline
  fired : List Instant := []

namespace ScheduledTask

inductive Event
  | start | stop | requestNow | result (success : Bool) | reschedule | restart
  | advance (millis : Nat) | setClock (now : Instant) | expiresAt (next : Option Instant)
  | store (value : Json) | forget
  deriving Inhabited

/-- Fires the timer if it is due by a count of milliseconds. A fired timer is not armed again before
its result is recorded, so this happens at most once. -/
def fireBy (t : ScheduledTask) (elapsed : Nat) : Except ClockFault ScheduledTask :=
  match t.scheduler.dueBy elapsed with
  | none => .ok t
  | some due => do
    let timeline := t.timeline.advanceTo due
    let m ← timeline.moment
    match t.scheduler.fire t.preferences with
    | (true, scheduler, preferences) => .ok { t with timeline, scheduler, preferences, fired := t.fired ++ [m.now] }
    | (false, scheduler, preferences) => .ok { t with timeline, scheduler, preferences }

/-- Applies a step of the scheduler at the present moment. -/
def apply (t : ScheduledTask)
    (step : Scheduler → Preferences → Cadence → Moment → Except ClockFault (Scheduler × Preferences)) :
    Except ClockFault ScheduledTask := do
  let (scheduler, preferences) ← step t.scheduler t.preferences t.cadence (← t.timeline.moment)
  return { t with scheduler, preferences }

def step (t : ScheduledTask) : Event → Except ClockFault ScheduledTask
  | .start => t.apply Scheduler.start
  | .stop => .ok { t with scheduler := t.scheduler.stop }
  | .requestNow => t.apply Scheduler.requestNow
  | .result success => t.apply fun s p c m => s.handleResult p c m success
  | .reschedule => t.apply fun s p c m => (s.reschedule p c m).map fun s => (s, p)
  | .restart =>
    let (scheduler, preferences) := Scheduler.create t.scheduler.key t.scheduler.retry t.preferences
    .ok { t with scheduler, preferences }
  | .advance millis => do
    let stop := t.timeline.elapsed + millis
    let t ← t.fireBy stop
    return { t with timeline := t.timeline.advanceTo stop }
  | .setClock now => .ok { t with timeline := t.timeline.setNow now }
  | .expiresAt next => .ok { t with cadence := t.cadence.withExpiration next }
  | .store value => .ok { t with preferences := t.preferences.insert t.scheduler.key value }
  | .forget => .ok { t with preferences := t.preferences.erase t.scheduler.key }

/-- One event and whatever is due at once after it; the earlier firings are forgotten. -/
def react (t : ScheduledTask) (e : Event) : Except ClockFault ScheduledTask := do
  let t ← step { t with fired := [] } e
  t.fireBy t.timeline.elapsed

end ScheduledTask
end ProximityCert
