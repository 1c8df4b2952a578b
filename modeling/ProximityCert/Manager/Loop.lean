import ProximityCert.Manager.Command
import ProximityCert.Schedule.Timeline

/-!
The manager in time. Timers that fire put the task they belong to into a queue, and a worker takes
the queue's commands one by one. A task that the worker has begun may be overtaken by timers, but by
no other command. Between two commands from outside, the worker is given the time to become idle. A
clock fault in its work ends the worker for good: later commands go unheard, and tasks are left as
they are.
-/

namespace ProximityCert

structure ManagerLoop where
  manager : Manager
  queue : List Command := []
  /-- The task that the worker has begun. -/
  executing : Option TaskKind := none
  /-- Whether there still is a worker. -/
  alive : Bool := true
  timeline : Timeline

namespace ManagerLoop

def enqueue (l : ManagerLoop) (c : Command) : ManagerLoop := if l.alive then { l with queue := l.queue ++ [c] } else l

/-- The worker has ended in the middle of its work, and forgets what it was going to do. -/
def ended (l : ManagerLoop) (e : Interrupted) : ManagerLoop :=
  { l with manager := e.manager.abandoned, queue := [], executing := none, alive := false }

/-- Goes on after some work. -/
def goOn (l : ManagerLoop) : Except Interrupted Manager → ManagerLoop
  | .ok manager => { l with manager }
  | .error e => l.ended e

/-- Fires the timer of a task, if it is armed. -/
def fire (l : ManagerLoop) (kind : TaskKind) : ManagerLoop :=
  match l.manager.tasks.get kind with
  | .recorded _ => l
  | .scheduled s =>
    if s.timer.isNone then l
    else
      let (fired, s, p) := s.fire l.manager.store.preferences
      let l := { l with manager := (l.manager.setTask kind (.scheduled s)).setPreferences p }
      if fired then l.enqueue (.run kind) else l

/-- One step of the worker: it finishes the task it has begun, or else takes a command, which it
begins if it is a task to be run and carries out at once otherwise. -/
def work (l : ManagerLoop) : Except ClockFault ManagerLoop := do
  let now ← l.timeline.moment
  match l.executing, l.queue with
  | some task, _ => return { l with executing := none }.goOn (l.manager.complete task now)
  | none, [] => return l
  | none, .run task :: queue => return { l with queue, executing := if l.manager.running then some task else none }
  | none, c :: queue => return { l with queue }.goOn ((l.manager.perform now c).map Prod.snd)

def isIdle (l : ManagerLoop) : Bool := l.executing.isNone && l.queue.isEmpty

/-- Lets the worker go on until it is idle, for a number of steps at most. -/
def drain : Nat → ManagerLoop → Except ClockFault ManagerLoop
  | 0, l => .ok l
  | n + 1, l => if l.isIdle then .ok l else l.work.bind (drain n)

/-- The armed tasks whose timers are due by a count of milliseconds. -/
def dueBy (l : ManagerLoop) (elapsed : Nat) : List TaskKind :=
  l.manager.armed.filter fun kind => (l.manager.tasks.get kind).timer.any fun t => t.due ≤ elapsed

/-- Steps in which a queue with one command for each task is emptied. -/
def drainSteps : Nat := 2 * TaskKind.all.length + 2

/-- Fires all timers that are due and lets the worker finish, again and again until nothing is due,
for a number of rounds at most. -/
def settle : Nat → ManagerLoop → Except ClockFault ManagerLoop
  | 0, l => .ok l
  | n + 1, l => do
    let l ← drain (drainSteps + 2 * l.queue.length) l
    match l.dueBy l.timeline.elapsed with
    | [] => return l
    | due => settle n (due.foldl fire l)

/-- Rounds of work at one instant. A task that fires awaits its result before it can fire again, and
is due at once again only if it is asked for, or has failed and need not wait; tasks ask for each
other a few times, and fail for want of an answer. -/
def rounds (l : ManagerLoop) : Nat := 64 + l.manager.service.pending

/-- Does all that is due now. -/
def settled (l : ManagerLoop) : Except ClockFault ManagerLoop := settle l.rounds l

/-- Carries out a command from outside, and all that is due at once after it. -/
def request (l : ManagerLoop) (c : Command) : Except ClockFault (Reply × ManagerLoop) := do
  if !l.alive then return (c.unanswered, l)
  match l.manager.perform (← l.timeline.moment) c with
  | .ok (reply, manager) => return (reply, ← { l with manager }.settled)
  | .error e => return (c.unanswered, l.ended e)

/-- The manager after it has been given up; a worker that is left stops the tasks. -/
def dropped (l : ManagerLoop) : Manager := if l.alive then l.manager.dropped else l.manager

/-- When the next timer is due, if that is not later than a count of milliseconds. -/
def nextDue (l : ManagerLoop) (stop : Nat) : Option Nat :=
  ((l.manager.armed.filterMap fun kind => (l.manager.tasks.get kind).timer.map Timer.due).min?).bind fun due =>
    if due ≤ stop then some due else none

/-- Passes from one due timer to the next, for a number of them at most. -/
def advanceTo (stop : Nat) : Nat → ManagerLoop → Except ClockFault ManagerLoop
  | 0, l => .ok { l with timeline := l.timeline.advanceTo stop }
  | n + 1, l =>
    match l.nextDue stop with
    | none => .ok { l with timeline := l.timeline.advanceTo stop }
    | some due => ({ l with timeline := l.timeline.advanceTo (max due l.timeline.elapsed) }).settled.bind (advanceTo stop n)

/-- Lets a span of milliseconds pass, with every timer firing at its own time. -/
def advance (millis : Nat) (l : ManagerLoop) : Except ClockFault ManagerLoop :=
  advanceTo (l.timeline.elapsed + millis) (millis + 1) l

/-- Runs a recorded task as if it were due, and hands out the oldest result it has not handed out
yet. Without one, the given span passes. -/
def runRecorded (kind : TaskKind) (patience : Nat) (l : ManagerLoop) : Except ClockFault (Option Bool × ManagerLoop) := do
  let collect (l : ManagerLoop) : Option Bool × ManagerLoop :=
    match l.manager.tasks.get kind with
    | .recorded t => (t.collect.1, { l with manager := l.manager.setTask kind (.recorded t.collect.2) })
    | .scheduled _ => (none, l)
  match collect l with
  | (some r, l) => return (some r, ← (l.enqueue (.run kind)).settled)
  | (none, l) =>
    match collect (← (l.enqueue (.run kind)).settled) with
    | (some r, l) => return (some r, l)
    | (none, l) => return (none, ← l.advance patience)

end ManagerLoop
end ProximityCert
