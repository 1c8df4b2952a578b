import ProximityCert.Config
import ProximityCert.Manager.Device
import ProximityCert.Manager.Observers
import ProximityCert.Manager.Service
import ProximityCert.Manager.Tasks
import ProximityCert.Storage.Store

/-!
The certificate manager: a store, the service it talks to, the device it speaks for, and the four
recurring tasks, whose schedules follow from what is stored. The store and the schedulers share one
set of preferences. A clock fault ends the work in its middle, and what was done before it stays done.
-/

namespace ProximityCert

structure Manager where
  config : ManagerConfig
  device : Device
  account : Option Account
  store : Store
  service : Service := {}
  tasks : Tasks
  /-- Tasks with an armed timer, in the order in which they were armed. -/
  armed : List TaskKind := []
  observers : Observers := {}
  running : Bool := false
  entropy : Entropy

/-- Work that a clock fault has ended, with the manager as it was at that point. -/
structure Interrupted where
  manager : Manager

namespace Manager

/-- A new manager on a store. It is stopped, and its tasks have schedulers over their stored progress,
or are merely recorded. -/
def create (config : ManagerConfig) (device : Device) (account : Option Account) (store : Store) (driven : Bool)
    (entropy : Entropy) : Manager :=
  let (tasks, preferences) :=
    if driven then Tasks.scheduled (.ofConfig config) store.preferences else (.recorded, store.preferences)
  { config, device, account, store := { store with preferences }, tasks, entropy }

/-- Goes on with what the clock gives, or ends the work here. -/
def attempt {α : Type} (m : Manager) (r : Except ClockFault α) : Except Interrupted α := r.mapError fun _ => ⟨m⟩

/-- Certificates kept of each visibility that any are made for. -/
def certificatesPerVisibility : Nat := 3

/-- Private certificates in all. -/
def certificateCount : Nat := Visibility.generated.length * certificatesPerVisibility

/-- When private certificates are renewed. Too few of them, or unreadable ones, are overdue. -/
def refreshDue (s : Store) : Option Instant :=
  match s.getPrivate with
  | .ok certificates => if certificateCount ≤ certificates.length then s.nextPrivateEnd else some Instant.epoch
  | .error _ => some Instant.epoch

/-- When public certificates are cleaned up: once the first to end is past the tolerance. -/
def cleanupDue (s : Store) : Except ClockFault (Option Instant) :=
  match s.nextPublicEnd with
  | none => .ok none
  | some stop => (stop.plus Validity.tolerance).map some

def cadence (m : Manager) : TaskKind → Cadence
  | .refresh => .expiration (.ok (refreshDue m.store))
  | .cleanup => .expiration (cleanupDue m.store)
  | .upload => .onDemand
  | .download => .periodic m.config.downloadPeriod

/-- Puts a task in its place, and its timer, if it is armed, behind all others. -/
def setTask (m : Manager) (kind : TaskKind) (t : RecurringTask) : Manager :=
  let others := m.armed.filter (· ≠ kind)
  { m with tasks := m.tasks.set kind t, armed := if t.timer.isSome then others ++ [kind] else others }

def setPreferences (m : Manager) (p : Preferences) : Manager := { m with store := { m.store with preferences := p } }

/-- Does something to a task at a moment. -/
def act (m : Manager) (kind : TaskKind) (action : TaskAction) (now : Moment) : Except Interrupted Manager :=
  match m.tasks.get kind with
  | .recorded t => .ok (m.setTask kind (.recorded (t.act action)))
  | .scheduled s =>
    (m.attempt (s.act m.store.preferences (m.cadence kind) now action)).map fun (s, p) => (m.setTask kind (.scheduled s)).setPreferences p

/-- Does the same to all tasks in turn. -/
def actAll (m : Manager) (action : TaskAction) (now : Moment) : Except Interrupted Manager :=
  TaskKind.all.foldlM (fun m kind => m.act kind action now) m

def notify (m : Manager) (notice : Notice) : Manager := { m with observers := m.observers.notify notice }

/-- Starting a running manager changes nothing. -/
def start (m : Manager) (now : Moment) : Except Interrupted Manager :=
  if m.running then .ok m else { m with running := true }.actAll .start now

def stop (m : Manager) (now : Moment) : Except Interrupted Manager :=
  if m.running then { m with running := false }.actAll .stop now else .ok m

/-- Does something to every task, after which none is armed. -/
def disarmWith (m : Manager) (f : RecurringTask → RecurringTask) : Manager :=
  { m with tasks := TaskKind.all.foldl (fun ts kind => ts.set kind (f (ts.get kind))) m.tasks, armed := [] }

/-- The manager is gone; its tasks are stopped. -/
def dropped (m : Manager) : Manager := m.disarmWith RecurringTask.stopped

/-- The manager goes no further; its tasks are left as they are, but none of them becomes due. -/
def abandoned (m : Manager) : Manager := m.disarmWith RecurringTask.disarmed

end Manager
end ProximityCert
