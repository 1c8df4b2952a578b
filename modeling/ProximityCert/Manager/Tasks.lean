import ProximityCert.Schedule.Recorded
import ProximityCert.Schedule.Scheduler

/-! The recurring tasks of a manager, each driven by a scheduler or merely recorded. -/

namespace ProximityCert

/-- `refresh` renews private certificates, `cleanup` removes expired public ones. -/
inductive TaskKind | refresh | cleanup | upload | download
  deriving DecidableEq

namespace TaskKind

def all : List TaskKind := [refresh, cleanup, upload, download]

def name : TaskKind → String
  | refresh => "private-certificate-expiration" | cleanup => "public-certificate-expiration"
  | upload => "upload-local-device-certificates" | download => "download-public-certificates"

/-- Where the progress of a task is stored. -/
def key : TaskKind → String
  | refresh => "sharing.scheduler.private_certificate_expiration" | cleanup => "sharing.scheduler.public_certificate_expiration"
  | upload => "sharing.scheduler.upload_local_device_certificates" | download => "sharing.scheduler.download_public_certificates"

end TaskKind

inductive RecurringTask | recorded (t : RecordedTask) | scheduled (s : Scheduler)
  deriving DecidableEq

/-- What is done to a task. -/
inductive TaskAction | start | stop | requestNow | reschedule | handleResult (success : Bool)
  deriving DecidableEq

namespace RecordedTask

def act (t : RecordedTask) : TaskAction → RecordedTask
  | .start => t.start
  | .stop => t.stop
  | .requestNow => t.requestNow
  | .reschedule => t.reschedule
  | .handleResult success => t.handleResult success

end RecordedTask

namespace Scheduler

def act (s : Scheduler) (p : Preferences) (cadence : Cadence) (m : Moment) :
    TaskAction → Except ClockFault (Scheduler × Preferences)
  | .start => s.start p cadence m
  | .stop => .ok (s.stop, p)
  | .requestNow => s.requestNow p cadence m
  | .reschedule => (s.reschedule p cadence m).map fun s => (s, p)
  | .handleResult success => s.handleResult p cadence m success

end Scheduler

namespace RecurringTask

def running : RecurringTask → Bool
  | recorded t => t.running
  | scheduled s => s.running

def stopped : RecurringTask → RecurringTask
  | recorded t => recorded t.stop
  | scheduled s => scheduled s.stop

/-- The task without its timer. -/
def disarmed : RecurringTask → RecurringTask
  | recorded t => recorded t
  | scheduled s => scheduled { s with timer := none }

/-- The armed timer; a recorded task has none. -/
def timer : RecurringTask → Option Timer
  | recorded _ => none
  | scheduled s => s.timer

end RecurringTask

structure Tasks where
  refresh : RecurringTask
  cleanup : RecurringTask
  upload : RecurringTask
  download : RecurringTask
  deriving DecidableEq

namespace Tasks

def get (ts : Tasks) : TaskKind → RecurringTask
  | .refresh => ts.refresh | .cleanup => ts.cleanup | .upload => ts.upload | .download => ts.download

def set (ts : Tasks) (kind : TaskKind) (t : RecurringTask) : Tasks :=
  match kind with
  | .refresh => { ts with refresh := t }
  | .cleanup => { ts with cleanup := t }
  | .upload => { ts with upload := t }
  | .download => { ts with download := t }

/-- Tasks that are only recorded. -/
def recorded : Tasks := ⟨.recorded {}, .recorded {}, .recorded {}, .recorded {}⟩

/-- Tasks with schedulers over stored progress. -/
def scheduled (retry : RetryPolicy) (p : Preferences) : Tasks × Preferences :=
  TaskKind.all.foldl (fun (ts, p) kind =>
    let (s, p) := Scheduler.create kind.key retry p
    (ts.set kind (.scheduled s), p)) (recorded, p)

@[simp] theorem get_set_self (ts : Tasks) (k : TaskKind) (t : RecurringTask) : (ts.set k t).get k = t := by cases k <;> rfl

theorem get_set_of_ne (ts : Tasks) {k l : TaskKind} (t : RecurringTask) (h : l ≠ k) : (ts.set k t).get l = ts.get l := by
  cases k <;> cases l <;> first | rfl | exact absurd rfl h

end Tasks
end ProximityCert
