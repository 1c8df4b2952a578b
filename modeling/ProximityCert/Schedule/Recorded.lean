/-!
A task that never becomes due by itself: it only records what it is asked, and hands out the results
it was given one by one.
-/

namespace ProximityCert

structure RecordedTask where
  running : Bool := false
  immediateRequests : Nat := 0
  reschedules : Nat := 0
  results : List Bool := []
  /-- Results that have been handed out. -/
  collected : Nat := 0
  deriving DecidableEq

namespace RecordedTask

def start (t : RecordedTask) : RecordedTask := { t with running := true }
def stop (t : RecordedTask) : RecordedTask := { t with running := false }
def requestNow (t : RecordedTask) : RecordedTask := { t with immediateRequests := t.immediateRequests + 1 }
def reschedule (t : RecordedTask) : RecordedTask := { t with reschedules := t.reschedules + 1 }
def handleResult (t : RecordedTask) (success : Bool) : RecordedTask := { t with results := t.results ++ [success] }

/-- The oldest result that was not handed out yet. -/
def collect (t : RecordedTask) : Option Bool × RecordedTask :=
  match t.results[t.collected]? with
  | some r => (some r, { t with collected := t.collected + 1 })
  | none => (none, t)

end RecordedTask
end ProximityCert
