/-!
Observers of a manager. They are registered by number, possibly more than once, and are told of an
event once for each registration. An observer that its owner has released is told nothing more.
-/

namespace ProximityCert

inductive Notice | publicDownloaded | privateChanged
  deriving DecidableEq

structure Observers where
  registered : List Nat := []
  released : List Nat := []
  /-- What observers have been told, the oldest first. -/
  delivered : List (Nat × Notice) := []
  deriving DecidableEq

namespace Observers

def add (o : Observers) (n : Nat) : Observers := { o with registered := o.registered ++ [n] }

/-- Removes all registrations of an observer. -/
def remove (o : Observers) (n : Nat) : Observers := { o with registered := o.registered.filter (· ≠ n) }

def release (o : Observers) (n : Nat) : Observers := { o with released := n :: o.released }

/-- Tells the observers that are still there, and forgets the others. -/
def notify (o : Observers) (notice : Notice) : Observers :=
  let live := o.registered.filter (· ∉ o.released)
  { o with registered := live, delivered := o.delivered ++ live.map (·, notice) }

/-- How often an observer has been told of an event. -/
def told (o : Observers) (n : Nat) (notice : Notice) : Nat := o.delivered.count (n, notice)

end Observers
end ProximityCert
