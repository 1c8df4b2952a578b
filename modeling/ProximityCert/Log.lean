import ProximityCert.Text.Hex

/-! Log lines, which name the device, the part of the program and what it is working on. -/

namespace ProximityCert

inductive LogComponent | certificates | storage | scheduler | manager | verification | rpc | system | custom (name : String)
  deriving DecidableEq

namespace LogComponent

def name : LogComponent → String
  | certificates => "Certificates" | storage => "Storage" | scheduler => "Scheduler" | manager => "Manager"
  | verification => "Verification" | rpc => "Rpc" | system => "System" | custom name => name

/-- The listed component of a name, or else a custom one. -/
def ofName (n : String) : LogComponent :=
  ([certificates, storage, scheduler, manager, verification, rpc, system].find? fun c => c.name = n).getD (custom n)

end LogComponent

/-- Severities in ascending order; `off` admits no line. -/
inductive LogLevel | trace | debug | info | warn | error | off
  deriving DecidableEq

namespace LogLevel

def rank : LogLevel → Nat | trace => 0 | debug => 1 | info => 2 | warn => 3 | error => 4 | off => 5

def name : LogLevel → String
  | trace => "TRACE" | debug => "DEBUG" | info => "INFO" | warn => "WARN" | error => "ERROR" | off => "OFF"

end LogLevel

structure Logger where
  device : String
  component : LogComponent
  parent : Option LogComponent := none
  operation : Option String := none
  deriving DecidableEq

namespace Logger

def root (component : LogComponent) (device : String) : Logger := { device, component }

/-- A logger of a part of this component; the operation stays. -/
def withComponent (l : Logger) (component : LogComponent) : Logger := { l with component, parent := some l.component }

def withOperation (l : Logger) (operation : String) : Logger := { l with operation := some operation }

/-- The component behind its parent, which is left out if it is the system. -/
def path (l : Logger) : String :=
  match l.parent with
  | some parent => if parent = .system then l.component.name else parent.name ++ "." ++ l.component.name
  | none => l.component.name

def line (l : Logger) (message : String) : String :=
  "[" ++ l.device ++ "][" ++ l.path ++ (match l.operation with | some op => "|op=" ++ op | none => "") ++ "] " ++ message

/-- The line a message gives, if its level is admitted. -/
def emit (l : Logger) (least level : LogLevel) (message : String) : Option String :=
  if least.rank ≤ level.rank then some (level.name ++ " " ++ l.line message) else none

end Logger

namespace ShortId

/-- The octets shown of a long identifier. -/
def shown : Nat := 6

def render (id : Bytes) : String :=
  if id.length ≤ shown then Hex.encode id else Hex.encode (id.take shown) ++ ".."

end ShortId
end ProximityCert
