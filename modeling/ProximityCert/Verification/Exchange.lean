import ProximityCert.Verification.Run

/-!
Two runs over the two ends of one connection, which loses nothing and keeps the order of messages.
The runs take their steps in any order: a step sends a frame, takes a kept one, or takes one message
that has come in, and a run that awaits a message stands still until there is one. An end that is
released accepts nothing, and is closed to its peer once all it has written is read.
-/

namespace ProximityCert

/-- The messages under way on a connection, by the end they are going to. -/
structure Duplex where
  toFirst : List Bytes := []
  toSecond : List Bytes := []
  firstReleased : Bool := false
  secondReleased : Bool := false

/-- The two ends. -/
inductive Side | first | second
  deriving DecidableEq

def Side.other : Side → Side | first => second | second => first

/-- What a read at an end finds. -/
inductive Polled | message (octets : Bytes) | closed | pending

namespace Duplex

def released (d : Duplex) : Side → Bool | .first => d.firstReleased | .second => d.secondReleased

def inbox (d : Duplex) : Side → List Bytes | .first => d.toFirst | .second => d.toSecond

def setInbox (d : Duplex) (messages : List Bytes) : Side → Duplex
  | .first => { d with toFirst := messages }
  | .second => { d with toSecond := messages }

def release (d : Duplex) : Side → Duplex
  | .first => { d with firstReleased := true }
  | .second => { d with secondReleased := true }

def closedFault : Failure := .connection "peer closed the connection"

/-- Writes at an end. -/
def write (d : Duplex) (side : Side) (message : Bytes) : Except Failure Duplex :=
  if d.released side.other then .error closedFault else .ok (d.setInbox (d.inbox side.other ++ [message]) side.other)

/-- Reads at an end; what was written before the other end was released is still there. -/
def read (d : Duplex) (side : Side) : Polled × Duplex :=
  match d.inbox side with
  | message :: rest => (.message message, d.setInbox rest side)
  | [] => (if d.released side.other then .closed else .pending, d)

end Duplex

/-- A run in progress at one end. -/
structure Party where
  session : Session
  stage : Stage := .opening
  reader : FrameReader := {}

structure Exchange where
  first : Party
  second : Party
  duplex : Duplex := {}

namespace Exchange

def party (x : Exchange) : Side → Party | .first => x.first | .second => x.second

def setParty (x : Exchange) (p : Party) : Side → Exchange
  | .first => { x with first := p }
  | .second => { x with second := p }

/-- One step at one end. -/
def step (x : Exchange) (side : Side) (now : Instant) : Exchange :=
  let p := x.party side
  match p.stage.outgoing? p.session now, p.stage.awaited? with
  | some f, _ =>
    match x.duplex.write side f.message with
    | .ok duplex => { x with duplex }.setParty { p with stage := p.stage.afterSend true } side
    | .error _ => x.setParty { p with stage := p.stage.afterSend false } side
  | none, some type =>
    let ended (frame : Option V1Frame) (reader : FrameReader) : Party :=
      { p with stage := p.stage.afterRead p.session now frame, reader }
    match p.reader.take? type with
    | some (f, reader) => x.setParty (ended (some f) reader) side
    | none =>
      match x.duplex.read side with
      | (.pending, _) => x
      | (.closed, duplex) => { x with duplex }.setParty (ended none p.reader) side
      | (.message octets, duplex) =>
        match p.reader.hear type octets with
        | .malformed => { x with duplex }.setParty (ended none p.reader) side
        | .awaited f => { x with duplex }.setParty (ended (some f) p.reader) side
        | .other reader => { x with duplex }.setParty { p with reader } side
  | none, none => x

/-- Whether a run awaits a message that has not come. -/
def waits (x : Exchange) (side : Side) : Bool :=
  match (x.party side).stage.awaited? with
  | none => false
  | some type => ((x.party side).reader.take? type).isNone && (x.duplex.inbox side).isEmpty && !x.duplex.released side.other

/-- The read that a run awaits has timed out. -/
def expire (x : Exchange) (side : Side) (now : Instant) : Exchange :=
  let p := x.party side
  x.setParty { p with stage := p.stage.afterRead p.session now none } side

/-- Steps that a run can take without its peer, at most. -/
def burst : Nat := Stage.opening.remaining

def stepTimes (x : Exchange) (side : Side) (now : Instant) : Nat → Exchange
  | 0 => x
  | n + 1 => (x.step side now).stepTimes side now n

/-- Lets a side run until it has to wait; an impatient one then gives up. -/
def poll (x : Exchange) (side : Side) (now : Instant) (patient : Bool) : Exchange :=
  let x := x.stepTimes side now burst
  if !patient && x.waits side then x.expire side now else x

/-- Steps at the sides in turn. -/
def steps (x : Exchange) (turns : List (Side × Instant)) : Exchange := turns.foldl (fun x t => x.step t.1 t.2) x

def outcome? (x : Exchange) (side : Side) : Option Outcome :=
  match (x.party side).stage with
  | .finished outcome => some outcome
  | _ => none

end Exchange
end ProximityCert
