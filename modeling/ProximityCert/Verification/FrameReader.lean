import ProximityCert.Clock.Instant
import ProximityCert.Wire.Frame

/-!
Reading frames by type. A reader that awaits one type keeps the frames of other types it meets, and
hands them out when their type is asked for. A read ends without a frame at a malformed message, at
the end of the connection, or when its time has run out; what it has kept by then stays kept.

A reader takes what is ready in turns of a limited number of steps. Turns follow one another without
taking time, but a reader looks at its time between them.
-/

namespace ProximityCert

/-- The frame in a message of the first version. -/
def V1Frame.ofMessage? (message : Bytes) : Option V1Frame :=
  (Message.decode (α := Frame) message).bind fun f => if f.version = some FrameVersion.v1.code then f.v1 else none

/-- The message of a frame. -/
def V1Frame.message (f : V1Frame) : Bytes := Message.encode (Frame.ofV1 f)

structure FrameReader where
  /-- Frames that were not asked for yet, the oldest first. -/
  kept : List V1Frame := []
  deriving DecidableEq

/-- What a message is to a reader that awaits a type. -/
inductive Hearing | awaited (frame : V1Frame) | other (reader : FrameReader) | malformed

namespace FrameReader

/-- The first frame of a type, and the frames without it. -/
def pick (type : FrameType) : List V1Frame → Option (V1Frame × List V1Frame)
  | [] => none
  | f :: rest => if f.frameType = type then some (f, rest) else (pick type rest).map fun (g, fs) => (g, f :: fs)

/-- The oldest kept frame of a type, which is then no longer kept. -/
def take? (r : FrameReader) (type : FrameType) : Option (V1Frame × FrameReader) :=
  (pick type r.kept).map fun (f, kept) => (f, { kept })

def hear (r : FrameReader) (type : FrameType) (message : Bytes) : Hearing :=
  match V1Frame.ofMessage? message with
  | none => .malformed
  | some f => if f.frameType = type then .awaited f else .other { kept := r.kept ++ [f] }

end FrameReader

/-- What comes in on a connection: messages, and pauses before the next of them. -/
inductive Arrival | message (octets : Bytes) | pause (length : Duration)
  deriving DecidableEq

/-- All that comes in; after the last arrival the peer closes the connection or stays silent. -/
structure Incoming where
  arrivals : List Arrival
  closes : Bool
  deriving DecidableEq

/-- What is left of a turn. -/
abbrev Turn := Nat

namespace Turn

/-- Steps in a turn. -/
def full : Turn := 128

/-- Takes a step, in a new turn if this one is over. -/
def step (t : Turn) : Turn := if t = 0 then full - 1 else t - 1

/-- Takes a step, if no turn is over or there is time for another. -/
def step? (t : Turn) (patience : Duration) : Option Turn := if t = 0 ∧ patience = 0 then none else some t.step

/-- The turn after time has passed or has been found to be over. -/
def wait (t : Turn) (patience : Duration) : Turn := if patience = 0 then t - 1 else full - 1

end Turn

/-- The end of one read: the frame if there is one, the reader, the arrivals that were not consumed,
the time it took, and what is left of the turn. -/
structure Reception where
  frame : Option V1Frame
  reader : FrameReader
  rest : List Arrival
  elapsed : Duration
  turn : Turn

namespace FrameReader

/-- Waits for a frame of a type. A message that is there is taken even when no time is left, but not
in a further turn; a pause that outlasts the remaining time ends the read and begins anew with the
next one. Asking for a message is a step, and so is the end of a pause. -/
def await (type : FrameType) (closes : Bool) : (patience : Duration) → Turn → List Arrival → FrameReader → Reception
  | patience, turn, [], r => if closes then ⟨none, r, [], 0, turn⟩ else ⟨none, r, [], patience, turn.wait patience⟩
  | patience, turn, .pause length :: rest, r =>
    if length = 0 then
      match turn.step? patience with
      | some turn => await type closes patience turn rest r
      | none => ⟨none, r, .pause length :: rest, 0, turn⟩
    else if length ≤ patience then
      let later := await type closes (patience - length) (turn.wait length) rest r
      { later with elapsed := length + later.elapsed }
    else ⟨none, r, .pause length :: rest, patience, turn.wait patience⟩
  | patience, turn, .message octets :: rest, r =>
    match r.hear type octets with
    | .malformed => ⟨none, r, rest, 0, turn⟩
    | .awaited f => ⟨some f, r, rest, 0, turn⟩
    | .other r =>
      match turn.step? patience with
      | some turn => await type closes patience turn rest r
      | none => ⟨none, r, rest, 0, turn⟩

/-- Reads a frame of a type, from the kept ones if there is one. Coming to the kept ones is a step, as
is asking for the first message. -/
def read (r : FrameReader) (type : FrameType) (patience : Duration) (turn : Turn) (incoming : Incoming) : Reception :=
  match r.take? type with
  | some (f, r) => ⟨some f, r, incoming.arrivals, 0, turn.step⟩
  | none => await type incoming.closes patience turn.step.step incoming.arrivals r

end FrameReader
end ProximityCert
