import ProximityCert.Failure
import ProximityCert.Verification.FrameReader
import ProximityCert.Verification.Session

/-!
A run of the verification: both devices send their proofs, check the other's, send their verdicts
and merge them. A run is a sequence of stages, each of which either sends a frame or awaits one, so
runs can be driven by any connection in any order.
-/

namespace ProximityCert

/-- The merged verdict, and the system that the peer reported. -/
structure Outcome where
  verdict : Verdict
  peerOs : OsType
  deriving DecidableEq

def Outcome.failed : Outcome := ⟨.fail, .unknownOsType⟩

inductive Stage
  | opening
  | awaitingEncryption
  | rejecting
  | replying (identity signature : Verdict)
  | awaitingResult (identity signature : Verdict)
  | finished (outcome : Outcome)
  deriving DecidableEq

namespace Stage

/-- The type of frame that a stage waits for. -/
def awaited? : Stage → Option FrameType
  | awaitingEncryption => some .pairedKeyEncryption
  | awaitingResult _ _ => some .pairedKeyResult
  | _ => none

def encryptionFrame (e : PairedKeyEncryption) : V1Frame :=
  { type := some FrameType.pairedKeyEncryption.code, encryption := some e }

def resultFrame (s : Session) (verdict : Verdict) : V1Frame :=
  { type := some FrameType.pairedKeyResult.code
    result := some { status := some verdict.status.code, osType := some s.osType.code } }

/-- The frame that a stage sends. -/
def outgoing? (s : Session) (now : Instant) : Stage → Option V1Frame
  | opening => some (encryptionFrame (s.encryption now))
  | rejecting => some (resultFrame s .fail)
  | replying identity signature => some (resultFrame s (.merge [identity, signature]))
  | _ => none

/-- The stage after a frame was sent, or could not be. -/
def afterSend (sent : Bool) : Stage → Stage
  | opening => if sent then awaitingEncryption else finished .failed
  | rejecting => finished .failed
  | replying identity signature => if sent then awaitingResult identity signature else finished .failed
  | stage => stage

/-- The outcome of the own checks and the peer's verdict. -/
def conclude (identity signature : Verdict) (r : PairedKeyResult) : Outcome :=
  { verdict := .merge [identity, signature, .ofCode r.status]
    peerOs := (r.osType.bind OsType.ofCode?).getD .unknownOsType }

/-- The stage after a read that ended with a frame or without one. -/
def afterRead (s : Session) (now : Instant) (frame : Option V1Frame) : Stage → Stage
  | awaitingEncryption =>
    match frame.bind V1Frame.encryption with
    | none => finished .failed
    | some e =>
      match s.identity now e with
      | none => rejecting
      | some identity => replying identity (s.signature e)
  | awaitingResult identity signature =>
    match frame.bind V1Frame.result with
    | none => finished .failed
    | some r => finished (conclude identity signature r)
  | stage => stage

/-- Steps that a run takes at most from a stage on. -/
def remaining : Stage → Nat
  | opening => 4 | awaitingEncryption => 3 | replying _ _ => 2 | rejecting => 1 | awaitingResult _ _ => 1 | finished _ => 0

theorem remaining_afterSend {s : Session} {now : Instant} {stage : Stage} {f : V1Frame} {sent : Bool}
    (h : stage.outgoing? s now = some f) : (stage.afterSend sent).remaining < stage.remaining := by
  cases stage <;> cases sent <;> simp_all [outgoing?, afterSend, remaining]

theorem remaining_afterRead {s : Session} {now : Instant} {stage : Stage} {t : FrameType} {frame : Option V1Frame}
    (h : stage.awaited? = some t) : (stage.afterRead s now frame).remaining < stage.remaining := by
  cases stage <;> simp only [awaited?, reduceCtorEq, Option.some.injEq] at h
  · simp only [afterRead]
    split
    · simp [remaining]
    · split <;> simp [remaining]
  · simp only [afterRead]
    split <;> simp [remaining]

end Stage

/-- One end of a connection, with all that comes in on it. -/
structure Link where
  incoming : Incoming
  reader : FrameReader := {}
  /-- Messages written. -/
  sent : List Bytes := []
  /-- The write, counted from zero, that fails. -/
  failingWrite : Option Nat := none
  elapsed : Duration := 0
  turn : Turn := .full

namespace Link

/-- Writes a message; tells whether that worked. -/
def write (l : Link) (message : Bytes) : Bool × Link :=
  if l.failingWrite = some l.sent.length then (false, l) else (true, { l with sent := l.sent ++ [message] })

/-- Reads a frame of a type. -/
def read (l : Link) (type : FrameType) (patience : Duration) : Option V1Frame × Link :=
  let r := l.reader.read type patience l.turn l.incoming
  (r.frame, { l with reader := r.reader, incoming := { l.incoming with arrivals := r.rest },
                     elapsed := l.elapsed + r.elapsed, turn := r.turn })

/-- Counts the arrivals that are left, which is a step. -/
def countLeft (l : Link) : Nat × Link := (l.incoming.arrivals.length, { l with turn := l.turn.step })

end Link

namespace Session

/-- One step of a run. The clock tells the time for each span since the start. -/
def step (s : Session) (clock : Duration → Instant) (patience : Duration) : Stage × Link → Stage × Link
  | (stage, link) =>
    match stage.outgoing? s (clock link.elapsed), stage.awaited? with
    | some f, _ =>
      let (sent, link) := link.write f.message
      (stage.afterSend sent, link)
    | none, some type =>
      let (frame, link) := link.read type patience
      (stage.afterRead s (clock link.elapsed) frame, link)
    | none, none => (stage, link)

def stepTimes (s : Session) (clock : Duration → Instant) (patience : Duration) : Nat → Stage × Link → Stage × Link
  | 0, state => state
  | n + 1, state => stepTimes s clock patience n (s.step clock patience state)

/-- A whole run over one end of a connection. -/
def run (s : Session) (clock : Duration → Instant) (patience : Duration) (link : Link) : Outcome × Link :=
  match s.stepTimes clock patience Stage.opening.remaining (.opening, link) with
  | (.finished outcome, link) => (outcome, link)
  | (_, link) => (.failed, link)

end Session
end ProximityCert
