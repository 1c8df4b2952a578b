import ProximityCert.Proofs.Verification.Progress
import ProximityCert.Verification.Exchange

/-!
The moves of an exchange. A side takes steps while it runs, and may let go of its end of the connection
when its run has ended; a schedule is an endless sequence of such moves. Each kind of step is an
equation here, so that nothing later has to open the step itself.
-/

namespace ProximityCert

@[simp] theorem Side.other_other (i : Side) : i.other.other = i := by cases i <;> rfl

theorem Side.other_ne (i : Side) : i.other ≠ i := by cases i <;> exact nofun

theorem Side.both {P : Side → Prop} (i : Side) (here : P i) (there : P i.other) : ∀ j, P j := by
  intro j
  cases i <;> cases j <;> assumption

def Side.pair {α : Type} (first second : α) : Side → α
  | .first => first
  | .second => second

def Side.put {α : Type} (values : Side → α) (i : Side) (value : α) (j : Side) : α :=
  if j = i then value else values j

@[simp] theorem Side.put_self {α : Type} (values : Side → α) (i : Side) (value : α) :
    put values i value i = value := by
  simp [put]

@[simp] theorem Side.put_other {α : Type} (values : Side → α) (i : Side) (value : α) :
    put values i value i.other = values i.other := by simp [put, other_ne]

namespace Duplex

variable (d : Duplex) (messages : List Bytes) (i : Side)

@[simp] theorem inbox_setInbox : (d.setInbox messages i).inbox i = messages := by cases i <;> rfl

@[simp] theorem inbox_setInbox_other :
    (d.setInbox messages i).inbox i.other = d.inbox i.other := by cases i <;> rfl

@[simp] theorem inbox_setInbox_of_other :
    (d.setInbox messages i.other).inbox i = d.inbox i := by cases i <;> rfl

@[simp] theorem released_setInbox (j : Side) :
    (d.setInbox messages i).released j = d.released j := by
  cases i <;> cases j <;> rfl

@[simp] theorem inbox_release (j : Side) :
    (d.release i).inbox j = d.inbox j := by cases i <;> cases j <;> rfl

@[simp] theorem released_release : (d.release i).released i = true := by cases i <;> rfl

@[simp] theorem released_release_other :
    (d.release i).released i.other = d.released i.other := by cases i <;> rfl

end Duplex

namespace Exchange

section Party
variable (x : Exchange) (p : Party) (i : Side)

@[simp] theorem party_setParty : (x.setParty p i).party i = p := by cases i <;> rfl

@[simp] theorem party_setParty_other :
    (x.setParty p i).party i.other = x.party i.other := by cases i <;> rfl

@[simp] theorem duplex_setParty : (x.setParty p i).duplex = x.duplex := by cases i <;> rfl

@[simp] theorem party_withDuplex (d : Duplex) :
    Exchange.party { x with duplex := d } i = x.party i := by cases i <;> rfl

end Party

/-! What one step does, by what the stage of the side asks for and what its end of the connection holds. -/

section Step
variable {x : Exchange} {i : Side} {now : Instant}

theorem step_send {f : V1Frame} (out : (x.party i).stage.outgoing? (x.party i).session now = some f)
    (taken : x.duplex.released i.other = false) :
    x.step i now =
      { x with duplex := x.duplex.setInbox (x.duplex.inbox i.other ++ [f.message]) i.other }.setParty
        { x.party i with stage := (x.party i).stage.afterSend true } i := by
  simp [step, out, Duplex.write, taken]

theorem step_refused {f : V1Frame}
    (out : (x.party i).stage.outgoing? (x.party i).session now = some f)
    (gone : x.duplex.released i.other = true) :
    x.step i now = x.setParty { x.party i with stage := .finished .failed } i := by
  simp [step, out, Duplex.write, gone, Stage.afterSend_false out]

theorem outgoing?_of_awaited {stage : Stage} {type : FrameType}
    (awaited : stage.awaited? = some type) (s : Session) :
    stage.outgoing? s now = none := by
  cases stage <;> first | rfl | exact nomatch awaited

variable {type : FrameType} (awaited : (x.party i).stage.awaited? = some type)
    (fresh : (x.party i).reader = {})
include awaited fresh

theorem step_hear {f : V1Frame} {octets : Bytes} {rest : List Bytes}
    (inbox : x.duplex.inbox i = octets :: rest)
    (decoded : V1Frame.ofMessage? octets = some f) (kind : f.frameType = type) :
    x.step i now = { x with duplex := x.duplex.setInbox rest i }.setParty
      { x.party i with stage := (x.party i).stage.afterRead (x.party i).session now (some f) }
        i := by
  simp [step, outgoing?_of_awaited awaited, awaited, fresh, FrameReader.take?, FrameReader.pick,
    Duplex.read, inbox, FrameReader.hear, decoded, kind]

theorem step_pending (inbox : x.duplex.inbox i = []) (taken : x.duplex.released i.other = false) :
    x.step i now = x := by
  simp [step, outgoing?_of_awaited awaited, awaited, fresh, FrameReader.take?, FrameReader.pick,
    Duplex.read, inbox, taken]

end Step

theorem step_ended {x : Exchange} {i : Side} {now : Instant} (ended : (x.party i).stage.Ended) :
    x.step i now = x := by
  simp [step, Stage.outgoing?_of_ended ended, Stage.awaited?_of_ended ended]

/-- A run has not ended, and has something to send or to hear. -/
def Ready (x : Exchange) (i : Side) : Prop :=
  ¬ (x.party i).stage.Ended ∧ ((x.party i).stage.awaited? = none ∨ x.duplex.inbox i ≠ [])

/-- What can happen in an exchange: a side takes a step, at a time that its clock tells, or a side whose
run has ended lets go of its end of the connection. -/
inductive Move
  | step (side : Side) (now : Instant)
  | leave (side : Side)

def leave (x : Exchange) (side : Side) : Exchange :=
  match x.outcome? side with
  | some _ => { x with duplex := x.duplex.release side }
  | none => x

def move (x : Exchange) : Move → Exchange
  | .step side now => x.step side now
  | .leave side => x.leave side

/-- The exchange after so many moves of a schedule. -/
def after (x : Exchange) (moves : Nat → Move) : Nat → Exchange
  | 0 => x
  | n + 1 => (x.after moves n).move (moves n)

/-- Two runs that begin at the two ends of a new connection. -/
def begin (a b : Session) : Exchange := { first := { session := a }, second := { session := b } }

theorem leave_of_running {x : Exchange} {i : Side} (running : ¬ (x.party i).stage.Ended) :
    x.leave i = x := by
  unfold leave outcome?
  split
  · next ended =>
      split at ended
      · next stage => exact (running (Stage.ended_iff.2 ⟨_, stage⟩)).elim
      · exact nomatch ended
  · rfl

theorem leave_of_ended {x : Exchange} {i : Side} (ended : (x.party i).stage.Ended) :
    x.leave i = { x with duplex := x.duplex.release i } := by
  obtain ⟨o, stage⟩ := Stage.ended_iff.1 ended
  simp [leave, outcome?, stage]

end Exchange

end ProximityCert
