import ProximityCert.Proofs.Verification.Moves
import ProximityCert.Proofs.Verification.Writing

/-!
The ledger of an exchange: which frames each side has sent, which of them the other side has heard,
and how far each run has come with them. What a side has sent is what the other has heard and what is
still under way, so neither side meets a message that it cannot read or did not ask for, and a side is
cut off only by a peer that has failed before.
-/

namespace ProximityCert

/-- The ledger of an exchange between two sessions: the frames that each side has sent and heard. In
`times` are the times at which a side has drawn up its proofs or checked the peer's, and `refusal` is
what is known once a side has rejected its peer. -/
structure Ledger (sessions : Side → Session) (times : Side → Instant → Prop) (refusal : Prop)
    (x : Exchange) (sent heard : Side → List V1Frame) : Prop where
  session : ∀ i, (x.party i).session = sessions i
  reader : ∀ i, (x.party i).reader = {}
  /-- Only a side whose run has ended lets go. -/
  released : ∀ i, x.duplex.released i = true → (x.party i).stage.Ended
  /-- The connection loses nothing and keeps the order. -/
  channel : ∀ i, ∃ pending, sent i.other = heard i ++ pending ∧
    x.duplex.inbox i = pending.map V1Frame.message
  /-- A run is on its way, or both have failed and the peer had let go before this one was through. -/
  run : ∀ i, Progress (sessions i) (times i) (times i) (x.party i).stage (sent i) (heard i) ∨
    ((x.party i).stage = .finished .failed ∧ (x.party i.other).stage = .finished .failed ∧
      (heard i).length < 2)
  /-- No run ends early unless a side has rejected its peer. -/
  early : ∀ i, (x.party i).stage = .rejecting ∨ ((x.party i).stage.Ended ∧ (heard i).length < 2) →
    refusal

namespace Ledger

variable {sessions : Side → Session} {times : Side → Instant → Prop} {refusal : Prop} {x : Exchange}
  {sent heard : Side → List V1Frame} {i : Side} {now : Instant}

theorem of_begin (a b : Session) (times : Side → Instant → Prop) (refusal : Prop) :
    Ledger (Side.pair a b) times refusal (.begin a b) (fun _ => []) (fun _ => []) where
  session i := by cases i <;> rfl
  reader i := by cases i <;> rfl
  released i h := by cases i <;> exact nomatch h
  channel i := ⟨[], rfl, by cases i <;> rfl⟩
  run i := by cases i <;> exact .inl .opening
  early i h := by cases i <;> simp [Exchange.party, Exchange.begin, Stage.Ended, Stage.remaining] at h

theorem progress (h : Ledger sessions times refusal x sent heard)
    (running : ¬ (x.party i).stage.Ended) :
    Progress (sessions i) (times i) (times i) (x.party i).stage (sent i) (heard i) := by
  rcases h.run i with progress | ⟨failed, _⟩
  · exact progress
  · exact (running (failed ▸ rfl)).elim

/-- The peer of a run that has not ended is on its way, or has ended as it should. -/
theorem progress_other (h : Ledger sessions times refusal x sent heard)
    (running : ¬ (x.party i).stage.Ended) :
    Progress (sessions i.other) (times i.other) (times i.other)
      (x.party i.other).stage (sent i.other) (heard i.other) := by
  rcases h.run i.other with progress | ⟨_, failed, _⟩
  · exact progress
  · rw [Side.other_other] at failed
    exact (running (failed ▸ rfl)).elim

/-- The peer of a run that awaits a frame with none under way has something to send or to hear. -/
theorem peer_of_empty (h : Ledger sessions times refusal x sent heard) {type : FrameType}
    (awaited : (x.party i).stage.awaited? = some type) (empty : x.duplex.inbox i = []) :
    x.Ready i.other := by
  have running := Stage.running_of_awaited awaited
  have progress := h.progress running
  have peer := h.progress_other running
  have ahead := progress.length_sent_of_awaited awaited
  have unheard : (heard i).length < 2 := by
    rcases progress.of_awaited awaited with ⟨_, none⟩ | ⟨_, one⟩
    · simp [none]
    · omega
  have all {j : Side} (nothing : x.duplex.inbox j = []) : (sent j.other).length =
    (heard j).length := by
    obtain ⟨pending, flow, inbox⟩ := h.channel j
    obtain rfl := List.map_eq_nil_iff.1 (inbox ▸ nothing)
    simp [flow]
  have heardAll := all empty
  refine ⟨?_, ?_⟩
  · intro ended
    obtain ⟨o, stage⟩ := Stage.ended_iff.1 ended
    have two := (stage ▸ peer).length_sent_of_finished
    omega
  · cases waiting : (x.party i.other).stage.awaited? with
    | none => exact .inl rfl
    | some type' =>
        refine .inr fun nothing => ?_
        have theirs := peer.length_sent_of_awaited waiting
        have ours := all nothing
        rw [Side.other_other] at ours
        omega

/-- What the step of a side does under a ledger: nothing, or one of the three things that bring its run
closer to its end. -/
inductive Deed (sent heard : Side → List V1Frame) (x : Exchange) (i : Side) (now : Instant) : Prop
  | idle : ¬ x.Ready i → x.step i now = x → Deed sent heard x i now
  | sends (f : V1Frame) : (x.party i).stage.outgoing? (x.party i).session now = some f →
      x.step i now =
        { x with duplex := x.duplex.setInbox (x.duplex.inbox i.other ++ [f.message]) i.other }.setParty
          { x.party i with stage := (x.party i).stage.afterSend true } i →
      Deed sent heard x i now
  | refused (f : V1Frame) : (x.party i).stage.outgoing? (x.party i).session now = some f →
      x.duplex.released i.other = true →
      x.step i now = x.setParty { x.party i with stage := .finished .failed } i →
      Deed sent heard x i now
  | hears (type : FrameType) (f : V1Frame) (pending : List V1Frame) :
      (x.party i).stage.awaited? = some type →
      sent i.other = heard i ++ f :: pending → f.frameType = type → f.Carries type →
      x.step i now = { x with duplex := x.duplex.setInbox (pending.map V1Frame.message) i }.setParty
        { x.party i with stage := (x.party i).stage.afterRead (x.party i).session now (some f) } i →
      Deed sent heard x i now

/-- No step meets the end of the connection, or a message that is not the awaited frame. -/
theorem deed (h : Ledger sessions times refusal x sent heard)
    (writable : ∀ i, (sessions i).Writable) (i : Side)
    (now : Instant) : Deed sent heard x i now := by
  by_cases ended : (x.party i).stage.Ended
  · exact .idle (fun ready => ready.1 ended) (Exchange.step_ended ended)
  · cases out : (x.party i).stage.outgoing? (x.party i).session now with
    | some f =>
        cases gone : x.duplex.released i.other with
        | false => exact .sends f out (Exchange.step_send out gone)
        | true => exact .refused f out gone (Exchange.step_refused out gone)
    | none =>
        obtain ⟨type, awaited⟩ := Stage.awaited?_of_running ended out
        obtain ⟨pending, flow, inbox⟩ := h.channel i
        cases pending with
        | nil =>
            have taken : x.duplex.released i.other = false :=
              Bool.eq_false_iff.2 fun gone =>
                (h.peer_of_empty awaited inbox).1 (h.released i.other gone)
            refine .idle ?_ (Exchange.step_pending awaited (h.reader i) inbox taken)
            rintro ⟨_, sends | filled⟩
            · exact nomatch awaited.symm.trans sends
            · exact filled inbox
        | cons f pending =>
            have peer := h.progress_other ended
            obtain ⟨kind, carries⟩ := (flow ▸ peer).next_frame (h.progress ended) awaited
            have decoded := peer.readable (writable i.other) (f := f) (by simp [flow])
            exact .hears type f pending awaited flow kind carries
              (Exchange.step_hear awaited (h.reader i) inbox decoded kind)

theorem send (h : Ledger sessions times refusal x sent heard) {f : V1Frame}
    (out : (x.party i).stage.outgoing? (x.party i).session now = some f)
    (time : (x.party i).stage = .opening → times i now) :
    Ledger sessions times refusal
      ({ x with duplex := x.duplex.setInbox (x.duplex.inbox i.other ++ [f.message]) i.other }.setParty
        { x.party i with stage := (x.party i).stage.afterSend true } i)
      (Side.put sent i (sent i ++ [f])) heard := by
  have running := Stage.running_of_outgoing out
  have progress := h.progress running
  constructor
  · exact Side.both i (by simpa using h.session i) (by simpa using h.session i.other)
  · exact Side.both i (by simpa using h.reader i) (by simpa using h.reader i.other)
  · exact Side.both i (by simpa using fun gone => (running (h.released i gone)).elim)
      (by simpa using h.released i.other)
  · refine Side.both i ?_ ?_
    · simpa using h.channel i
    · obtain ⟨pending, flow, inbox⟩ := h.channel i.other
      rw [Side.other_other] at flow
      exact ⟨pending ++ [f], by simp [flow], by simp [inbox]⟩
  · refine Side.both i (.inl ?_) ?_
    · simpa using progress.afterSend (h.session i ▸ out) time
    · simpa using .inl (h.progress_other running)
  · refine Side.both i ?_ ?_
    · intro ends
      refine h.early i ?_
      simp only [Exchange.party_setParty] at ends
      cases stage : (x.party i).stage <;>
        simp_all [Stage.afterSend, Stage.Ended, Stage.remaining, Stage.outgoing?]
    · simpa using h.early i.other

/-- A side is refused a write only by a peer that has failed, after rejecting this side. -/
theorem refuse (h : Ledger sessions times refusal x sent heard) {f : V1Frame}
    (out : (x.party i).stage.outgoing? (x.party i).session now = some f)
    (gone : x.duplex.released i.other = true) :
    Ledger sessions times refusal (x.setParty { x.party i with stage := .finished .failed } i)
      sent heard := by
  have running := Stage.running_of_outgoing out
  obtain ⟨unsent, unheard⟩ := (h.progress running).of_outgoing (h.session i ▸ out)
  obtain ⟨pending, flow, _⟩ := h.channel i.other
  rw [Side.other_other] at flow
  have little : (heard i.other).length < 2 := by
    rw [flow, List.length_append] at unsent
    omega
  have ended := h.released i.other gone
  have failed : (x.party i.other).stage = .finished .failed := by
    obtain ⟨o, stage⟩ := Stage.ended_iff.1 ended
    have progress := h.progress_other running
    rw [stage] at progress ⊢
    rcases progress.of_finished with ⟨rfl, _⟩ | ⟨_, _, _, _, _, _, _, two, _⟩
    · rfl
    · simp [two] at little
  constructor
  · exact Side.both i (by simpa using h.session i) (by simpa using h.session i.other)
  · exact Side.both i (by simpa using h.reader i) (by simpa using h.reader i.other)
  · exact Side.both i (by simp [Stage.Ended, Stage.remaining]) (by simpa using h.released i.other)
  · simpa using h.channel
  · refine Side.both i (.inr ?_) ?_
    · rw [Exchange.party_setParty, Exchange.party_setParty_other]
      exact ⟨rfl, failed, unheard⟩
    · simpa using .inl (h.progress_other running)
  · refine Side.both i (fun _ => h.early i.other (.inr ⟨ended, little⟩)) ?_
    simpa using h.early i.other

theorem hear (h : Ledger sessions times refusal x sent heard) {type : FrameType} {f : V1Frame}
    {pending : List V1Frame} (awaited : (x.party i).stage.awaited? = some type)
    (flow : sent i.other = heard i ++ f :: pending)
    (kind : f.frameType = type) (carries : f.Carries type)
    (time : (x.party i).stage = .awaitingEncryption → times i now)
    (refuses : (x.party i).stage.afterRead (x.party i).session now (some f) = .rejecting →
      refusal) :
    Ledger sessions times refusal
      ({ x with duplex := x.duplex.setInbox (pending.map V1Frame.message) i }.setParty
        { x.party i with stage := (x.party i).stage.afterRead (x.party i).session now (some f) } i)
      sent (Side.put heard i (heard i ++ [f])) := by
  have running := Stage.running_of_awaited awaited
  have progress := h.progress running
  constructor
  · exact Side.both i (by simpa using h.session i) (by simpa using h.session i.other)
  · exact Side.both i (by simpa using h.reader i) (by simpa using h.reader i.other)
  · exact Side.both i (by simpa using fun gone => (running (h.released i gone)).elim)
      (by simpa using h.released i.other)
  · refine Side.both i ⟨pending, by simp [flow], by simp⟩ ?_
    simpa using h.channel i.other
  · refine Side.both i (.inl ?_) ?_
    · simpa [h.session i] using progress.afterRead awaited kind carries time
    · simpa using .inl (h.progress_other running)
  · refine Side.both i ?_ ?_
    · simp only [Exchange.party_setParty, Side.put_self]
      rintro (rejecting | ⟨ended, little⟩)
      · exact refuses rejecting
      · rcases progress.of_awaited awaited with ⟨rfl, none⟩ | ⟨_, one⟩
        · exact (Stage.running_afterRead awaited carries ended).elim
        · rw [List.length_append, one] at little
          exact (Nat.lt_irrefl 2 little).elim
    · simpa using h.early i.other

theorem step (h : Ledger sessions times refusal x sent heard)
    (writable : ∀ i, (sessions i).Writable)
    (time : (x.party i).stage = .opening ∨ (x.party i).stage = .awaitingEncryption → times i now)
    (refuses : ((x.step i now).party i).stage = .rejecting → refusal) :
    ∃ sent' heard', Ledger sessions times refusal (x.step i now) sent' heard' := by
  cases h.deed writable i now with
  | idle _ next =>
      rw [next]
      exact ⟨sent, heard, h⟩
  | sends f out next => exact ⟨_, _, next ▸ h.send out fun opening => time (.inl opening)⟩
  | refused f out gone next => exact ⟨_, _, next ▸ h.refuse out gone⟩
  | hears type f pending awaited flow kind carries next =>
      rw [next, Exchange.party_setParty] at refuses
      exact ⟨_, _, next ▸ h.hear awaited flow kind carries (fun waiting => time (.inr waiting))
        refuses⟩

theorem leave (h : Ledger sessions times refusal x sent heard) :
    Ledger sessions times refusal (x.leave i) sent heard := by
  by_cases ended : (x.party i).stage.Ended
  · rw [Exchange.leave_of_ended ended]
    constructor
    · simpa using h.session
    · simpa using h.reader
    · exact Side.both i (by simpa using ended) (by simpa using h.released i.other)
    · simpa using h.channel
    · simpa using h.run
    · simpa using h.early
  · rw [Exchange.leave_of_running ended]
    exact h

theorem move (h : Ledger sessions times refusal x sent heard)
    (writable : ∀ i, (sessions i).Writable) {m : Exchange.Move} (time : ∀ i now, m = .step i now →
      (x.party i).stage = .opening ∨ (x.party i).stage = .awaitingEncryption → times i now)
    (refuses : ∀ i, ((x.move m).party i).stage = .rejecting → refusal) :
    ∃ sent' heard', Ledger sessions times refusal (x.move m) sent' heard' := by
  cases m with
  | step i now => exact h.step writable (time i now rfl) (refuses i)
  | leave i => exact ⟨sent, heard, h.leave⟩

/-- After any number of moves there is a true ledger of the exchange. -/
theorem after {a b : Session} (writable : a.Writable ∧ b.Writable) (moves : Nat → Exchange.Move)
    (times : Side → Instant → Prop) (refusal : Prop) (time : ∀ n i now, moves n = .step i now →
      (((Exchange.begin a b).after moves n).party i).stage = .opening ∨
        (((Exchange.begin a b).after moves n).party i).stage = .awaitingEncryption → times i now)
    (refuses : ∀ n i, (((Exchange.begin a b).after moves n).party i).stage = .rejecting → refusal)
      (n : Nat) :
    ∃ sent heard, Ledger (Side.pair a b) times refusal ((Exchange.begin a b).after moves n)
      sent heard := by
  induction n with
  | zero => exact ⟨_, _, .of_begin a b times refusal⟩
  | succ n ih =>
      obtain ⟨sent, heard, ledger⟩ := ih
      refine ledger.move ?_ (time n) (refuses (n + 1))
      intro i
      cases i with
      | first => exact writable.1
      | second => exact writable.2

end Ledger
end ProximityCert
