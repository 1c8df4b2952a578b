import ProximityCert.Proofs.Verification.Progress
import ProximityCert.Proofs.Verification.Reading

/-!
What a successful verification means. The peer decides which messages come in, in what order and how
late, and whether the connection ends; none of that brings a run to success unless the peer has shown
that it knows this device, has signed with the certificate it is known by, and has come to success
itself.
-/

namespace ProximityCert

/-- What the first frames of their types on a link prove of the peer. -/
structure Session.Authenticated (s : Session) (now : Instant) (frames : List V1Frame) : Prop where
  known : s.target.isKnown = true
  /-- The first frame of proofs shows that the peer knows this device, and that it signed the token
  with the certificate that is known to be the peer's. -/
  proofs : ∃ f e c, frames.find? (fun f => f.frameType = .pairedKeyEncryption) = some f ∧
    f.encryption = some e ∧
    s.Recognised now e ∧ s.peer = some c ∧ s.SignedBy c e
  /-- The first frame with a result reports success. -/
  reported : ∃ f r, frames.find? (fun f => f.frameType = .pairedKeyResult) = some f ∧
    f.result = some r ∧
    r.status = some PairedKeyStatus.success.code

/-- Only the number of success stands for success. -/
theorem Verdict.ofCode_eq_success_iff {code : Option Int32} :
    ofCode code = .success ↔ code = some PairedKeyStatus.success.code := by
  constructor
  · intro h
    cases code with
    | none => exact nomatch h
    | some n =>
        cases known : PairedKeyStatus.ofCode? n with
        | none => simp [ofCode, known] at h
        | some status =>
            have number : status.code = n := by simpa using List.find?_some known
            cases status with
            | success => exact congrArg some number.symm
            | unknown => simp [ofCode, known, ofStatus] at h
            | fail => simp [ofCode, known, ofStatus] at h
            | unable => simp [ofCode, known, ofStatus] at h
  · rintro rfl
    rfl

/-- Reads have handed out the first frame of each type they asked for, and have changed nothing for
the other types. -/
structure HandedOut (frames left heard : List V1Frame) : Prop where
  first : ∀ f ∈ heard, frames.find? (fun g => g.frameType = f.frameType) = some f
  others : ∀ type, (∀ f ∈ heard, f.frameType ≠ type) →
    left.find? (fun g => g.frameType = type) = frames.find? (fun g => g.frameType = type)

theorem HandedOut.take {frames left left' heard : List V1Frame} {type : FrameType} {f : V1Frame}
    (h : HandedOut frames left heard) (taken : Taken type left f left')
    (unheard : ∀ g ∈ heard, g.frameType ≠ type) :
    HandedOut frames left' (heard ++ [f]) := by
  refine ⟨?_, ?_⟩
  · intro g member
    rcases List.mem_append.1 member with old | new
    · exact h.first g old
    · obtain rfl := List.mem_singleton.1 new
      rw [taken.frameType, ← h.others type unheard, taken.find?]
  · intro other absent
    have ne : other ≠ type := by
      rintro rfl
      exact absent f (by simp) taken.frameType
    rw [taken.find?_left ne, h.others other fun g member => absent g
      (List.mem_append_left _ member)]

theorem Link.write_eq (l : Link) (message : Bytes) :
    ∃ messages, (l.write message).2 = { l with sent := messages } := by
  unfold write
  split
  · exact ⟨l.sent, rfl⟩
  · exact ⟨l.sent ++ [message], rfl⟩

namespace Session

variable {s : Session} {clock : Duration → Instant} {patience : Duration} {start : Link}

/-- What the clock tells when the first frame of proofs has been read. -/
def checkTime (clock : Duration → Instant) (patience : Duration) (start : Link) : Instant :=
  clock (start.read .pairedKeyEncryption patience).2.elapsed

/-- What holds after every step of a run that began with a link, as long as the run is not lost. Until
the proofs are read, the link has only been written to. -/
def Traced (s : Session) (clock : Duration → Instant) (patience : Duration) (start : Link)
    (state : Stage × Link) : Prop :=
  ∃ sent heard, Progress s (fun _ => True) (· = checkTime clock patience start) state.1 sent heard ∧
    HandedOut start.frames state.2.frames heard ∧
    (state.1 = .opening ∨ state.1 = .awaitingEncryption →
      ∃ messages, state.2 = { start with sent := messages })

theorem traced_opening (s : Session) (clock : Duration → Instant) (patience : Duration)
    (start : Link) :
    s.Traced clock patience start (.opening, start) :=
  ⟨[], [], .opening, ⟨fun _ member => (List.not_mem_nil member).elim, fun _ _ => rfl⟩,
    fun _ => ⟨start.sent, rfl⟩⟩

theorem Traced.write {stage : Stage} {link : Link} (h : s.Traced clock patience start (stage, link))
    {now : Instant} {f : V1Frame} (out : stage.outgoing? s now = some f) :
    stage.afterSend (link.write f.message).1 = .finished .failed ∨
      s.Traced clock patience start (stage.afterSend (link.write f.message).1,
        (link.write f.message).2) := by
  obtain ⟨sent, heard, progress, handed, untouched⟩ := h
  obtain ⟨messages, written⟩ := link.write_eq f.message
  cases worked : (link.write f.message).1 with
  | false => exact .inl (Stage.afterSend_false out)
  | true =>
      refine .inr ⟨sent ++ [f], heard, progress.afterSend out fun _ => trivial, written ▸ handed,
        ?_⟩
      intro early
      have opening : stage = .opening := by
        cases stage <;> simp_all [Stage.afterSend, Stage.outgoing?]
      obtain ⟨_, rfl⟩ := untouched (.inl opening)
      exact ⟨messages, written⟩

theorem Traced.read {stage : Stage} {link : Link} (h : s.Traced clock patience start (stage, link))
    {type : FrameType} (awaited : stage.awaited? = some type) :
    stage.afterRead s (clock (link.read type patience).2.elapsed) (link.read type patience).1 =
      .finished .failed ∨
      s.Traced clock patience start
        (stage.afterRead s (clock (link.read type patience).2.elapsed) (link.read type patience).1,
          (link.read type patience).2) := by
  obtain ⟨sent, heard, progress, handed, untouched⟩ := h
  have time : stage = .awaitingEncryption →
      clock (link.read type patience).2.elapsed = checkTime clock patience start := by
    rintro rfl
    obtain ⟨messages, rfl⟩ := untouched (.inr rfl)
    obtain rfl := Option.some.inj awaited
    rfl
  cases found : (link.read type patience).1 with
  | none => exact .inl (Stage.afterRead_none awaited)
  | some f =>
      have taken := Link.taken_of_read found
      by_cases carries : f.Carries type
      · refine .inr ⟨sent, heard ++ [f], progress.afterRead awaited taken.frameType carries time,
          handed.take taken (progress.unheard awaited), ?_⟩
        intro early
        have less : (stage.afterRead s (clock (link.read type patience).2.elapsed)
          (some f)).remaining < stage.remaining :=
          Stage.remaining_afterRead awaited
        rcases early with same | same <;> cases stage <;> simp_all [Stage.awaited?, Stage.remaining]
      · exact .inl (Stage.afterRead_bare awaited carries)

/-- One step keeps what holds of a run that is not lost, and a lost run stays lost. -/
theorem Traced.step {state : Stage × Link}
    (h : state.1 = .finished .failed ∨ s.Traced clock patience start state) :
    (s.step clock patience state).1 = .finished .failed ∨
      s.Traced clock patience start (s.step clock patience state) := by
  obtain ⟨stage, link⟩ := state
  rcases h with lost | traced
  · obtain rfl : stage = .finished .failed := lost
    exact .inl rfl
  · cases out : stage.outgoing? s (clock link.elapsed) with
    | some f => simpa only [Session.step, out] using traced.write out
    | none =>
        cases awaited : stage.awaited? with
        | some type => simpa only [Session.step, out, awaited] using traced.read awaited
        | none => simpa only [Session.step, out, awaited] using .inr traced

theorem traced_stepTimes (n : Nat) {state : Stage × Link}
    (h : state.1 = .finished .failed ∨ s.Traced clock patience start state) :
    (s.stepTimes clock patience n state).1 = .finished .failed ∨
      s.Traced clock patience start (s.stepTimes clock patience n state) := by
  induction n generalizing state with
  | zero => exact h
  | succ n ih => exact ih (Traced.step h)

/-- A trace that has come to success authenticates the peer. -/
theorem Traced.authenticated {o : Outcome} {link : Link}
    (h : s.Traced clock patience start (.finished o, link)) (success : o.verdict = .success) :
    s.Authenticated (checkTime clock patience start) start.frames := by
  obtain ⟨sent, heard, progress, handed, _⟩ := h
  obtain ⟨f, g, r, rfl, judged, kind, carried, told⟩ := progress.of_success success
  obtain ⟨now, e, rfl, proofs, encrypted, recognised, signed⟩ := judged
  obtain ⟨known, c, peer, signature⟩ := signature_eq_success_iff.1 signed
  refine ⟨known, ⟨f, e, c, ?_, encrypted, identity_eq_success_iff.1 recognised, peer, signature⟩,
    ⟨g, r, ?_, carried, Verdict.ofCode_eq_success_iff.1 told⟩⟩
  · exact proofs ▸ handed.first f (by simp)
  · exact kind ▸ handed.first g (by simp)

/-- Whatever a peer sends, a run that comes to success has authenticated it. -/
theorem authenticated_of_run (start : Link)
    (success : (s.run clock patience start).1.verdict = .success) :
    s.Authenticated (checkTime clock patience start) start.frames := by
  have ends := traced_stepTimes Stage.opening.remaining
    (.inr (s.traced_opening clock patience start))
  unfold run at success
  split at success
  · next outcome link same =>
      rw [same] at ends
      rcases ends with lost | traced
      · cases lost
        exact nomatch success
      · exact traced.authenticated success
  · exact nomatch success

def knownSender : Session where
  target := { isIncoming := true, isKnown := true }
  token := []
  visibility := .settled .allContacts
  credentials := ⟨fun _ _ => none, fun _ _ => some [1, 2, 3, 4, 5, 6]⟩
  peer := some
    { id := [], notBefore := .epoch, notAfter := .epoch, secretKey := []
      publicKey := (SigningKey.ofSeed 0).publicDer
      metadata := {}, forSelfShare := false }
  filler := ⟨fun _ => 0, 0⟩

def knownProofs : PairedKeyEncryption where
  signedData := some (Ecdsa.Signature.der
    ⟨37924593749757463622582247968657170827837110244450567135858396039586779634573,
      101730936887606143350148535105463110784204194387473066407545435367051284558793⟩)
  secretIdHash := some [1, 2, 3, 4, 5, 6]

/-- The sender's result comes in before its proofs, and octets that are no frame come after them. -/
def knownLink : Link where
  incoming :=
    { arrivals :=
        [.message (Stage.resultFrame knownSender .success).message, .pause 5,
          .message (Stage.encryptionFrame knownProofs).message, .message [255]]
      closes := true }

set_option maxRecDepth 100000 in
theorem authenticated_knownLink :
    (knownSender.run (fun _ => .epoch) 10 knownLink).1.verdict = .success ∧
      knownSender.Authenticated (checkTime (fun _ => .epoch) 10 knownLink) knownLink.frames := by
  have success : (knownSender.run (fun _ => .epoch) 10 knownLink).1.verdict =
    .success := by decide +kernel
  exact ⟨success, authenticated_of_run knownLink success⟩

end Session
end ProximityCert
