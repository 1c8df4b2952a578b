import ProximityCert.Verification.Run

/-!
What the checks of a run establish, and how a run comes to each of its stages. The stages are the
same on every connection, so what is said here of a stage, what it has sent and what its reads have
handed out serves runs over a scripted link and runs over a connection with a peer alike.
-/

namespace ProximityCert

namespace Session

variable {s : Session} {now : Instant} {e : PairedKeyEncryption}

/-- The time from the last change of visibility, below zero for a change that is still to come. -/
def sinceChange (s : Session) (now : Instant) : Int := now.nanos - s.visibility.changedAt.nanos

/-- The peer hashed the token under the secret of the certificate of a visibility. -/
def HashedFor (s : Session) (v : Visibility) (e : PairedKeyEncryption) : Prop :=
  ∃ hash, e.secretIdHash = some hash ∧ s.credentials.tokenHash v s.token = some hash

/-- When the certificate of the previous visibility counts: for a known peer shortly after a change,
and for every sender while everyone may send. -/
def PreviousCounts (s : Session) (now : Instant) : Prop :=
  (s.target.isKnown = true ∧ s.sinceChange now < relaxPeriod) ∨
    (s.target.isIncoming = true ∧ s.visibility.current = .everyone)

/-- The peer knows the certificate of the current visibility, or another one of the previous
visibility while that counts. -/
def Recognised (s : Session) (now : Instant) (e : PairedKeyEncryption) : Prop :=
  s.HashedFor s.visibility.current e ∨
    (s.HashedFor s.visibility.previous e ∧ s.visibility.previous ≠ s.visibility.current ∧
      s.PreviousCounts now)

/-- One of the two signatures is the peer's, over the token behind the mark of the peer's role. -/
def SignedBy (s : Session) (c : DecryptedCertificate) (e : PairedKeyEncryption) : Prop :=
  ∃ signature, (e.signedData = some signature ∨ e.optionalSignedData = some signature) ∧
    c.verify (s.role.opposite.mark :: s.token) signature = true

theorem recentlyChanged_iff :
    s.recentlyChanged now = true ↔ s.target.isKnown = true ∧ s.sinceChange now < relaxPeriod := by
  simp only [recentlyChanged, Bool.and_eq_true, decide_eq_true_eq, and_congr_right_iff]
  intro _
  by_cases past : s.visibility.changedAt ≤ now
  · have : s.visibility.changedAt.nanos ≤ now.nanos := past
    simp only [Instant.since?, if_pos past, Option.getD_some, sinceChange]
    exact Int.toNat_lt (by omega)
  · have : ¬ s.visibility.changedAt.nanos ≤ now.nanos := past
    have positive : (0 : Int) < (relaxPeriod : Nat) := by decide
    simp only [Instant.since?, if_neg past, Option.getD_none, sinceChange]
    exact iff_of_true (by decide) (by omega)

theorem relaxed_iff : s.relaxed now = true ↔ s.PreviousCounts now := by
  simp only [relaxed, Bool.or_eq_true, recentlyChanged_iff, Bool.and_eq_true, decide_eq_true_eq,
    PreviousCounts]

theorem recognises_eq_success_iff {v : Visibility} :
    s.recognises v e = .success ↔ s.HashedFor v e := by
  unfold recognises HashedFor
  cases s.credentials.tokenHash v s.token <;> cases e.secretIdHash <;> simp [eq_comm]

theorem identity_eq_success_iff : s.identity now e = some .success ↔ s.Recognised now e := by
  unfold identity Recognised
  by_cases current : s.recognises s.visibility.current e = .success
  · simp [current, recognises_eq_success_iff.1 current]
  · have unhashed : ¬ s.HashedFor s.visibility.current e :=
      fun h => current (recognises_eq_success_iff.2 h)
    simp only [if_neg current, unhashed, false_or]
    by_cases relaxed : s.relaxed now = true
    · simp only [relaxed, relaxed_iff.1 relaxed, Bool.not_true, Bool.and_false, Bool.false_eq_true,
        if_false, Bool.true_and, decide_eq_true_eq, and_true]
      by_cases changed : s.visibility.previous = s.visibility.current
      · simp [changed, current]
      · simp [changed, recognises_eq_success_iff]
    · have strict : ¬ s.PreviousCounts now := fun h => relaxed (relaxed_iff.2 h)
      have refused : s.relaxed now = false := Bool.eq_false_iff.2 relaxed
      simp only [refused, Bool.not_false, Bool.and_true, Bool.false_and, Bool.false_eq_true,
        if_false, strict, and_false, iff_false]
      split <;> simp [current]

theorem signature_eq_success_iff :
    s.signature e = .success ↔ s.target.isKnown = true ∧ ∃ c, s.peer = some c ∧ s.SignedBy c e := by
  have verified (c : DecryptedCertificate) :
      (s.verifies c e.signedData || s.verifies c e.optionalSignedData) = true ↔ s.SignedBy c e := by
    simp only [verifies, Bool.or_eq_true, Option.any_eq_true, SignedBy, payload]
    constructor
    · rintro (⟨b, sent, good⟩ | ⟨b, sent, good⟩)
      · exact ⟨b, .inl sent, good⟩
      · exact ⟨b, .inr sent, good⟩
    · rintro ⟨b, sent | sent, good⟩
      · exact .inl ⟨b, sent, good⟩
      · exact .inr ⟨b, sent, good⟩
  unfold signature
  cases s.peer with
  | none => simp
  | some c =>
      by_cases signed : s.SignedBy c e
      · simp [(verified c).2 signed, signed]
      · have refused := Bool.eq_false_iff.2 (mt (verified c).1 signed)
        simp [refused, signed]

end Session

/-- A frame brought the peer's proofs, and the checks of them came to the given verdicts. -/
def Session.Judged (s : Session) (checks : Instant → Prop) (f : V1Frame) (identity : Option Verdict)
    (signature : Verdict) : Prop :=
  ∃ now e, checks now ∧ f.frameType = .pairedKeyEncryption ∧ f.encryption = some e ∧
    s.identity now e = identity ∧ s.signature e = signature

/-- Whether a frame carries what its type promises. -/
def V1Frame.Carries (f : V1Frame) : FrameType → Prop
  | .pairedKeyEncryption => f.encryption ≠ none
  | .pairedKeyResult => f.result ≠ none
  | _ => True

namespace Stage

variable {s : Session} {now : Instant} {stage : Stage}

theorem afterSend_false {f : V1Frame} (out : stage.outgoing? s now = some f) :
    stage.afterSend false = .finished .failed := by
  cases stage with
  | opening => rfl
  | rejecting => rfl
  | replying _ _ => rfl
  | awaitingEncryption => exact nomatch out
  | awaitingResult _ _ => exact nomatch out
  | finished _ => exact nomatch out

theorem afterRead_none {type : FrameType} (awaited : stage.awaited? = some type) :
    stage.afterRead s now none = .finished .failed := by
  cases stage with
  | awaitingEncryption => rfl
  | awaitingResult _ _ => rfl
  | opening => exact nomatch awaited
  | rejecting => exact nomatch awaited
  | replying _ _ => exact nomatch awaited
  | finished _ => exact nomatch awaited

/-- A frame that does not carry what its type promises is as good as none. -/
theorem afterRead_bare {type : FrameType} (awaited : stage.awaited? = some type) {f : V1Frame}
    (bare : ¬ f.Carries type) : stage.afterRead s now (some f) = .finished .failed := by
  cases stage with
  | awaitingEncryption =>
      obtain rfl := Option.some.inj awaited
      have missing : f.encryption = none := Classical.not_not.1 bare
      simp [afterRead, missing]
  | awaitingResult _ _ =>
      obtain rfl := Option.some.inj awaited
      have missing : f.result = none := Classical.not_not.1 bare
      simp [afterRead, missing]
  | opening => cases awaited
  | rejecting => cases awaited
  | replying _ _ => cases awaited
  | finished _ => cases awaited

def Ended (stage : Stage) : Prop := stage.remaining = 0

theorem ended_iff {stage : Stage} : stage.Ended ↔ ∃ o, stage = .finished o := by
  cases stage <;> simp [Ended, remaining]

theorem outgoing?_of_ended {stage : Stage} (h : stage.Ended) (s : Session) (now : Instant) :
    stage.outgoing? s now = none := by
  obtain ⟨o, rfl⟩ := ended_iff.1 h
  rfl

theorem awaited?_of_running {s : Session} {now : Instant} {stage : Stage} (running : ¬ stage.Ended)
    (silent : stage.outgoing? s now = none) : ∃ type, stage.awaited? = some type := by
  cases stage with
  | awaitingEncryption => exact ⟨_, rfl⟩
  | awaitingResult _ _ => exact ⟨_, rfl⟩
  | finished _ => exact (running rfl).elim
  | opening => exact nomatch silent
  | rejecting => exact nomatch silent
  | replying _ _ => exact nomatch silent

/-- A run does not end with the peer's proofs. -/
theorem running_afterRead {stage : Stage} (awaited : stage.awaited? = some .pairedKeyEncryption)
    {f : V1Frame} (carries : f.Carries .pairedKeyEncryption) {s : Session} {now : Instant} :
    ¬ (stage.afterRead s now (some f)).Ended := by
  obtain rfl : stage = .awaitingEncryption := by
    cases stage <;> first | rfl | exact nomatch awaited
  obtain ⟨e, carried⟩ := Option.ne_none_iff_exists'.1 carries
  simp only [afterRead, Option.bind_some, carried, Ended]
  cases s.identity now e <;> simp [remaining]

theorem awaited?_of_ended {stage : Stage} (h : stage.Ended) : stage.awaited? = none := by
  obtain ⟨o, rfl⟩ := ended_iff.1 h
  rfl

theorem running_of_outgoing {f : V1Frame} (out : stage.outgoing? s now = some f) :
    ¬ stage.Ended := by
  intro ended
  rw [Stage.outgoing?_of_ended ended] at out
  exact nomatch out

theorem running_of_awaited {type : FrameType} (awaited : stage.awaited? = some type) :
    ¬ stage.Ended := by
  intro ended
  rw [Stage.awaited?_of_ended ended] at awaited
  exact nomatch awaited

end Stage

open Stage in
/-- How a run comes to a stage, with the frames it has sent and those its reads have handed out, unless
a write fails or a read ends without a frame. It draws up its own proofs at a time in `opens` and
checks the peer's at one in `checks`. -/
inductive Progress (s : Session) (opens checks : Instant → Prop) :
    Stage → (sent heard : List V1Frame) → Prop
  | opening : Progress s opens checks .opening [] []
  | awaitingEncryption {t} : opens t →
      Progress s opens checks .awaitingEncryption [encryptionFrame (s.encryption t)] []
  | rejecting {t f σ} : opens t → s.Judged checks f none σ →
      Progress s opens checks .rejecting [encryptionFrame (s.encryption t)] [f]
  | replying {t f i σ} : opens t → s.Judged checks f (some i) σ →
      Progress s opens checks (.replying i σ) [encryptionFrame (s.encryption t)] [f]
  | awaitingResult {t f i σ} : opens t → s.Judged checks f (some i) σ →
      Progress s opens checks (.awaitingResult i σ)
        [encryptionFrame (s.encryption t), resultFrame s (.merge [i, σ])] [f]
  | rejected {t f σ} : opens t → s.Judged checks f none σ →
      Progress s opens checks (.finished .failed)
        [encryptionFrame (s.encryption t), resultFrame s .fail] [f]
  | concluded {t f i σ g r} : opens t → s.Judged checks f (some i) σ →
      g.frameType = .pairedKeyResult →
      g.result = some r →
      Progress s opens checks (.finished (conclude i σ r))
        [encryptionFrame (s.encryption t), resultFrame s (.merge [i, σ])] [f, g]

namespace Progress

variable {s : Session} {opens checks : Instant → Prop} {stage : Stage} {sent heard : List V1Frame}
    {now : Instant}

theorem afterSend (h : Progress s opens checks stage sent heard) {f : V1Frame}
    (out : stage.outgoing? s now = some f) (time : stage = .opening → opens now) :
    Progress s opens checks (stage.afterSend true) (sent ++ [f]) heard := by
  cases h with
  | opening =>
      obtain rfl := Option.some.inj out
      exact .awaitingEncryption (time rfl)
  | rejecting opened judged =>
      obtain rfl := Option.some.inj out
      exact .rejected opened judged
  | replying opened judged =>
      obtain rfl := Option.some.inj out
      exact .awaitingResult opened judged
  | awaitingEncryption _ => exact nomatch out
  | awaitingResult _ _ => exact nomatch out
  | rejected _ _ => exact nomatch out
  | concluded _ _ _ _ => exact nomatch out

theorem afterRead (h : Progress s opens checks stage sent heard) {type : FrameType} {f : V1Frame}
    (awaited : stage.awaited? = some type) (kind : f.frameType = type) (carries : f.Carries type)
    (time : stage = .awaitingEncryption → checks now) :
    Progress s opens checks (stage.afterRead s now (some f)) sent (heard ++ [f]) := by
  cases h with
  | awaitingEncryption opened =>
      obtain rfl := Option.some.inj awaited
      obtain ⟨e, carried⟩ := Option.ne_none_iff_exists'.1 carries
      have judged : s.Judged checks f (s.identity now e) (s.signature e) :=
        ⟨now, e, time rfl, kind, carried, rfl, rfl⟩
      simp only [Stage.afterRead, Option.bind_some, carried]
      cases verdict : s.identity now e with
      | none => exact .rejecting opened (verdict ▸ judged)
      | some i => exact .replying opened (verdict ▸ judged)
  | awaitingResult opened judged =>
      obtain rfl := Option.some.inj awaited
      obtain ⟨r, carried⟩ := Option.ne_none_iff_exists'.1 carries
      simp only [Stage.afterRead, Option.bind_some, carried]
      exact .concluded opened judged kind carried
  | opening => cases awaited
  | rejecting _ _ => cases awaited
  | replying _ _ => cases awaited
  | rejected _ _ => cases awaited
  | concluded _ _ _ _ => cases awaited

/-- No frame of the type that a stage awaits has been read before. -/
theorem unheard (h : Progress s opens checks stage sent heard) {type : FrameType}
    (awaited : stage.awaited? = some type) : ∀ f ∈ heard, f.frameType ≠ type := by
  cases h with
  | awaitingEncryption _ => exact fun _ member => (List.not_mem_nil member).elim
  | awaitingResult _ judged =>
      obtain rfl := Option.some.inj awaited
      obtain ⟨_, _, _, kind, _⟩ := judged
      simp [kind]
  | opening => exact nomatch awaited
  | rejecting _ _ => exact nomatch awaited
  | replying _ _ => exact nomatch awaited
  | rejected _ _ => exact nomatch awaited
  | concluded _ _ _ _ => exact nomatch awaited

/-- A run sends its proofs first and its verdict second. -/
theorem sent_shape (h : Progress s opens checks stage sent heard) :
    sent = [] ∨ ∃ t, opens t ∧ (sent = [Stage.encryptionFrame (s.encryption t)] ∨
      ∃ v, sent = [Stage.encryptionFrame (s.encryption t), Stage.resultFrame s v]) := by
  cases h with
  | opening => exact .inl rfl
  | awaitingEncryption opened => exact .inr ⟨_, opened, .inl rfl⟩
  | rejecting opened _ => exact .inr ⟨_, opened, .inl rfl⟩
  | replying opened _ => exact .inr ⟨_, opened, .inl rfl⟩
  | awaitingResult opened _ => exact .inr ⟨_, opened, .inr ⟨_, rfl⟩⟩
  | rejected opened _ => exact .inr ⟨_, opened, .inr ⟨_, rfl⟩⟩
  | concluded opened _ _ _ => exact .inr ⟨_, opened, .inr ⟨_, rfl⟩⟩

/-- A run that still has something to send has neither sent nor heard a verdict. -/
theorem of_outgoing (h : Progress s opens checks stage sent heard) {now : Instant} {f : V1Frame}
    (out : stage.outgoing? s now = some f) : sent.length < 2 ∧ heard.length < 2 := by
  cases h with
  | opening => simp
  | rejecting _ _ => simp
  | replying _ _ => simp
  | awaitingEncryption _ => exact nomatch out
  | awaitingResult _ _ => exact nomatch out
  | rejected _ _ => exact nomatch out
  | concluded _ _ _ _ => exact nomatch out

/-- A run first hears the peer's proofs, then its verdict. -/
theorem of_awaited (h : Progress s opens checks stage sent heard) {type : FrameType}
    (awaited : stage.awaited? = some type) :
    (type = .pairedKeyEncryption ∧ heard = []) ∨ (type = .pairedKeyResult ∧ heard.length = 1) := by
  cases h with
  | awaitingEncryption _ => exact .inl ⟨(Option.some.inj awaited).symm, rfl⟩
  | awaitingResult _ _ => exact .inr ⟨(Option.some.inj awaited).symm, rfl⟩
  | opening => exact nomatch awaited
  | rejecting _ _ => exact nomatch awaited
  | replying _ _ => exact nomatch awaited
  | rejected _ _ => exact nomatch awaited
  | concluded _ _ _ _ => exact nomatch awaited

/-- A run that awaits a frame has sent one more than it has heard. -/
theorem length_sent_of_awaited (h : Progress s opens checks stage sent heard) {type : FrameType}
    (awaited : stage.awaited? = some type) : sent.length = heard.length + 1 := by
  cases h with
  | awaitingEncryption _ => rfl
  | awaitingResult _ _ => rfl
  | opening => exact nomatch awaited
  | rejecting _ _ => exact nomatch awaited
  | replying _ _ => exact nomatch awaited
  | rejected _ _ => exact nomatch awaited
  | concluded _ _ _ _ => exact nomatch awaited

theorem length_sent_of_finished {o : Outcome}
    (h : Progress s opens checks (.finished o) sent heard) :
    sent.length = 2 := by
  cases h with
  | rejected _ _ => rfl
  | concluded _ _ _ _ => rfl

/-- A frame that one run has sent and the other hears next is of the type that the other awaits. -/
theorem next_frame {s' : Session} {opens' checks' : Instant → Prop} {stage' : Stage}
    {heard' pending : List V1Frame}
    {f : V1Frame} (h : Progress s opens checks stage (heard' ++ f :: pending) heard)
    {sent' : List V1Frame} (h' : Progress s' opens' checks' stage' sent' heard') {type : FrameType}
    (awaited : stage'.awaited? = some type) :
    f.frameType = type ∧ f.Carries type := by
  have encryption (t : Instant) : (Stage.encryptionFrame (s.encryption t)).frameType =
    .pairedKeyEncryption := rfl
  have result (v : Verdict) : (Stage.resultFrame s v).frameType = .pairedKeyResult := rfl
  rcases h'.of_awaited awaited with ⟨rfl, rfl⟩ | ⟨rfl, single⟩
  · rcases h.sent_shape with none | ⟨t, _, one | ⟨v, two⟩⟩
    · exact nomatch none
    · obtain ⟨rfl, _⟩ := List.cons.inj one
      exact ⟨encryption t, Option.some_ne_none _⟩
    · obtain ⟨rfl, _⟩ := List.cons.inj two
      exact ⟨encryption t, Option.some_ne_none _⟩
  · obtain ⟨g, rfl⟩ := List.length_eq_one_iff.1 single
    rcases h.sent_shape with none | ⟨t, _, one | ⟨v, two⟩⟩
    · exact nomatch none
    · exact nomatch (List.cons.inj one).2
    · obtain ⟨rfl, _⟩ := List.cons.inj (List.cons.inj two).2
      exact ⟨result v, Option.some_ne_none _⟩

open Stage in
/-- A run that has ended has rejected its peer, or has heard the peer's verdict and told its own. -/
theorem of_finished {o : Outcome} (h : Progress s opens checks (.finished o) sent heard) :
    (o = .failed ∧ heard.length < 2 ∧ ∃ t, sent =
      [encryptionFrame (s.encryption t), resultFrame s .fail]) ∨
      ∃ t f i σ g r, sent = [encryptionFrame (s.encryption t), resultFrame s (.merge [i, σ])] ∧
        heard = [f, g] ∧
        s.Judged checks f (some i) σ ∧ g.result = some r ∧ o = conclude i σ r := by
  cases h with
  | @rejected t f σ _ _ => exact .inl ⟨rfl, by simp, t, rfl⟩
  | @concluded t f i σ g r _ judged _ carried =>
      exact .inr ⟨t, f, i, σ, g, r, rfl, rfl, judged, carried, rfl⟩

/-- A run that ends in success has judged one frame of proofs successfully, and has read one frame with
the verdict that the peer came to, a success. -/
theorem of_success {o : Outcome} (h : Progress s opens checks (.finished o) sent heard)
    (success : o.verdict = .success) :
    ∃ f g r, heard = [f, g] ∧ s.Judged checks f (some .success) .success ∧
      g.frameType = .pairedKeyResult ∧
      g.result = some r ∧ Verdict.ofCode r.status = .success := by
  cases h with
  | rejected _ _ => exact nomatch success
  | @concluded t f i σ g r opened judged kind carried =>
      have all := Verdict.merge_eq_success_iff.1 success
      have own : i = .success := all i (by simp)
      have signed : σ = .success := all σ (by simp)
      subst own signed
      exact ⟨f, g, r, rfl, judged, kind, carried, all _ (by simp)⟩

end Progress
end ProximityCert
