import ProximityCert.Manager.Fixed
import ProximityCert.Proofs.Certificate.Keys
import ProximityCert.Proofs.Outcomes
import ProximityCert.Proofs.Verification.Agreement

/-!
Devices that hold each other's certificates verify each other. It is enough that either device uses
the certificate that its peer holds for its current visibility, or for the previous one while the
change is recent; which of the two it is need not be the same on both sides, and a restriction to
contacts does not matter.
-/

namespace ProximityCert

/-- What is assumed of the curve: a key signs a payload, and its public key accepts the signature. -/
def SigningKey.Signs (k : SigningKey) (payload : Bytes) : Prop :=
  ∃ signature, k.sign payload = some signature ∧ verify k.publicDer payload signature = true

/-- A manager uses a certificate for a visibility. -/
structure Credentials.Uses (m : Credentials) (v : Visibility) (c : PrivateCertificate) : Prop where
  sign : ∀ payload, m.sign (Session.signingVisibility v) payload = c.sign payload
  tokenHash : ∀ token, m.tokenHash v token = some (c.tokenHash token)

/-- The certificate that a manager finds for a visibility is the one it uses; everyone is served like
all contacts. -/
theorem FixedManager.uses {m : FixedManager} {v : Visibility} {c : PrivateCertificate}
    (found : m.certificate? v = some c) :
    m.credentials.Uses v c where
  sign payload := by
    have served : (Session.signingVisibility v).certificate? = v.certificate? := by cases v <;> rfl
    have same : m.certificate? (Session.signingVisibility v) = some c := by
      rw [certificate?, served]
      exact found
    have answer : m.credentials.sign (Session.signingVisibility v) payload =
        (m.certificate? (Session.signingVisibility v)).bind fun c => c.sign payload := rfl
    rw [answer, same, Option.bind_some]
  tokenHash token := by
    have answer : m.credentials.tokenHash v token = (m.certificate? v).map fun c =>
      c.tokenHash token := rfl
    rw [answer, found, Option.map_some]

/-- Signatures with certificates are short, so a manager of certificates leaves every session writable. -/
theorem FixedManager.writable {m : FixedManager} {s : Session}
    (answers : s.credentials = m.credentials) : s.Writable := by
  refine Session.writable_of_short (m := 84) (by decide) fun v payload b signed => ?_
  have answer : s.credentials.sign v payload = (m.certificate? v).bind fun c => c.sign payload := by
    rw [answers]
    rfl
  rw [answer, Option.bind_eq_some_iff] at signed
  obtain ⟨c, _, signed⟩ := signed
  exact (c.signingKey.length_sign_le signed).2

/-- A certificate that was opened is the public side of a private one. -/
structure DecryptedCertificate.IsOf (d : DecryptedCertificate) (c : PrivateCertificate) : Prop where
  id : d.id = c.id
  secretKey : d.secretKey = c.secretKey
  publicKey : d.publicKey = c.signingKey.publicDer

/-- Whoever opens the public form of a certificate holds its public side. -/
theorem DecryptedCertificate.isOf_of_ofPublic {c : PrivateCertificate} {before after : Duration}
    {p : PublicCertificate} {key : EncryptedMetadataKey} {d : DecryptedCertificate}
    (published : c.toPublic before after = .ok (some p))
    (opened : ofPublic p key = .ok (some d)) : d.IsOf c := by
  have kept : p.secretId = c.id ∧ p.secretKey = c.secretKey ∧
    p.publicKey = c.signingKey.publicDer := by
    unfold PrivateCertificate.toPublic at published
    split at published
    · cases published
    · obtain ⟨stop, _, form⟩ := map_eq_ok.1 published
      cases form
      exact ⟨rfl, rfl, rfl⟩
  have same : d.id = p.secretId ∧ d.secretKey = p.secretKey ∧ d.publicKey = p.publicKey := by
    unfold ofPublic at opened
    split at opened
    · cases opened
    · obtain ⟨notBefore, _, opened⟩ := bind_eq_ok.1 opened
      split at opened
      · cases opened
      · obtain ⟨notAfter, _, opened⟩ := bind_eq_ok.1 opened
        split at opened
        · cases opened
        · obtain ⟨metadata, _, rfl⟩ := Option.map_eq_some_iff.1 (Except.ok.inj opened)
          exact ⟨rfl, rfl, rfl⟩
  exact ⟨same.1.trans kept.1, same.2.1.trans kept.2.1, same.2.2.trans kept.2.2⟩

namespace Session

variable {s t : Session} {c : PrivateCertificate} {times : Instant → Prop} {now : Instant}

/-- A session uses a certificate for its current visibility, or for the previous one, and then the
visibility has changed recently at all the times that matter. -/
def Serves (s : Session) (times : Instant → Prop) (c : PrivateCertificate) : Prop :=
  s.credentials.Uses s.visibility.current c ∨
    (s.credentials.Uses s.visibility.previous c ∧ ∀ now, times now →
      s.sinceChange now < relaxPeriod)

/-- What a session needs to show its peer that it is who the peer knows. -/
structure Shows (s t : Session) (times : Instant → Prop) (c : PrivateCertificate) : Prop where
  serves : s.Serves times c
  held : ∃ k, t.peer = some k ∧ k.IsOf c
  signs : c.signingKey.Signs (s.role.mark :: s.token)

theorem orFiller_of_length {n : Nat} {proof : Bytes} (nonempty : 0 < proof.length) (e : Entropy) :
    (orFiller n (some proof) e).1 = proof := by
  cases proof with
  | nil => exact (Nat.lt_irrefl 0 nonempty).elim
  | cons b bs => rfl

/-- The proofs of a session contain a signature with the certificate that it uses. -/
theorem Serves.signed (h : s.Serves times c) (known : s.target.isKnown = true) (time : times now)
    {signature : Bytes}
    (signed : c.sign (s.role.mark :: s.token) = some signature) (nonempty : 0 < signature.length) :
    (s.encryption now).signedData = some signature ∨
      (s.encryption now).optionalSignedData = some signature := by
  rcases h with current | ⟨previous, recent⟩
  · have answer : s.credentials.sign (signingVisibility s.visibility.current) (s.payload s.role) =
      some signature :=
      (current.sign _).trans signed
    exact .inl (by simp only [encryption, answer, orFiller_of_length nonempty])
  · have answer : s.credentials.sign (signingVisibility s.visibility.previous) (s.payload s.role) =
      some signature :=
      (previous.sign _).trans signed
    have changed : s.recentlyChanged now = true := recentlyChanged_iff.2 ⟨known, recent now time⟩
    exact .inr (by simp only [encryption, changed, if_true, answer])

/-- A session recognises itself in the hash that a peer makes with the certificate that it uses. -/
theorem Serves.recognised (h : s.Serves times c) (known : s.target.isKnown = true)
    (time : times now)
    {e : PairedKeyEncryption} (hashed : e.secretIdHash = some (c.tokenHash s.token)) :
    s.Recognised now e := by
  rcases h with current | ⟨previous, recent⟩
  · exact .inl ⟨_, hashed, current.tokenHash s.token⟩
  · have fits : s.HashedFor s.visibility.previous e := ⟨_, hashed, previous.tokenHash s.token⟩
    by_cases same : s.visibility.previous = s.visibility.current
    · exact .inl (same ▸ fits)
    · exact .inr ⟨fits, same, .inl ⟨known, recent now time⟩⟩

theorem secretIdHash_encryption {k : DecryptedCertificate} (held : s.peer = some k)
    (now : Instant) :
    (s.encryption now).secretIdHash = some (k.tokenHash s.token) := by
  have nonempty : 0 < (k.tokenHash s.token).length := by
    rw [DecryptedCertificate.tokenHash, Material.length_tokenHash]
    decide
  simp only [encryption, held, Option.map_some, orFiller_of_length nonempty]

/-- A session that checks at certain times accepts all proofs that another draws up at its times. -/
def Accepts (s t : Session) (times times' : Instant → Prop) : Prop :=
  ∀ now now', times now → times' now' →
    s.identity now (t.encryption now') = some .success ∧ s.signature (t.encryption now') = .success

/-- Two sessions that show themselves to each other pass each other's checks. -/
theorem Shows.accepts {times' : Instant → Prop} {c' : PrivateCertificate} (h : s.Shows t times c)
    (h' : t.Shows s times' c') (roles : s.role = t.role.opposite) (token : s.token = t.token)
    (known : s.target.isKnown = true ∧ t.target.isKnown = true) : t.Accepts s times' times := by
  intro now' now time' time
  obtain ⟨k, held, secret⟩ := h'.held
  obtain ⟨k', held', side⟩ := h.held
  obtain ⟨signature, signed, verified⟩ := h.signs
  refine ⟨identity_eq_success_iff.2 (h'.serves.recognised known.2 time' ?_),
    signature_eq_success_iff.2 ⟨known.2, k', held', signature, ?_, ?_⟩⟩
  · rw [secretIdHash_encryption held, DecryptedCertificate.tokenHash, secret.secretKey, token]
    rfl
  · exact h.serves.signed known.1 time signed (c.signingKey.length_sign_le signed).1
  · rw [← roles, ← token, DecryptedCertificate.verify, side.publicKey]
    exact verified

end Session

namespace Ledger

variable {sessions : Side → Session} {times : Side → Instant → Prop} {refusal : Prop} {x : Exchange}
  {sent heard : Side → List V1Frame} {i : Side}

theorem proofs_heard (h : Ledger sessions times refusal x sent heard) {stage : Stage}
    (peer : Progress (sessions i.other) (times i.other) (times i.other) stage (sent i.other)
      (heard i.other)) {f : V1Frame} {rest : List V1Frame} (listened : heard i = f :: rest) :
    ∃ t, times i.other t ∧ f = Stage.encryptionFrame ((sessions i.other).encryption t) := by
  obtain ⟨pending, flow, _⟩ := h.channel i
  rw [listened] at flow
  rcases peer.sent_shape with none | ⟨t, time, one | ⟨v, two⟩⟩
  · exact nomatch none.symm.trans flow
  · exact ⟨t, time, (List.cons.inj (one.symm.trans flow)).1.symm⟩
  · exact ⟨t, time, (List.cons.inj (two.symm.trans flow)).1.symm⟩

/-- A side that accepts all proofs its peer may draw up has accepted those it heard. -/
theorem judged_success (h : Ledger sessions times refusal x sent heard) {stage : Stage}
    (peer : Progress (sessions i.other) (times i.other) (times i.other) stage (sent i.other)
      (heard i.other))
    (accepts : (sessions i).Accepts (sessions i.other) (times i) (times i.other))
    {f : V1Frame} {rest : List V1Frame} (listened : heard i = f :: rest) {identity : Option Verdict}
    {signature : Verdict} (judged : (sessions i).Judged (times i) f identity signature) :
    identity = some .success ∧ signature = .success := by
  obtain ⟨t, drawn, rfl⟩ := h.proofs_heard peer listened
  obtain ⟨now, e, checked, _, carried, rfl, rfl⟩ := judged
  obtain rfl := Option.some.inj carried
  exact accepts now t checked drawn

theorem not_rejecting (h : Ledger sessions times refusal x sent heard)
    (accepts : (sessions i).Accepts (sessions i.other) (times i) (times i.other)) :
    (x.party i).stage ≠ .rejecting := by
  intro rejecting
  have running : ¬ (x.party i).stage.Ended := by
    rw [rejecting]
    exact nofun
  have progress := h.progress running
  rw [rejecting] at progress
  generalize listened : heard i = mine at progress
  generalize sent i = ours at progress
  cases progress with
  | rejecting _ judged =>
      exact nomatch (h.judged_success (h.progress_other running) accepts listened judged).1

/-- Two sides that accept each other's proofs have both come to success, once their runs have ended. -/
theorem verdict_eq_success (h : Ledger sessions times refusal x sent heard) (orderly : ¬ refusal)
    {o p : Outcome} (here : (x.party i).stage = .finished o)
    (there : (x.party i.other).stage = .finished p)
    (accepts : ∀ i, (sessions i).Accepts (sessions i.other) (times i) (times i.other)) :
    o.verdict = .success := by
  obtain ⟨f, g, v, σ, f', g', v', σ', listened, judged, listened', judged', rfl⟩ :=
    h.orderly_outcome orderly here there
  have mine := (h.orderly_progress orderly here).1
  have theirs := (h.orderly_progress orderly there).1
  obtain ⟨own, rfl⟩ := h.judged_success theirs (accepts i) listened judged
  obtain ⟨own', rfl⟩ := h.judged_success (i := i.other) ((Side.other_other i).symm ▸ mine)
    (accepts i.other) listened' judged'
  obtain rfl := Option.some.inj own
  obtain rfl := Option.some.inj own'
  rfl

end Ledger

namespace Exchange

/-- The times at which a side draws up its proofs or waits to check the peer's. -/
def Checks (x : Exchange) (moves : Nat → Move) (i : Side) (now : Instant) : Prop :=
  ∃ n, moves n = .step i now ∧
    (((x.after moves n).party i).stage = .opening ∨
      ((x.after moves n).party i).stage = .awaitingEncryption)

/-- A sender and a receiver that know each other and hold a certificate that the other uses verify each
other, in whatever order they take their steps. -/
theorem completeness {a b : Session} {c d : PrivateCertificate} (writable : a.Writable ∧ b.Writable)
    {moves : Nat → Move} (fair : Fair moves)
    (roles : a.target.isIncoming = false ∧ b.target.isIncoming = true)
    (token : a.token = b.token) (known : a.target.isKnown = true ∧ b.target.isKnown = true)
    (first : a.Shows b (Checks (begin a b) moves .first) c)
      (second : b.Shows a (Checks (begin a b) moves .second) d) :
    ∃ n o p, (∀ d, ((begin a b).after moves (n + d)).outcome? .first = some o ∧
        ((begin a b).after moves (n + d)).outcome? .second = some p) ∧
      o.verdict = .success ∧ p.verdict = .success := by
  have sender : a.role = .sender := by simp [Session.role, roles.1]
  have receiver : b.role = .receiver := by simp [Session.role, roles.2]
  have accepts (i : Side) : (Side.pair a b i).Accepts (Side.pair a b i.other)
      (Checks (begin a b) moves i) (Checks (begin a b) moves i.other) := by
    cases i with
    | first => exact second.accepts first (by rw [sender, receiver]; rfl) token.symm known.symm
    | second => exact first.accepts second (by rw [sender, receiver]; rfl) token known
  have ledgers := Ledger.after writable moves (Checks (begin a b) moves)
    (∃ m i, (((begin a b).after moves m).party i).stage = .rejecting)
    (fun n i now step early => ⟨n, step, early⟩) (fun m i rejecting => ⟨m, i, rejecting⟩)
  have orderly : ¬ ∃ m i, (((begin a b).after moves m).party i).stage = .rejecting := by
    rintro ⟨m, i, rejecting⟩
    obtain ⟨sent, heard, ledger⟩ := ledgers m
    exact ledger.not_rejecting (accepts i) rejecting
  have each : ∀ i, (Side.pair a b i).Writable := Side.both .first writable.1 writable.2
  obtain ⟨n, o, p, ended, ended'⟩ := exists_outcomes each ledgers fair
  obtain ⟨sent, heard, ledger⟩ := ledgers n
  exact ⟨n, o, p, fun d => ⟨outcome?_after ended d, outcome?_after ended' d⟩,
    ledger.verdict_eq_success orderly ended ended' accepts,
    Ledger.verdict_eq_success (i := .second) ledger orderly ended' ended accepts⟩

def senderCertificate : PrivateCertificate where
  visibility := .allContacts
  notBefore := .epoch
  notAfter := .epoch
  signingKey := .ofSeed 0
  secretKey := List.replicate 32 1
  metadataKey := List.replicate 14 1
  id := [1]
  metadata := {}
  consumedSalts := .empty
  secretKey_length := rfl
  metadataKey_length := rfl

def receiverCertificate : PrivateCertificate :=
  { senderCertificate with visibility := .selectedContacts, signingKey := .ofSeed 1, id := [2] }

/-- What a peer holds that has opened a certificate. -/
def disclosed (c : PrivateCertificate) : DecryptedCertificate :=
  { id := c.id, notBefore := c.notBefore, notAfter := c.notAfter, secretKey := c.secretKey
    publicKey := c.signingKey.publicDer, metadata := c.metadata, forSelfShare := false }

/-- Everyone may see the sender, which uses its certificate for all contacts. -/
def visibleSender : Session where
  target := { isIncoming := false, isKnown := true }
  token := [7]
  visibility := .settled .everyone
  credentials := FixedManager.credentials { privates := [senderCertificate] }
  peer := some (disclosed receiverCertificate)
  restrictToContacts := true
  filler := ⟨fun _ => 0, 0⟩

/-- The receiver has just been hidden, and has no certificate for that. -/
def hiddenReceiver : Session where
  target := { isIncoming := true, isKnown := true }
  token := [7]
  visibility := ⟨.hidden, .selectedContacts, .epoch⟩
  credentials := FixedManager.credentials { privates := [receiverCertificate] }
  peer := some (disclosed senderCertificate)
  restrictToContacts := true
  filler := ⟨fun _ => 0, 0⟩

set_option maxRecDepth 100000 in
theorem signs_sender : senderCertificate.signingKey.Signs [1, 7] :=
  ⟨Ecdsa.Signature.der
    ⟨47266055928225806726459971426082703483956976098734494552730382797667430729406,
      23751057296914801538263813498425674582418254165319536613107678882818775377555⟩,
    by decide +kernel, by decide +kernel⟩

set_option maxRecDepth 100000 in
theorem signs_receiver : receiverCertificate.signingKey.Signs [2, 7] :=
  ⟨Ecdsa.Signature.der
    ⟨86759394716894987130427615871553462691665007666150264865073726501870820418696,
      82998099565297075902906402620918626231076965474931277289070298910305785005476⟩,
    by decide +kernel, by decide +kernel⟩

theorem completeness_hiddenReceiver :
    ∃ n o p,
      (∀ d, ((begin visibleSender hiddenReceiver).after alternating (n + d)).outcome? .first = some o ∧
        ((begin visibleSender hiddenReceiver).after alternating (n + d)).outcome? .second = some p) ∧
      o.verdict = .success ∧ p.verdict = .success := by
  have writable := And.intro (FixedManager.writable (s := visibleSender) rfl)
    (FixedManager.writable (s := hiddenReceiver) rfl)
  have fromSender (times : Instant → Prop) :
    visibleSender.Shows hiddenReceiver times senderCertificate :=
    ⟨.inl (FixedManager.uses rfl), ⟨_, rfl, rfl, rfl, rfl⟩, signs_sender⟩
  have fromReceiver : hiddenReceiver.Shows visibleSender
      (Checks (begin visibleSender hiddenReceiver) alternating .second) receiverCertificate := by
    refine ⟨.inr ⟨FixedManager.uses rfl, ?_⟩, ⟨_, rfl, rfl, rfl, rfl⟩, signs_receiver⟩
    rintro now ⟨n, step, _⟩
    obtain ⟨_, rfl⟩ := Move.step.inj step
    decide
  exact completeness writable fair_alternating ⟨rfl, rfl⟩ rfl ⟨rfl, rfl⟩ (fromSender _) fromReceiver

end Exchange
end ProximityCert
