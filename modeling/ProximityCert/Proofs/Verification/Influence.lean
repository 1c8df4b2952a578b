import ProximityCert.Manager.Loop
import ProximityCert.Proofs.Outcomes
import ProximityCert.Proofs.Verification.Soundness

/-!
What a run shows of the device that makes it. A peer sees the frames that are sent, and what becomes
of them is decided by the checks of the first frame of proofs that it has sent itself; two sessions
that draw up the same proofs and judge those of the peer alike cannot be told apart by any peer.
Once a change of visibility is not recent, the visibility before it leaves a run alone, save that of
a device which receives from everyone; and a device that is hidden shows none of its certificates.
-/

namespace ProximityCert

/-- The proofs in the first frame of proofs on a link. -/
def Link.Proofs (l : Link) (e : PairedKeyEncryption) : Prop :=
  ∃ f, l.frames.find? (fun f => f.frameType = .pairedKeyEncryption) = some f ∧ f.encryption = some e

namespace Session

variable {s s' : Session} {clock clock' : Duration → Instant} {patience : Duration} {start : Link}

/-- The proofs that two sessions send over a link, and what they make of those they are sent, are the
same. -/
structure Alike (s s' : Session) (clock clock' : Duration → Instant) (patience : Duration)
    (start : Link) : Prop where
  osType : s.osType = s'.osType
  encryption : s.encryption (clock start.elapsed) = s'.encryption (clock' start.elapsed)
  identity : ∀ e, start.Proofs e → s.identity (checkTime clock patience start) e =
    s'.identity (checkTime clock' patience start) e
  signature : ∀ e, start.Proofs e → s.signature e = s'.signature e

theorem Alike.outgoing? (h : Alike s s' clock clock' patience start) {stage : Stage} {link : Link}
    (unread : stage = .opening → link.elapsed = start.elapsed) :
    stage.outgoing? s (clock link.elapsed) = stage.outgoing? s' (clock' link.elapsed) := by
  cases stage with
  | opening => rw [unread rfl, Stage.outgoing?, Stage.outgoing?, h.encryption]
  | rejecting => simp only [Stage.outgoing?, Stage.resultFrame, h.osType]
  | replying _ _ => simp only [Stage.outgoing?, Stage.resultFrame, h.osType]
  | awaitingEncryption => rfl
  | awaitingResult _ _ => rfl
  | finished _ => rfl

theorem Alike.afterRead (h : Alike s s' clock clock' patience start) {stage : Stage}
    {type : FrameType} (awaited : stage.awaited? = some type) {link : Link}
    (unread : stage = .awaitingEncryption → ∃ messages, link = { start with sent := messages }) :
    stage.afterRead s (clock (link.read type patience).2.elapsed) (link.read type patience).1 =
      stage.afterRead s' (clock' (link.read type patience).2.elapsed)
        (link.read type patience).1 := by
  cases stage with
  | awaitingEncryption =>
      obtain rfl := Option.some.inj awaited
      obtain ⟨messages, rfl⟩ := unread rfl
      cases found : (Link.read { start with sent := messages } .pairedKeyEncryption patience).1 with
      | none => rfl
      | some f =>
          cases carried : f.encryption with
          | none => simp only [Stage.afterRead, Option.bind_some, carried]
          | some e =>
              have first : start.Proofs e := ⟨f, (Link.taken_of_read found).find?, carried⟩
              -- The proofs are judged when they have been read, whatever was sent before.
              have identity (messages : List Bytes) :
                  s.identity (clock (Link.read { start with sent := messages }
                    .pairedKeyEncryption patience).2.elapsed) e =
                  s'.identity (clock' (Link.read { start with sent := messages }
                    .pairedKeyEncryption patience).2.elapsed) e := h.identity e first
              simp only [Stage.afterRead, Option.bind_some, carried, h.signature e first, identity]
  | awaitingResult _ _ => rfl
  | opening => cases awaited
  | rejecting => cases awaited
  | replying _ _ => cases awaited
  | finished _ => cases awaited

theorem Alike.step (h : Alike s s' clock clock' patience start) {state : Stage × Link}
    (traced : state.1 = .finished .failed ∨ s.Traced clock patience start state) :
    s.step clock patience state = s'.step clock' patience state := by
  obtain ⟨stage, link⟩ := state
  have unread (early : stage = .opening ∨ stage = .awaitingEncryption) :
      ∃ messages, link = { start with sent := messages } := by
    rcases traced with lost | ⟨_, _, _, _, untouched⟩
    · rcases early with rfl | rfl <;> cases lost
    · exact untouched early
  have out : stage.outgoing? s (clock link.elapsed) = stage.outgoing? s' (clock' link.elapsed) := by
    refine h.outgoing? fun opening => ?_
    obtain ⟨_, rfl⟩ := unread (.inl opening)
    rfl
  cases own : stage.outgoing? s' (clock' link.elapsed) with
  | some f => simp only [Session.step, out, own]
  | none =>
      cases awaited : stage.awaited? with
      | none => simp only [Session.step, out, own, awaited]
      | some type =>
          have read := h.afterRead awaited fun waiting => unread (.inr waiting)
          simp only [Session.step, out, own, awaited, read]

theorem Alike.stepTimes (h : Alike s s' clock clock' patience start) (n : Nat)
    {state : Stage × Link}
    (traced : state.1 = .finished .failed ∨ s.Traced clock patience start state) :
    s.stepTimes clock patience n state = s'.stepTimes clock' patience n state := by
  induction n generalizing state with
  | zero => rfl
  | succ n ih =>
      rw [Session.stepTimes, Session.stepTimes, ← h.step traced]
      exact ih (Traced.step traced)

/-- Sessions that are alike send the same and come to the same outcome, at the same time. -/
theorem Alike.run (h : Alike s s' clock clock' patience start) :
    s.run clock patience start = s'.run clock' patience start := by
  rw [Session.run, Session.run,
    h.stepTimes Stage.opening.remaining (.inr (s.traced_opening clock patience start))]

theorem relaxed_congr {now now' : Instant}
    (counts : s.PreviousCounts now ↔ s'.PreviousCounts now') : s.relaxed now = s'.relaxed now' :=
  Bool.eq_iff_iff.2 (relaxed_iff.trans (counts.trans relaxed_iff.symm))

theorem recognises_of_unhashed {v : Visibility} {e : PairedKeyEncryption}
    (unhashed : ¬ s.HashedFor v e) : s.recognises v e = .unable := by
  unfold recognises
  split
  · next own received mine sent =>
      split
      · next same => exact (unhashed ⟨received, sent, same ▸ mine⟩).elim
      · rfl
  · rfl

theorem identity_of_unrecognised {now : Instant} {e : PairedKeyEncryption}
    (unknown : ¬ s.Recognised now e) :
    s.identity now e = if s.restrictToContacts && !s.relaxed now then none else some .unable := by
  have current : s.recognises s.visibility.current e = .unable :=
    recognises_of_unhashed fun hashed => unknown (.inl hashed)
  simp only [identity, current, reduceCtorEq, if_false]
  by_cases before : (s.relaxed now && decide (s.visibility.previous ≠ s.visibility.current)) = true
  · simp only [Bool.and_eq_true, decide_eq_true_eq] at before
    have previous : s.recognises s.visibility.previous e = .unable :=
      recognises_of_unhashed fun hashed =>
        unknown (.inr ⟨hashed, before.2, relaxed_iff.1 before.1⟩)
    rw [previous, ite_self]
  · rw [if_neg before]

/-- Nothing but these three facts decides the verdict on a hash. -/
theorem identity_congr {now now' : Instant} {e : PairedKeyEncryption}
    (recognised : s.Recognised now e ↔ s'.Recognised now' e)
    (restrict : s.restrictToContacts = s'.restrictToContacts)
    (counts : s.PreviousCounts now ↔ s'.PreviousCounts now') :
    s.identity now e = s'.identity now' e := by
  by_cases known : s.Recognised now e
  · rw [identity_eq_success_iff.2 known, identity_eq_success_iff.2 (recognised.1 known)]
  · rw [identity_of_unrecognised known, identity_of_unrecognised (mt recognised.2 known), restrict,
      relaxed_congr counts]

def changedFrom (s : Session) (previous : Visibility) (credentials : Credentials) : Session :=
  { s with visibility := { s.visibility with previous }, credentials }

/-- To a clock, the last change of visibility is not recent: the peer is unknown, or it would know of
the change by now. -/
def Settled (s : Session) (clock : Duration → Instant) : Prop :=
  s.target.isKnown = true → ∀ elapsed, relaxPeriod ≤ s.sinceChange (clock elapsed)

def ReceivesFromEveryone (s : Session) : Prop :=
  s.target.isIncoming = true ∧ s.visibility.current = .everyone

/-- The peer hashed the token under the secret of a certificate that only the previous visibility
has. -/
def HashedBefore (s : Session) (e : PairedKeyEncryption) : Prop :=
  s.HashedFor s.visibility.previous e ∧ s.visibility.previous ≠ s.visibility.current

theorem Settled.recentlyChanged (h : s.Settled clock) (elapsed : Duration) :
    s.recentlyChanged (clock elapsed) = false := by
  refine Bool.eq_false_iff.2 fun recent => ?_
  obtain ⟨known, short⟩ := recentlyChanged_iff.1 recent
  exact (Int.not_lt.2 (h known elapsed)) short

theorem Settled.previousCounts_iff (h : s.Settled clock) (elapsed : Duration) :
    s.PreviousCounts (clock elapsed) ↔ s.ReceivesFromEveryone := by
  refine or_iff_right ?_
  rintro ⟨known, short⟩
  exact (Int.not_lt.2 (h known elapsed)) short

theorem Settled.recognised_iff (h : s.Settled clock) (elapsed : Duration)
    {e : PairedKeyEncryption} :
    s.Recognised (clock elapsed) e ↔
      s.HashedFor s.visibility.current e ∨ (s.HashedBefore e ∧ s.ReceivesFromEveryone) := by
  refine or_congr_right ?_
  rw [h.previousCounts_iff elapsed, HashedBefore, and_assoc]

section
variable {previous : Visibility} {credentials : Credentials} (settled : s.Settled clock)
  (settled' : s.Settled clock')
  (sign : credentials.sign (signingVisibility s.visibility.current) =
    s.credentials.sign (signingVisibility s.visibility.current))
  (tokenHash : credentials.tokenHash s.visibility.current =
    s.credentials.tokenHash s.visibility.current)
include settled settled'

include sign in
theorem encryption_changedFrom (elapsed elapsed' : Duration) :
    s.encryption (clock elapsed) =
      (s.changedFrom previous credentials).encryption (clock' elapsed') := by
  have later : (s.changedFrom previous credentials).Settled clock' := settled'
  unfold encryption
  rw [settled.recentlyChanged, later.recentlyChanged]
  simp only [changedFrom, sign]
  rfl

include tokenHash in
theorem identity_changedFrom {elapsed elapsed' : Duration} {e : PairedKeyEncryption}
    (remembers : s.ReceivesFromEveryone → s.HashedFor s.visibility.current e ∨
      (s.HashedBefore e ↔ (s.changedFrom previous credentials).HashedBefore e)) :
    s.identity (clock elapsed) e =
      (s.changedFrom previous credentials).identity (clock' elapsed') e := by
  have later : (s.changedFrom previous credentials).Settled clock' := settled'
  have current : s.HashedFor s.visibility.current e ↔
      (s.changedFrom previous credentials).HashedFor s.visibility.current e := by
    simp only [HashedFor, changedFrom, tokenHash]
  refine identity_congr ?_ rfl ?_
  · rw [settled.recognised_iff, later.recognised_iff]
    constructor
    · rintro (hashed | ⟨before, all⟩)
      · exact .inl (current.1 hashed)
      · exact (remembers all).imp current.1 fun same => ⟨same.1 before, all⟩
    · rintro (hashed | ⟨before, all⟩)
      · exact .inl (current.2 hashed)
      · exact (remembers all).imp_right fun same => ⟨same.2 before, all⟩
  · rw [settled.previousCounts_iff, later.previousCounts_iff]
    rfl

include sign tokenHash in
theorem alike_changedFrom (remembers : s.ReceivesFromEveryone → ∀ e, start.Proofs e →
      s.HashedFor s.visibility.current e ∨
        (s.HashedBefore e ↔ (s.changedFrom previous credentials).HashedBefore e)) :
    Alike s (s.changedFrom previous credentials) clock clock' patience start where
  osType := rfl
  encryption := encryption_changedFrom settled settled' sign _ _
  identity e first := identity_changedFrom settled settled' tokenHash fun all => remembers all e first
  signature _ _ := rfl

end

/-- Once a change of visibility is not recent, a run depends neither on the visibility before it nor
on the certificates of any visibility but the current one; save that a device which receives from
everyone still depends on whether its peer hashed the token under the previous certificate, if the
peer did not do so under the current one. -/
theorem run_changedFrom {previous : Visibility} {credentials : Credentials}
    (settled : s.Settled clock)
    (sign : credentials.sign (signingVisibility s.visibility.current) =
      s.credentials.sign (signingVisibility s.visibility.current))
    (tokenHash : credentials.tokenHash s.visibility.current =
      s.credentials.tokenHash s.visibility.current)
    (remembers : s.ReceivesFromEveryone → ∀ e, start.Proofs e →
      s.HashedFor s.visibility.current e ∨
        (s.HashedBefore e ↔ (s.changedFrom previous credentials).HashedBefore e)) :
    (s.changedFrom previous credentials).run clock patience start = s.run clock patience start :=
  (alike_changedFrom settled settled sign tokenHash remembers).run.symm

def quarterPast (_ : Duration) : Instant := ⟨900000000000, by decide, by decide⟩

/-- A device that has received from everyone for a quarter of an hour. -/
def openReceiver : Session :=
  { knownSender with visibility := ⟨.everyone, .selfShare, .epoch⟩ }

theorem settled_openReceiver : openReceiver.Settled quarterPast := by
  intro _ elapsed
  have quarter : (relaxPeriod : Int) ≤ openReceiver.sinceChange (quarterPast 0) := by decide
  exact quarter

theorem proofs_knownLink {e : PairedKeyEncryption} (h : knownLink.Proofs e) : e = knownProofs := by
  obtain ⟨f, found, carried⟩ := h
  have first : knownLink.frames.find? (fun f => f.frameType = .pairedKeyEncryption) =
      some (Stage.encryptionFrame knownProofs) := by decide +kernel
  obtain rfl := Option.some.inj (found.symm.trans first)
  exact (Option.some.inj carried).symm

theorem run_changedFrom_openReceiver : openReceiver.Settled quarterPast ∧
    openReceiver.HashedFor .everyone knownProofs ∧
    (openReceiver.changedFrom .hidden ⟨fun _ _ => none, fun v _ =>
      if v = .everyone then some [1, 2, 3, 4, 5, 6] else none⟩).run quarterPast 10 knownLink =
        openReceiver.run quarterPast 10 knownLink := by
  have hashed : openReceiver.HashedFor .everyone knownProofs := ⟨[1, 2, 3, 4, 5, 6], rfl, rfl⟩
  exact ⟨settled_openReceiver, hashed, run_changedFrom settled_openReceiver rfl rfl
    fun _ e first => .inl (proofs_knownLink first ▸ hashed)⟩

/-- The credentials of a device with no certificate but the one for its owner's other devices. -/
def ownDevicesOnly : Credentials where
  sign _ _ := none
  tokenHash v _ := if v = .selfShare then some [1, 2, 3, 4, 5, 6] else none

/-- A device that received from its owner's other devices only, until a quarter of an hour ago. -/
def openedReceiver : Session := { openReceiver with credentials := ownDevicesOnly }

set_option maxRecDepth 100000 in
/-- While everyone may send, a peer that knows no more than the certificate of the visibility before
is recognised, however long ago that visibility was left. -/
theorem recalled_openedReceiver : openedReceiver.Settled quarterPast ∧
    (openedReceiver.run quarterPast 10 knownLink).1.verdict = .success ∧
    ((openedReceiver.changedFrom .everyone ownDevicesOnly).run quarterPast 10
      knownLink).1.verdict = .unable := by
  refine ⟨settled_openReceiver, ?_, ?_⟩
  · decide +kernel
  · decide +kernel

end Session

/-! A device whose certificates are with a manager, which is asked for each proof as it stands at that
time: with any store, at any clock, or when its worker has ended. -/

namespace ManagerLoop

variable {l : ManagerLoop} {v : Visibility}

/-- The octets that a manager answers a command with. -/
def octets? (l : ManagerLoop) (c : Command) : Option Bytes :=
  match l.request c with
  | .ok (.octets bs, _) => bs
  | _ => none

def credentials (asked : Command → ManagerLoop) : Credentials where
  sign v payload := (asked (.sign v payload)).octets? (.sign v payload)
  tokenHash v token := (asked (.hashToken v token)).octets? (.hashToken v token)

theorem reply_of_request {c : Command} {reply : Reply} {l' : ManagerLoop}
    (h : l.request c = .ok (reply, l')) :
    reply = c.unanswered ∨ ∃ now m, l.manager.perform now c = .ok (reply, m) := by
  unfold request at h
  split at h
  · cases h
    exact .inl rfl
  · obtain ⟨now, _, h⟩ := bind_eq_ok.1 h
    split at h
    · next performed =>
        obtain ⟨_, _, h⟩ := bind_eq_ok.1 h
        cases h
        exact .inr ⟨now, _, performed⟩
    · cases h
      exact .inl rfl

theorem octets?_eq_none {c : Command} (unanswered : c.unanswered = .octets none)
    (performed : ∀ now reply m, l.manager.perform now c = .ok (reply, m) → reply = .octets none) :
    l.octets? c = none := by
  unfold octets?
  split
  · next bs l' h =>
      rcases reply_of_request h with same | ⟨now, m, done⟩
      · exact Reply.octets.inj (same.trans unanswered)
      · exact Reply.octets.inj (performed now _ m done)
  · rfl

theorem sign_uncertified (asked : Command → ManagerLoop) (uncertified : v.certificate? = none) :
    (credentials asked).sign v = fun _ => none := by
  funext payload
  refine octets?_eq_none rfl fun now reply m h => ?_
  simp only [Manager.perform, Manager.sign, Manager.getValid, uncertified] at h
  cases h
  rfl

theorem tokenHash_uncertified (asked : Command → ManagerLoop)
    (uncertified : v.certificate? = none) : (credentials asked).tokenHash v = fun _ => none := by
  funext token
  refine octets?_eq_none rfl fun now reply m h => ?_
  simp only [Manager.perform, Manager.tokenHash, Manager.getValid, uncertified] at h
  cases h
  rfl

end ManagerLoop

namespace Session

variable {s : Session} {clock clock' : Duration → Instant} {patience : Duration} {start : Link}

theorem uncertified_iff {v : Visibility} :
    v.certificate? = none ↔ v = .hidden ∨ v = .unspecified := by
  cases v <;> simp [Visibility.certificate?]

def managed (s : Session) (asked : Command → ManagerLoop) : Session :=
  { s with credentials := ManagerLoop.credentials asked }

/-- A device that is hidden, and has been for long enough, is not known by its certificates: whatever
its manager has stored, at whatever times it is asked, the same messages from a peer are met with the
same octets, and lead to the same outcome. -/
theorem run_of_hidden
    (hidden : s.visibility.current = .hidden ∨ s.visibility.current = .unspecified)
    (settled : s.Settled clock) (settled' : s.Settled clock') (asked asked' : Command → ManagerLoop) :
    (s.managed asked).run clock patience start = (s.managed asked').run clock' patience start := by
  have uncertified : s.visibility.current.certificate? = none := uncertified_iff.2 hidden
  have signing : signingVisibility s.visibility.current = s.visibility.current := by
    rcases hidden with h | h <;> rw [h] <;> rfl
  have sign : (ManagerLoop.credentials asked').sign (signingVisibility s.visibility.current) =
      (ManagerLoop.credentials asked).sign (signingVisibility s.visibility.current) := by
    rw [signing, ManagerLoop.sign_uncertified asked' uncertified,
      ManagerLoop.sign_uncertified asked uncertified]
  have tokenHash : (ManagerLoop.credentials asked').tokenHash s.visibility.current =
      (ManagerLoop.credentials asked).tokenHash s.visibility.current := by
    rw [ManagerLoop.tokenHash_uncertified asked' uncertified,
      ManagerLoop.tokenHash_uncertified asked uncertified]
  have closed : ¬ s.ReceivesFromEveryone := by
    rintro ⟨_, all⟩
    rcases hidden with h | h <;> rw [h] at all <;> exact nomatch all
  have alike : Alike (s.managed asked)
      ((s.managed asked).changedFrom s.visibility.previous (ManagerLoop.credentials asked'))
      clock clock' patience start :=
    alike_changedFrom settled settled' sign tokenHash fun all => (closed all).elim
  exact alike.run

def hiddenReceiver : Session :=
  { knownSender with visibility := ⟨.hidden, .everyone, .epoch⟩ }

/-- A manager with private certificates. -/
def keeper (now : Instant) (certificates : List PrivateCertificate) : ManagerLoop where
  manager := .create {} { id := "d", name := "n" } none
    ((Store.create .empty (.memory {}) 3).replacePrivate certificates) true
    { octet := UInt8.ofNat }
  timeline := .starting now

def keptCertificate : PrivateCertificate where
  visibility := .allContacts
  notBefore := .epoch
  notAfter := .ofUnixNanos 259200000000000
  signingKey := .ofSeed 0
  secretKey := List.replicate Material.secretKeyLength 1
  metadataKey := List.replicate Material.metadataKeyLength 2
  id := [1]
  metadata := {}
  consumedSalts := .empty
  secretKey_length := List.length_replicate
  metadataKey_length := List.length_replicate

theorem run_of_hidden_keeper : hiddenReceiver.Settled quarterPast ∧
    (hiddenReceiver.managed fun _ => keeper .epoch []).run quarterPast 10 knownLink =
      (hiddenReceiver.managed fun _ => keeper (quarterPast 0) [keptCertificate]).run quarterPast 10
        knownLink := by
  have settled : hiddenReceiver.Settled quarterPast := settled_openReceiver
  exact ⟨settled, run_of_hidden (.inl rfl) settled settled _ _⟩

end Session
end ProximityCert
