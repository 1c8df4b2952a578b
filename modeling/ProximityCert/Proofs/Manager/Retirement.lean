import Mathlib.Data.List.Dedup
import ProximityCert.Proofs.Manager.Publishing
import ProximityCert.Proofs.Manager.Salts

/-!
What an upload that has cost contacts their access leaves behind. All certificates that it found are gone
for good, wherever it ends: none of them is stored, served or published again. It succeeds only once as
many new ones as there should be are published in their place.
-/

namespace ProximityCert

theorem Store.ids_of_replacePrivate {s : Store} {cs ds : List PrivateCertificate}
    (found : (s.replacePrivate cs).getPrivate = .ok ds) :
    ds.map PrivateCertificate.id = cs.map PrivateCertificate.id := by
  have names := congrArg (List.map Prod.fst) (replacePrivate_marks found)
  rw [List.map_map, List.map_map] at names
  exact names

/-- Where nothing is left, a renewal makes as many certificates as there should be. -/
theorem Slot.length_of_refill {metadata : Metadata} {now : Instant} {e e' : Entropy}
    {new : List PrivateCertificate}
    (filled : fillAll metadata (Visibility.generated.map fun v => Slot.of v now []) e =
      .ok (new, e')) : new.length = Manager.certificateCount := by
  obtain ⟨told, full⟩ := refill_ok filled
  have generated : ∀ w ∈ new.map PrivateCertificate.window, w.visibility ∈ Visibility.generated := by
    intro w member
    obtain ⟨c, own, rfl⟩ := List.mem_map.1 member
    exact (told c own).2
  have sum := Rotation.length_eq generated
  rw [(full .allContacts (by decide)).2, (full .selectedContacts (by decide)).2,
    (full .selfShare (by decide)).2, List.length_map] at sum
  exact sum

namespace Manager

variable {m m' m₁ : Manager} {now : Moment} {old ids : List Bytes} {force : Bool}

/-! What is kept of the ids that are gone. -/

/-- None of the stored certificates has one of some ids, which are among those made so far. -/
structure Retired (old ids : List Bytes) (m : Manager) : Prop where
  apart : m.Apart
  known : old ⊆ ids
  stored : ∀ cs, m.store.getPrivate = .ok cs → ∀ c ∈ cs, c.id ∉ old

namespace Retired

theorem steady (old : List Bytes) : Steady (Retired old) where
  widen h new := ⟨h.apart, fun _ gone => List.mem_append_left new (h.known gone), h.stored⟩
  outside := by
    intro ids m m' h apart _ left
    refine ⟨apart h.apart, h.known, ?_⟩
    intro cs found
    rcases left h.apart cs found with same | rfl
    · exact h.stored cs same
    · exact fun c none => (List.not_mem_nil none).elim

theorem restore (h : m.Retired old ids) (e : Entropy) {s : Store} {cs : List PrivateCertificate}
    (none : ∀ c ∈ cs, c.id ∉ old) :
    Retired old ids { m with entropy := e, store := s.replacePrivate cs } := by
  refine ⟨h.apart, h.known, ?_⟩
  intro ds found d member
  have names := Store.ids_of_replacePrivate found
  obtain ⟨c, own, same⟩ := List.mem_map.1 (names ▸ List.mem_map_of_mem member)
  exact same ▸ none c own

theorem weeded (h : m.Retired old ids) : (m.weeded now).Retired old ids := by
  unfold Manager.weeded Store.removeExpiredPrivate Store.retainPrivate
  split
  · exact h
  · next cs got =>
      exact h.restore m.entropy fun c left => h.stored cs got c (List.mem_filter.1 left).1

theorem loaded {stored : Option (List PrivateCertificate)} (h : m.Retired old ids)
    (loaded : Loaded m stored m') : ∀ c ∈ stored.getD [], c.id ∉ old := by
  cases loaded with
  | found got => exact h.stored _ got
  | wiped _ _ => exact fun c none => (List.not_mem_nil none).elim

theorem renewing {outcome : Option Bool} (h : m.Retired old ids)
    (distinct : (ids ++ (m.newcomers now).map PrivateCertificate.id).Nodup)
    (renewing : Renewing m now outcome m') :
    m'.Retired old (ids ++ (m.newcomers now).map PrivateCertificate.id) := by
  have wide : (m.weeded now).Retired old (ids ++ (m.newcomers now).map PrivateCertificate.id) :=
    (steady old).widen h.weeded _
  cases renewing with
  | enough _ _ => exact wide
  | short _ wiped => exact (steady old).read wide wiped
  | filled _ loaded _ _ made same =>
      refine (steady old).kept (((steady old).read wide loaded.read).restore _ ?_) same
      intro c member
      rcases List.mem_append.1 member with left | new
      · exact h.weeded.loaded loaded c left
      · intro known
        have apart := (List.nodup_append.1 distinct).2.2
        exact apart c.id (h.known known) c.id (List.mem_map_of_mem (made ▸ new)) rfl

theorem encryptMetadataKey (h : m.Retired old ids) (v : Visibility) :
    Leaves (Retired old ids) (fun r => r.2.Retired old ids) (m.encryptMetadataKey v now) := by
  apply (encryptMetadataKey_spec m v now).mono
  · intro m' wiped
    exact (steady old).read h wiped
  · rintro ⟨key, m'⟩ answered
    cases answered with
    | refused e wiped => exact (steady old).entropy ((steady old).read h wiped) e
    | @handed cs ds c _ _ e _ got member _ replaced =>
        have serves : c.id ∉ old := h.stored cs got c member
        apply h.restore e
        intro d own
        rcases Store.mem_replaceFirst replaced own with rfl | kept
        · exact serves
        · exact h.stored cs got d kept

theorem preserved (old : List Bytes) : Preserved now (Retired old) where
  toSteady := steady old
  refresh h distinct requestUpload := (refresh_spec _ requestUpload now).mono
    (fun _ => h.renewing distinct) fun _ => h.renewing distinct
  encryptMetadataKey h v := h.encryptMetadataKey v

end Retired

/-! An upload behind the news that contacts were removed. -/

/-- All certificates are made anew and published. -/
def reissue (m : Manager) (now : Moment) : Except Interrupted (Bool × Manager) := do
  let (refreshed, m) ← m.clearPrivate.refresh false now
  let m ← m.act .refresh (.handleResult refreshed) now
  if refreshed then
    let (removed, m) ← m.publish true now
    return (removed.isSome, m)
  else return (false, m)

theorem upload_of_removed (signedIn : m.account.isSome = true)
    (first : m.publish false now = .ok (some true, m₁)) :
    m.upload now = m₁.reissue now ∧ m.replacements now = m₁.clearPrivate.newcomers now := by
  have present : ¬ m.account.isNone = true := by
    rw [Option.isNone_eq_false_iff.2 signedIn]
    exact Bool.false_ne_true
  constructor
  · rw [upload, if_neg present, first]
    rfl
  · rw [replacements, if_neg present, first]

/-- New certificates with ids of their own, none of which is old. -/
def Fresh (old : List Bytes) (new : List PrivateCertificate) : Prop :=
  (new.map PrivateCertificate.id).Nodup ∧ ∀ c ∈ new, c.id ∉ old

instance (old : List Bytes) (new : List PrivateCertificate) : Decidable (Fresh old new) :=
  inferInstanceAs (Decidable (_ ∧ _))

theorem Fresh.later {new later : List PrivateCertificate} (h : Fresh old (new ++ later)) :
    Fresh old later := by
  refine ⟨?_, fun c own => h.2 c (List.mem_append_right new own)⟩
  exact h.1.sublist ((List.sublist_append_right new later).map _)

theorem Fresh.distinct {new : List PrivateCertificate} (h : Fresh old new) :
    (old.dedup ++ new.map PrivateCertificate.id).Nodup := by
  refine List.nodup_append.2 ⟨List.nodup_dedup old, h.1, ?_⟩
  rintro a known b member rfl
  obtain ⟨c, own, same⟩ := List.mem_map.1 member
  exact h.2 c own (same ▸ List.mem_dedup.1 known)

theorem Retired.publish_sends (h : m.Retired old ids) (force : Bool) :
    Leaves (Sends (fun r => r.forceUpdateContacts = force ∧ r.Omits old) m)
      (fun r => Sends (fun r => r.forceUpdateContacts = force ∧ r.Omits old) m r.2)
      (m.publish force now) := by
  apply (publish_spec m force now).mono
  · intro m' same
    exact .of_offline same
  · rintro ⟨removed, m'⟩ published
    cases published with
    | unreadable same => exact .of_offline same
    | @sent cs forms e got formed =>
        refine ⟨[m.announcement force forms], Service.published_publish _ _, ?_⟩
        rw [List.forall_mem_singleton]
        refine ⟨rfl, ?_⟩
        intro p member
        obtain ⟨c, own, same⟩ := (Projected.of_publicForms formed).secretId p member
        exact same ▸ h.stored cs got c own

theorem Retired.of_cleared (apart : m.Apart) (old : List Bytes) :
    m.clearPrivate.Retired old old.dedup := by
  refine ⟨apart, List.subset_dedup old, ?_⟩
  intro cs found
  rw [clearPrivate, Store.getPrivate_clearPrivate] at found
  cases found
  exact List.forall_mem_nil _

/-- The certificates made since need not be remembered. -/
theorem Retired.forget (h : m.Retired old ids) : m.Retired old old.dedup :=
  ⟨h.apart, List.subset_dedup old, h.stored⟩

/-- Wherever it ends, nothing old is stored, and nothing old has been sent. -/
theorem reissue_retires (apart : m.Apart) (fresh : Fresh old (m.clearPrivate.newcomers now)) :
    Leaves
      (fun m' => m'.Retired old old.dedup ∧
        Sends (fun r => r.forceUpdateContacts = true ∧ r.Omits old) m m')
      (fun r => r.2.Retired old old.dedup ∧
        Sends (fun r => r.forceUpdateContacts = true ∧ r.Omits old) m r.2)
      (m.reissue now) := by
  have P : Preserved now (Retired old) := Retired.preserved old
  unfold reissue
  apply (((P.refresh (Retired.of_cleared apart old) fresh.distinct false).and
    (refresh_offline m.clearPrivate false now)).mono
      (fun _ left => ⟨left.1.forget, .of_offline left.2⟩) fun _ left => left).bind
  rintro ⟨refreshed, m₁⟩ ⟨retired, same⟩
  have same : Offline m m₁ := same
  apply (((P.keep retired (act_kept m₁ .refresh (.handleResult refreshed) now)).and
    (same.before (act_offline m₁ .refresh (.handleResult refreshed) now))).mono
      (fun _ left => ⟨left.1.forget, .of_offline left.2⟩) fun _ left => left).bind
  rintro m₂ ⟨retired, same⟩
  split
  · apply (((P.publish retired true).and (retired.publish_sends true)).mono
      (fun _ left => ⟨left.1.forget, (Sends.of_offline same).trans left.2⟩) fun _ left => left).bind
    rintro ⟨removed, m₃⟩ ⟨retired, sent⟩
    exact ⟨retired.forget, (Sends.of_offline same).trans sent⟩
  · exact ⟨retired.forget, .of_offline same⟩

/-- A renewal that finds nothing stored succeeds by storing as many as there should be. -/
theorem Renewing.anew (apart : m.Apart) (renewing : Renewing m.clearPrivate now (some true) m') :
    m'.Apart ∧
      (∃ s : Store, (s.replacePrivate (m.clearPrivate.newcomers now)).SamePrivate m'.store) ∧
      (m.clearPrivate.newcomers now).length = certificateCount := by
  have nothing : (m.clearPrivate.weeded now).store.getPrivate = .ok [] :=
    Store.removeExpiredPrivate_of_ok (Store.getPrivate_clearPrivate m.store)
  cases renewing with
  | enough got count =>
      cases nothing.symm.trans got
      cases count
  | short failed _ => exact absurd rfl failed
  | @filled _ _ m₁ _ _ new e _ loaded told filled made same =>
      cases loaded with
      | wiped got _ => cases nothing.symm.trans got
      | found got =>
          cases nothing.symm.trans got
          exact ⟨same.apart apart, ⟨_, made ▸ same.stored apart⟩, made ▸ Slot.length_of_refill filled⟩

/-- It succeeds only if as many new certificates as there should be are stored, and their public forms
were taken by the service. -/
theorem reissue_ok (apart : m.Apart) (success : m.reissue now = .ok (true, m')) :
    ∃ cs request, m'.store.getPrivate = .ok cs ∧ cs.length = certificateCount ∧
      cs.map PrivateCertificate.id =
        (m.clearPrivate.newcomers now).map PrivateCertificate.id ∧
      m'.service.published = m.service.published ++ [request] ∧
      request.forceUpdateContacts = true ∧ Projected cs request.certificates ∧
      ∀ answer ∈ m.service.publishAnswers.head?, ∃ response, answer = .ok response := by
  obtain ⟨⟨refreshed, m₁⟩, renewed, success⟩ := bind_eq_ok.1 success
  obtain ⟨m₂, reported, success⟩ := bind_eq_ok.1 success
  have renewing := refresh_spec m.clearPrivate false now
  have offline := refresh_offline m.clearPrivate false now
  have kept := act_kept m₁ .refresh (.handleResult refreshed) now
  have quiet := act_offline m₁ .refresh (.handleResult refreshed) now
  rw [renewed] at renewing offline
  rw [reported] at kept quiet
  cases refreshed with
  | false => cases success
  | true =>
      obtain ⟨⟨removed, m₃⟩, published, success⟩ := bind_eq_ok.1 success
      obtain ⟨answered, rfl⟩ := Prod.mk.inj (Except.ok.inj success)
      have publishing := publish_spec m₂ true now
      rw [published] at publishing
      have service : m₂.service = m.service := quiet.trans offline
      obtain ⟨apart', ⟨s, stored⟩, count⟩ := Renewing.anew apart renewing
      cases publishing with
      | unreadable _ => cases answered
      | @sent cs forms e got formed =>
          have names : cs.map PrivateCertificate.id =
              (m.clearPrivate.newcomers now).map PrivateCertificate.id :=
            Store.ids_of_replacePrivate ((stored.trans (kept.stored apart')).getPrivate ▸ got)
          have length : cs.length = certificateCount := by
            rw [← count, ← List.length_map PrivateCertificate.id, names, List.length_map]
          refine ⟨cs, m₂.announcement true forms, got, length, names, ?_, rfl,
            .of_publicForms formed, ?_⟩
          · rw [← service]
            exact Service.published_publish _ _
          · intro answer next
            cases heard : (m₂.service.publish (m₂.announcement true forms)).1 with
            | error f =>
                rw [heard] at answered
                cases answered
            | ok response => exact Service.publish_ok_iff.1 ⟨response, heard⟩ answer (service ▸ next)

/-- With the clock in range and the device described, it succeeds if the service agrees. -/
theorem reissue_succeeds {m₂ : Manager} (apart : m.Apart)
    (describable : m.device.Describable m.account) (ample : now.now.Ample)
    (distinct : ((m.clearPrivate.newcomers now).map PrivateCertificate.id).Nodup)
    (renewed : m.clearPrivate.refresh false now = .ok (true, m₁))
    (reported : m₁.act .refresh (.handleResult true) now = .ok m₂)
    (agreed : ∀ answer ∈ m.service.publishAnswers.head?, ∃ response, answer = .ok response) :
    ∃ m', m.reissue now = .ok (true, m') := by
  have empty : m.clearPrivate.Rotating now.now [] := by
    refine ⟨apart, describable, ?_⟩
    intro cs found
    rw [clearPrivate, Store.getPrivate_clearPrivate] at found
    cases found
    exact Holding.nil _ _
  have topped := refresh_topped empty ample ample (Int.le_refl _) distinct false
  have offline := refresh_offline m.clearPrivate false now
  have kept := act_kept m₁ .refresh (.handleResult true) now
  have quiet := act_offline m₁ .refresh (.handleResult true) now
  rw [renewed] at topped offline
  rw [reported] at kept quiet
  obtain ⟨rotating, full⟩ := topped
  obtain ⟨stored, top⟩ := full rfl
  have loaded := (kept.stored rotating.apart).getPrivate.trans stored
  obtain ⟨⟨forms, e⟩, formed⟩ := publicForms_ok top.holding.lasting m₂.entropy
  have service : m₂.service = m.service := quiet.trans offline
  have heard : ∃ response, (m₂.service.publish (m₂.announcement true forms)).1 = .ok response :=
    Service.publish_ok_iff.2 (service ▸ agreed)
  obtain ⟨response, heard⟩ := heard
  have published := publish_ok loaded formed true now
  rw [heard] at published
  refine ⟨{ m₂ with
    entropy := e, service := (m₂.service.publish (m₂.announcement true forms)).2 }, ?_⟩
  unfold reissue
  rw [renewed]
  show (m₁.act .refresh (.handleResult true) now >>= _) = _
  rw [reported]
  show (m₂.publish true now >>= _) = _
  rw [published]
  rfl

/-! What a manager does with certificates that it has. -/

/-- A certificate that is stored. -/
def Holds (m : Manager) (c : PrivateCertificate) : Prop :=
  ∃ cs, m.store.getPrivate = .ok cs ∧ c ∈ cs

/-- No certificate with one of some ids is stored, and so none signs, hashes, hands out a key or is
published. -/
structure Disowns (old : List Bytes) (now : Moment) (m : Manager) : Prop where
  stored : ∀ c, m.Holds c → c.id ∉ old
  sign : ∀ {v : Visibility} {payload signature : Bytes} {m' : Manager},
    m.sign v payload now = .ok (some signature, m') →
    ∃ c, m.Holds c ∧ c.id ∉ old ∧ c.sign payload = some signature
  tokenHash : ∀ {v : Visibility} {token hash : Bytes} {m' : Manager},
    m.tokenHash v token now = .ok (some hash, m') →
    ∃ c, m.Holds c ∧ c.id ∉ old ∧ c.tokenHash token = hash
  encryptMetadataKey : ∀ {v : Visibility} {key : EncryptedMetadataKey} {m' : Manager},
    m.encryptMetadataKey v now = .ok (some key, m') →
    ∃ c salt, m.Holds c ∧ c.id ∉ old ∧ c.Hands key salt
  asPublic : ∀ {v : Visibility} {forms : List PublicCertificate} {m' : Manager},
    m.asPublic v now = .ok (forms, m') → ∀ p ∈ forms, p.secretId ∉ old
  publish : ∀ force, Sends (·.Omits old) m (leftBy Prod.snd (m.publish force now))
  upload : Fresh old (m.replacements now) →
    Sends (·.Omits old) m (leftBy Prod.snd (m.upload now))

namespace Retired

theorem served (h : m.Retired old ids) {v : Visibility} {c : PrivateCertificate}
    (got : m.getValid v now = .ok (some c, m')) : m.Holds c ∧ c.id ∉ old := by
  have served := getValid_spec m v now
  rw [got] at served
  cases served with
  | found read member => exact ⟨⟨_, read, member⟩, h.stored _ read c member⟩

theorem asPublic_omits (h : m.Retired old ids) (v : Visibility) (now : Moment) :
    Leaves (fun _ => True) (fun r => ∀ p ∈ r.1, p.secretId ∉ old) (m.asPublic v now) := by
  unfold asPublic
  split
  · exact List.forall_mem_nil _
  · apply ((loadPrivate_spec m now).mono (fun _ _ => trivial) fun _ => id).bind
    rintro ⟨stored, m₁⟩ loaded
    apply (Leaves.attempt trivial fun _ done => done).bind
    rintro ⟨forms, e⟩ formed p member
    obtain ⟨c, own, same⟩ := (Projected.of_publicForms formed).secretId p member
    exact same ▸ h.loaded loaded c (List.mem_filter.1 own).1

theorem upload_sends (h : m.Retired old ids) (fresh : Fresh old (m.replacements now)) :
    Leaves (Sends (·.Omits old) m) (fun r => Sends (·.Omits old) m r.2) (m.upload now) := by
  have P : Preserved now (Retired old) := Retired.preserved old
  cases account : m.account with
  | none =>
      have absent : m.account.isNone = true := by rw [account]; rfl
      rw [upload, if_pos absent]
      exact Sends.of_offline rfl
  | some _ =>
      have signedIn : m.account.isSome = true := by rw [account]; rfl
      have present : ¬ m.account.isNone = true := by rw [account]; exact Bool.false_ne_true
      have first := (P.publish h false).and (h.publish_sends false)
      cases published : m.publish false now with
      | error e =>
          rw [published] at first
          rw [upload, if_neg present, published]
          exact first.2.mono fun r sent => sent.2
      | ok answer =>
          obtain ⟨removed, m₁⟩ := answer
          rw [published] at first
          obtain ⟨retired, unforced⟩ := first
          have sent : Sends (·.Omits old) m m₁ := unforced.mono fun r sent => sent.2
          rcases removed with _ | _ | _
          · rw [upload, if_neg present, published]
            exact sent
          · rw [upload, if_neg present, published]
            exact sent
          · -- the first request was as harmless as any, and what is behind it starts from nothing
            obtain ⟨anew, made⟩ := upload_of_removed signedIn published
            rw [anew]
            apply (reissue_retires retired.apart (made ▸ fresh)).mono
            · intro m' left
              exact sent.trans (left.2.mono fun r sent => sent.2)
            · intro r left
              exact sent.trans (left.2.mono fun r sent => sent.2)

theorem disowns (h : m.Retired old ids) (now : Moment) : m.Disowns old now where
  stored c held := by
    obtain ⟨cs, got, member⟩ := held
    exact h.stored cs got c member
  sign signed := by
    obtain ⟨⟨c, m₁⟩, got, same⟩ := map_eq_ok.1 signed
    obtain ⟨c, rfl, signature⟩ := Option.bind_eq_some_iff.1 (Prod.mk.inj same).1
    obtain ⟨held, new⟩ := h.served got
    exact ⟨c, held, new, signature⟩
  tokenHash hashed := by
    obtain ⟨⟨c, m₁⟩, got, same⟩ := map_eq_ok.1 hashed
    obtain ⟨c, rfl, hash⟩ := Option.map_eq_some_iff.1 (Prod.mk.inj same).1
    obtain ⟨held, new⟩ := h.served got
    exact ⟨c, held, new, hash⟩
  encryptMetadataKey := by
    intro v key m' enciphered
    have answered := encryptMetadataKey_spec m v now
    rw [enciphered] at answered
    cases answered with
    | @handed cs _ c _ salt _ _ got member hands _ =>
        exact ⟨c, salt, ⟨cs, got, member⟩, h.stored cs got c member, hands⟩
  asPublic := by
    intro v forms m' published
    have omits := h.asPublic_omits v now
    rw [published] at omits
    exact omits
  publish force :=
    ((h.publish_sends force).mono (fun _ sent => sent.mono fun r sent => sent.2)
      fun _ sent => sent.mono fun r sent => sent.2).leftBy
  upload fresh := (h.upload_sends fresh).leftBy

end Retired

/-- What can become of a manager from some point on, with the certificates made on the way. Clocks go
anywhere, and devices describe themselves at any length. -/
inductive Onward (m : Manager) : List PrivateCertificate → Manager → Prop
  | none : Onward m [] m
  | step {made new : List PrivateCertificate} {m' m'' : Manager} {now : Moment} :
      Onward m made m' → Step now m' new m'' → Onward m (made ++ new) m''
  | restart {made : List PrivateCertificate} {m' : Manager} (config : ManagerConfig)
      (device : Device) (account : Option Account) (database : Database) (maxAttempts : Nat)
      (driven : Bool) (entropy : Entropy) : Onward m made m' →
      Onward m made (create config device account
        (.create m'.store.preferences database maxAttempts) driven entropy)
  | moved {made : List PrivateCertificate} {m' : Manager} (device : Device)
      (account : Option Account) : Onward m made m' → Onward m made { m' with device, account }

theorem Retired.onward {made : List PrivateCertificate} (h : m.Retired old ids)
    (run : Onward m made m') (distinct : (ids ++ made.map PrivateCertificate.id).Nodup) :
    m'.Retired old (ids ++ made.map PrivateCertificate.id) := by
  induction run with
  | none => exact (steady old).widen h _
  | step run step ih =>
      rw [List.map_append, ← List.append_assoc] at distinct ⊢
      exact step.preserved (preserved old) (ih (List.nodup_append.1 distinct).1) distinct
  | restart config device account database maxAttempts driven entropy run ih =>
      -- the next manager finds in the preferences what the last one left there
      have before := ih distinct
      refine ⟨create_apart _ _ _ _ _ _, before.known, ?_⟩
      intro cs found
      rw [(create_samePrivate ..).getPrivate] at found
      exact before.stored cs found
  | moved device account run ih =>
      have before := ih distinct
      exact ⟨before.apart, before.known, before.stored⟩

/-- An upload whose first answer tells of removed contacts retires every certificate that it found. It
publishes none of them again, wherever it ends, and nothing that becomes of the manager later stores,
serves or publishes one; it succeeds only if nine new certificates are stored and the service has taken
their public forms as those to update all contacts with. -/
theorem retired_by_upload {olds : List PrivateCertificate} {response : PublishResponse}
    {answers : List (Except Failure PublishResponse)} (apart : m.Apart)
    (signedIn : m.account.isSome = true) (loaded : m.store.getPrivate = .ok olds)
    (answered : m.service.publishAnswers = .ok response :: answers)
    (removed : ContactUpdate.removed.code ∈ response.contactUpdates)
    (fresh : Fresh (olds.map PrivateCertificate.id) (m.replacements now)) :
    ∃ first, first.forceUpdateContacts = false ∧ Projected olds first.certificates ∧
      (∃ more, (leftBy Prod.snd (m.upload now)).service.published =
          m.service.published ++ first :: more ∧
        ∀ r ∈ more, r.forceUpdateContacts = true ∧ r.Omits (olds.map PrivateCertificate.id)) ∧
      (∀ made m' later, Onward (leftBy Prod.snd (m.upload now)) made m' →
        Fresh (olds.map PrivateCertificate.id) (m.replacements now ++ made) →
        m'.Disowns (olds.map PrivateCertificate.id) later) ∧
      ∀ m', m.upload now = .ok (true, m') →
        ∃ cs request, m'.store.getPrivate = .ok cs ∧ cs.length = 9 ∧
          cs.map PrivateCertificate.id = (m.replacements now).map PrivateCertificate.id ∧
          m'.service.published = m.service.published ++ [first, request] ∧
          request.forceUpdateContacts = true ∧ Projected cs request.certificates ∧
          ∀ answer ∈ answers.head?, ∃ response, answer = .ok response := by
  obtain ⟨⟨forms, e⟩, formed⟩ := publicForms_ok (Store.lasting_of_getPrivate loaded) m.entropy
  have first := publish_of_removed loaded formed answered removed now
  obtain ⟨anew, made⟩ := upload_of_removed signedIn first
  refine ⟨m.announcement false forms, rfl, .of_publicForms formed, ?_⟩
  rw [anew]
  rw [made] at fresh ⊢
  generalize published : ({ m with entropy := e, service := _ } : Manager) = m₁ at *
  have apart₁ : m₁.Apart := published ▸ apart
  obtain ⟨retired, requests, sent, each⟩ := (reissue_retires apart₁ fresh).leftBy
  refine ⟨⟨requests, ?_, each⟩, ?_, ?_⟩
  · rw [sent, ← published]
    exact List.append_assoc ..
  · intro made m' later run distinct
    exact (retired.onward run distinct.later.distinct).disowns later
  · intro m' success
    obtain ⟨cs, request, stored, length, names, all, forced, projected, taken⟩ :=
      reissue_ok apart₁ success
    refine ⟨cs, request, stored, length, names, ?_, forced, projected, ?_⟩
    · rw [all, ← published]
      exact List.append_assoc ..
    · rw [← published] at taken
      exact taken

/-- A device with an account that finds one certificate in its preferences, and a service that will tell
it of an added and of a removed contact. -/
def informed : Manager :=
  { create {} Newborn.device (some ⟨"a"⟩)
      (.create (SortedMap.empty.insert Store.privateKey (.arr [Store.foreignRecord.toJson]))
        (.memory {}) 3) false Newborn.entropy with
    service := { publishAnswers := [.ok ⟨[1, ContactUpdate.removed.code]⟩] } }

/-- The same once it has been told. -/
def told : Manager := leftBy Prod.snd (informed.publish false Newborn.moment)

set_option maxRecDepth 100000 in
theorem retired_by_upload_informed : ∃ c m' cs,
    informed.store.getPrivate = .ok [c] ∧ informed.upload Newborn.moment = .ok (true, m') ∧
    m'.Disowns [c.id] Newborn.moment ∧ m'.store.getPrivate = .ok cs ∧ cs.length = 9 := by
  have readable : informed.store.getPrivate.toOption.map List.length = some 1 := by decide +kernel
  have separate : Fresh ((informed.store.getPrivate.toOption.getD []).map PrivateCertificate.id)
      (informed.replacements Newborn.moment) := by decide +kernel
  have renewal : (told.clearPrivate.refresh false Newborn.moment >>= fun r =>
      (r.2.act .refresh (.handleResult true) Newborn.moment).map fun _ => r.1).toOption =
        some true := by decide +kernel
  have describable : informed.device.Describable informed.account := by
    intro metadata described
    rw [← Option.some.inj described]
    decide +kernel
  have removed : ContactUpdate.removed.code ∈ [1, ContactUpdate.removed.code] := by decide
  have apart : informed.Apart :=
    create_apart {} Newborn.device (some ⟨"a"⟩) (.create (SortedMap.empty.insert Store.privateKey
      (.arr [Store.foreignRecord.toJson])) (.memory {}) 3) false Newborn.entropy
  -- the renewal behind the news is evaluated, the request that follows it need not be
  obtain ⟨olds, found, count⟩ := Option.map_eq_some_iff.1 readable
  obtain ⟨c, rfl⟩ := List.length_eq_one_iff.1 count
  have loaded := eq_ok_of_toOption found
  rw [loaded] at separate
  obtain ⟨⟨forms, e⟩, formed⟩ :=
    publicForms_ok (Store.lasting_of_getPrivate loaded) informed.entropy
  have published := publish_of_removed loaded formed rfl removed Newborn.moment
  obtain ⟨anew, made⟩ := upload_of_removed rfl published
  generalize same : ({ informed with entropy := e, service := _ } : Manager) = heard at *
  obtain rfl : told = heard := congrArg (leftBy Prod.snd) published
  obtain ⟨⟨refreshed, m₁⟩, renewed, reported⟩ := bind_eq_ok.1 (eq_ok_of_toOption renewal)
  obtain ⟨m₂, reported, rfl⟩ := map_eq_ok.1 reported
  have quiet : told.service.publishAnswers = [] := by rw [← same]
  obtain ⟨m', reissued⟩ := reissue_succeeds (same ▸ apart) (same ▸ describable)
    ⟨by decide, by decide⟩ (made ▸ separate.1) renewed reported
    (fun answer next => by rw [quiet] at next; cases next)
  have success : informed.upload Newborn.moment = .ok (true, m') := anew.trans reissued
  obtain ⟨first, _, _, _, retired, succeeded⟩ :=
    retired_by_upload apart rfl loaded rfl removed separate
  obtain ⟨cs, _, stored, length, _⟩ := succeeded m' success
  refine ⟨c, m', cs, loaded, success, ?_, stored, length⟩
  refine retired [] m' Newborn.moment ?_ ?_
  · rw [success]
    exact .none
  · rw [List.append_nil]
    exact separate

end Manager
end ProximityCert
