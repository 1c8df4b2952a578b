import ProximityCert.Proofs.Manager.Work

/-!
Publishing: the request that a manager sends with the public forms of its certificates, what it makes of
the answer, and the work in which it sends none.
-/

namespace ProximityCert

namespace PrivateCertificate

variable {c : PrivateCertificate} {p : PublicCertificate} {before after : Duration}

theorem secretId_of_toPublic (h : c.toPublic before after = .ok (some p)) : p.secretId = c.id := by
  unfold toPublic at h
  split at h
  · cases h
  · obtain ⟨stop, _, same⟩ := map_eq_ok.1 h
    cases same
    rfl

/-- A certificate has no public form only if what it tells is too long to be sealed. -/
theorem long_of_toPublic (h : c.toPublic before after = .ok none) :
    Gcm.maxLength < (Message.encode c.metadata).length := by
  by_contra short
  obtain ⟨sealed, hidden⟩ :=
    Material.sealMetadata_ok c.metadataKey c.secretKey (Nat.le_of_not_lt short)
  unfold toPublic at h
  rw [hidden] at h
  obtain ⟨stop, _, same⟩ := map_eq_ok.1 h
  cases same

end PrivateCertificate

/-- Public forms of certificates in their order, with bounds shifted as far as they may be; one is left out
only if what it tells is too long to be sealed. -/
inductive Projected : List PrivateCertificate → List PublicCertificate → Prop
  | nil : Projected [] []
  | shown {c : PrivateCertificate} {p : PublicCertificate} {cs : List PrivateCertificate}
      {ps : List PublicCertificate} {before after : Duration} :
      before < PrivateCertificate.maxBoundOffset → after < PrivateCertificate.maxBoundOffset →
      c.toPublic before after = .ok (some p) → Projected cs ps → Projected (c :: cs) (p :: ps)
  | unsealable {c : PrivateCertificate} {cs : List PrivateCertificate}
      {ps : List PublicCertificate} : Gcm.maxLength < (Message.encode c.metadata).length →
      Projected cs ps → Projected (c :: cs) ps

namespace Projected

variable {cs : List PrivateCertificate} {ps : List PublicCertificate} {e e' : Entropy}

theorem of_publicForms (h : Manager.publicForms cs e = .ok (ps, e')) : Projected cs ps := by
  induction cs generalizing e ps with
  | nil =>
      cases h
      exact .nil
  | cons c cs ih =>
      have positive : 0 < PrivateCertificate.maxBoundOffset := by decide
      obtain ⟨form, published, h⟩ := bind_eq_ok.1 h
      obtain ⟨⟨rest, e₁⟩, others, h⟩ := bind_eq_ok.1 h
      cases h
      cases form with
      | none => exact .unsealable (PrivateCertificate.long_of_toPublic published) (ih others)
      | some p =>
          exact .shown (Entropy.below_lt positive _) (Entropy.below_lt positive _) published
            (ih others)

theorem secretId (h : Projected cs ps) : ∀ p ∈ ps, ∃ c ∈ cs, p.secretId = c.id := by
  induction h with
  | nil => exact fun p none => (List.not_mem_nil none).elim
  | @shown c p cs ps before after _ _ form _ ih =>
      intro q member
      rcases List.mem_cons.1 member with rfl | later
      · exact ⟨c, List.mem_cons_self, PrivateCertificate.secretId_of_toPublic form⟩
      · obtain ⟨d, own, same⟩ := ih q later
        exact ⟨d, List.mem_cons_of_mem c own, same⟩
  | unsealable _ _ ih =>
      intro q member
      obtain ⟨d, own, same⟩ := ih q member
      exact ⟨d, List.mem_cons_of_mem _ own, same⟩

end Projected

namespace Service

variable {s : Service} {request : PublishRequest}

theorem published_publish (s : Service) (request : PublishRequest) :
    (s.publish request).2.published = s.published ++ [request] := by
  unfold publish
  cases s.publishAnswers with
  | nil => rfl
  | cons answer rest => rfl

/-- A request is agreed to unless the next answer is a refusal. -/
theorem publish_ok_iff : (∃ response, (s.publish request).1 = .ok response) ↔
    ∀ answer ∈ s.publishAnswers.head?, ∃ response, answer = .ok response := by
  unfold publish
  cases s.publishAnswers with
  | nil =>
      constructor
      · intro _ answer next
        cases next
      · intro _
        exact ⟨{}, rfl⟩
  | cons first rest =>
      constructor
      · rintro agreed answer next
        cases next
        exact agreed
      · intro agreed
        exact agreed first rfl

end Service

/-- No certificate in a request has one of some ids. -/
def PublishRequest.Omits (old : List Bytes) (r : PublishRequest) : Prop :=
  ∀ p ∈ r.certificates, p.secretId ∉ old

namespace Manager

variable {m m' m₁ : Manager}

/-! What is asked of the service. -/

/-- Work in which the service is neither asked nor heard. -/
def Offline (m m' : Manager) : Prop := m'.service = m.service

theorem Offline.before {α : Type} {f : α → Manager} {r : Except Interrupted α} (same : Offline m m')
    (rest : Leaves (Offline m') (fun a => Offline m' (f a)) r) :
    Leaves (Offline m) (fun a => Offline m (f a)) r :=
  rest.mono (fun _ more => more.trans same) fun _ more => more.trans same

theorem act_offline (m : Manager) (kind : TaskKind) (action : TaskAction) (now : Moment) :
    Leaves (Offline m) (Offline m) (m.act kind action now) := by
  unfold act
  cases m.tasks.get kind with
  | recorded t => exact rfl
  | scheduled s => exact Leaves.map (Leaves.attempt rfl fun _ _ => rfl)

theorem loadPrivate_offline (m : Manager) (now : Moment) :
    Leaves (Offline m) (fun r => Offline m r.2) (m.loadPrivate now) := by
  unfold loadPrivate
  split
  · exact rfl
  · exact Leaves.map (act_offline m.clearPrivate .refresh .requestNow now)

theorem refresh_offline (m : Manager) (requestUpload : Bool) (now : Moment) :
    Leaves (Offline m) (fun r => Offline m r.2) (m.refresh requestUpload now) := by
  unfold refresh
  apply (loadPrivate_offline (m.weeded now) now).bind
  rintro ⟨stored, m₁⟩ same
  dsimp only at same ⊢
  split
  · exact same
  · split
    · exact same
    · apply (Leaves.attempt same fun _ done => done).bind
      rintro ⟨new, e⟩ _
      have renewed : Offline m ({ m₁ with
          entropy := e, store := m₁.store.replacePrivate (stored.getD [] ++ new) }.notify
            .privateChanged) := same
      split
      · exact (renewed.before (act_offline _ .upload .requestNow now)).bind fun m' rest => rest
      · exact renewed

/-- The request by which certificates are published. -/
def announcement (m : Manager) (force : Bool) (forms : List PublicCertificate) : PublishRequest :=
  { name := m.config.resourceName m.device.id, certificates := forms, forceUpdateContacts := force }

/-- Nothing can be published, or the public forms of all stored certificates are. -/
inductive Publishing (m : Manager) (force : Bool) : Option Bool → Manager → Prop
  | unreadable {m' : Manager} : Offline m m' → Publishing m force none m'
  | sent {cs : List PrivateCertificate} {forms : List PublicCertificate} {e : Entropy} :
      m.store.getPrivate = .ok cs → publicForms cs m.entropy = .ok (forms, e) →
      Publishing m force
        ((m.service.publish (m.announcement force forms)).1.toOption.map
          PublishResponse.contactsRemoved)
        { m with entropy := e, service := (m.service.publish (m.announcement force forms)).2 }

theorem publish_spec (m : Manager) (force : Bool) (now : Moment) :
    Leaves (Offline m) (fun r => Publishing m force r.1 r.2) (m.publish force now) := by
  unfold publish
  apply (((loadPrivate_offline m now).and (loadPrivate_spec m now)).mono (fun _ left => left.1)
    fun _ left => left).bind
  rintro ⟨stored, m₁⟩ ⟨same, loaded⟩
  cases loaded with
  | wiped _ _ => exact .unreadable same
  | found got =>
      apply (Leaves.attempt (P := Offline m₁) same fun _ done => done).bind
      rintro ⟨forms, e⟩ formed
      exact .sent got formed

theorem publish_ok {cs : List PrivateCertificate} {forms : List PublicCertificate} {e : Entropy}
    (loaded : m.store.getPrivate = .ok cs) (formed : publicForms cs m.entropy = .ok (forms, e))
    (force : Bool) (now : Moment) :
    m.publish force now =
      .ok ((m.service.publish (m.announcement force forms)).1.toOption.map
          PublishResponse.contactsRemoved,
        { m with
          entropy := e, service := (m.service.publish (m.announcement force forms)).2 }) := by
  simp only [publish, loadPrivate, loaded, formed, attempt, Except.mapError, bind, Except.bind, pure,
    Except.pure, announcement]

theorem publicForms_ok {cs : List PrivateCertificate} (lasting : ∀ c ∈ cs, c.Lasting)
    (e : Entropy) : Completes (publicForms cs e) := by
  induction cs generalizing e with
  | nil => exact completes_ok ([], e)
  | cons c cs ih =>
      rw [List.forall_mem_cons] at lasting
      have formed : ∀ before after, after < PrivateCertificate.maxBoundOffset →
          Completes (c.toPublic before after) := by
        intro before after late
        have closes := lasting.1.closes.2
        -- a time that can be stored is far from the last one there is
        have late : (after : Int) < (PrivateCertificate.maxBoundOffset : Int) := Int.ofNat_lt.2 late
        have far : Int64.maxValue.toInt + (PrivateCertificate.maxBoundOffset : Int) <
            9223372036854775808000000000 := by decide
        obtain ⟨stop, ends⟩ := Instant.plus_ok (t := c.notAfter) (d := after) (by omega)
        unfold PrivateCertificate.toPublic
        split
        · exact completes_ok none
        · rw [ends]
          exact completes_ok _
      have positive : 0 < PrivateCertificate.maxBoundOffset := by decide
      refine completes_bind.2 ⟨formed _ _ (Entropy.below_lt positive _), fun form _ => ?_⟩
      refine completes_bind.2 ⟨ih lasting.2 _, fun rest _ => ?_⟩
      exact completes_ok _

theorem publish_of_removed {olds : List PrivateCertificate} {forms : List PublicCertificate}
    {e : Entropy} {response : PublishResponse} {answers : List (Except Failure PublishResponse)}
    (loaded : m.store.getPrivate = .ok olds) (formed : publicForms olds m.entropy = .ok (forms, e))
    (answered : m.service.publishAnswers = .ok response :: answers)
    (removed : ContactUpdate.removed.code ∈ response.contactUpdates) (now : Moment) :
    m.publish false now = .ok (some true, { m with
      entropy := e
      service := { m.service with
        published := m.service.published ++ [m.announcement false forms]
        publishAnswers := answers } }) := by
  have news : response.contactsRemoved = true :=
    List.any_eq_true.2 ⟨_, removed, decide_eq_true rfl⟩
  have told : m.service.publish (m.announcement false forms) = (.ok response, { m.service with
      published := m.service.published ++ [m.announcement false forms]
      publishAnswers := answers }) := by
    rw [Service.publish, answered]
  rw [publish_ok loaded formed, told, ← news]
  rfl

/-- Requests have been sent, all of some kind. -/
def Sends (P : PublishRequest → Prop) (m m' : Manager) : Prop :=
  ∃ requests, m'.service.published = m.service.published ++ requests ∧ ∀ r ∈ requests, P r

namespace Sends

variable {P P' : PublishRequest → Prop}

theorem of_offline (same : Offline m m') : Sends P m m' := by
  refine ⟨[], ?_, fun r none => (List.not_mem_nil none).elim⟩
  rw [same, List.append_nil]

theorem trans (first : Sends P m m₁) (later : Sends P m₁ m') : Sends P m m' := by
  obtain ⟨requests, all, each⟩ := first
  obtain ⟨more, all', each'⟩ := later
  refine ⟨requests ++ more, ?_, List.forall_mem_append.2 ⟨each, each'⟩⟩
  rw [all', all, List.append_assoc]

theorem mono (sent : Sends P m m') (weaker : ∀ r, P r → P' r) : Sends P' m m' := by
  obtain ⟨requests, all, each⟩ := sent
  exact ⟨requests, all, fun r member => weaker r (each r member)⟩

end Sends

end Manager
end ProximityCert
