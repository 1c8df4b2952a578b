import ProximityCert.Proofs.Certificate.Opening

/-!
What loading a record makes sure of. Each field is read on its own, and no two are compared: the id may
be any octets and the times any numbers, so that a certificate which is loaded has an id and a period of
its own kind only if its record says so. Such a certificate is published like any other. Its own keys open
the public form exactly if what a peer looks at is in order, which is less than that.
-/

namespace ProximityCert

namespace PrivateCertificate

/-- Whether the public form with given shifts is one that a peer opens: the metadata can be sealed, the id
is as long as an id, and the window closes in a later second than it opens. -/
structure Presentable (c : PrivateCertificate) (before after : Duration) : Prop where
  short : (Message.encode c.metadata).length ≤ Gcm.maxLength
  named : c.id.length = Material.idLength
  ordered : (c.notBefore.nanos - before) / 1000000000 < (c.notAfter.nanos + after) / 1000000000

variable {c : PrivateCertificate} {before after : Duration} {salt encrypted : Bytes}

theorem short_of_toPublic {p : PublicCertificate} (published : c.toPublic before after = .ok (some p)) :
    (Message.encode c.metadata).length ≤ Gcm.maxLength := by
  unfold toPublic at published
  split at published
  · cases published
  · next sealed hidden => exact Material.short_of_sealMetadata hidden

/-- A certificate is opened with its own key under a salt, and shown as it is, if its public form is in
good order, and otherwise not at all. -/
theorem opens_exactly (own : Material.applyKeyCipher c.secretKey salt c.metadataKey = .ok encrypted)
    (opens : 0 ≤ c.notBefore.nanos - before)
    (closes : c.notAfter.nanos + after < 9223372036854775808000000000) :
    (c.Presentable before after → ∃ p d, c.toPublic before after = .ok (some p) ∧
      DecryptedCertificate.ofPublic p ⟨salt, encrypted⟩ = .ok (some d) ∧ d.Shows p c) ∧
    (¬ c.Presentable before after → ∀ p, c.toPublic before after = .ok (some p) →
      DecryptedCertificate.ofPublic p ⟨salt, encrypted⟩ = .ok none) := by
  obtain ⟨start, begins, startNanos⟩ := Instant.minus?_ok opens
  obtain ⟨stop, ends⟩ := Instant.plus_ok closes
  have stopNanos := Instant.nanos_plus ends
  obtain ⟨notBefore, opening, openingNanos⟩ :=
    Timestamp.toInstant_ofInstant (t := start) (by omega)
  constructor
  · intro fit
    have ordered := fit.ordered
    obtain ⟨p, published, form, startTime, endTime⟩ := toPublic_ok fit.short begins ends
    obtain ⟨notAfter, closing, closingNanos⟩ :=
      Timestamp.toInstant_ofInstant (t := stop) (by omega)
    have most : Gcm.maxLength < UInt64.size := by decide
    have small := Nat.lt_of_le_of_lt fit.short most
    have lasts : notBefore.nanos < notAfter.nanos := by omega
    have shaped := form.isWellFormed_iff.2 fit.named
    have recovers : Material.applyKeyCipher c.secretKey salt encrypted = .ok c.metadataKey :=
      Material.applyKeyCipher_of_applyKeyCipher own
    have reveals : DecryptedCertificate.metadataOf p ⟨salt, encrypted⟩ = some c.metadata :=
      form.metadataOf small recovers
    have seen : DecryptedCertificate.ofPublic p ⟨salt, encrypted⟩ = _ :=
      DecryptedCertificate.ofPublic_eq startTime opening endTime closing lasts shaped
    rw [reveals] at seen
    refine ⟨p, _, published, seen, ?_⟩
    exact {
      id := form.secretId
      metadata := rfl
      opens := by
        rw [startTime]
        exact congrArg some opening
      closes := by
        rw [endTime]
        exact congrArg some closing
      forSelfShare := form.forSelfShare
      tokenHash := fun token => congrArg (Material.tokenHash · token) form.secretKey }
  · intro unfit p published
    have short := short_of_toPublic published
    obtain ⟨p', published', form, startTime, endTime⟩ := toPublic_ok short begins ends
    obtain rfl : p' = p := Option.some.inj (Except.ok.inj (published'.symm.trans published))
    have misshapen (ordered : (c.notBefore.nanos - before) / 1000000000 <
        (c.notAfter.nanos + after) / 1000000000) : ¬ p'.isWellFormed = true :=
      fun shaped => unfit ⟨short, form.isWellFormed_iff.1 shaped, ordered⟩
    -- An end before the epoch is written as one no later than it, so the window is empty then too.
    by_cases early : stop.nanos < 0
    · obtain ⟨notAfter, closing, closingNanos⟩ := Timestamp.toInstant_ofInstant_early early
      refine DecryptedCertificate.ofPublic_eq_none startTime opening endTime closing (.inl ?_)
      omega
    · obtain ⟨notAfter, closing, closingNanos⟩ := Timestamp.toInstant_ofInstant (Int.not_lt.1 early)
      refine DecryptedCertificate.ofPublic_eq_none startTime opening endTime closing ?_
      by_cases ordered : (c.notBefore.nanos - before) / 1000000000 <
          (c.notAfter.nanos + after) / 1000000000
      · exact .inr (misshapen ordered)
      · refine .inl ?_
        omega

end PrivateCertificate

namespace CertificateRecord

variable {r : CertificateRecord} {c : PrivateCertificate}

/-- Whether a record agrees with itself on the id and on the period. -/
structure Coherent (r : CertificateRecord) : Prop where
  named : Base64Url.decode r.id = (Base64Url.decode r.secretKey).map Sha256.digest
  lasts : r.notAfterNanos.toInt = r.notBeforeNanos.toInt + PrivateCertificate.validityPeriod

theorem Tells.coherent_iff (h : r.Tells c) :
    r.Coherent ↔ c.id = Sha256.digest c.secretKey ∧
      c.notAfter.nanos = c.notBefore.nanos + PrivateCertificate.validityPeriod := by
  rw [← h.notBefore, ← h.notAfter]
  constructor
  · rintro ⟨named, lasts⟩
    rw [h.id, h.secretKey] at named
    exact ⟨Option.some.inj named, lasts⟩
  · rintro ⟨own, lasts⟩
    refine ⟨?_, lasts⟩
    rw [h.id, h.secretKey, own]
    rfl

/-- The id and the times of a record are read as they are, whatever else is in it. -/
theorem Tells.load_altered (h : r.Tells c) {text : String} {notBefore notAfter : Int64}
    {c' : PrivateCertificate} :
    { r with id := text, notBeforeNanos := notBefore, notAfterNanos := notAfter }.load = .ok c' ↔
      ∃ id, Base64Url.decode text = some id ∧ c' = { c with
        id, notBefore := .ofUnixNanos notBefore, notAfter := .ofUnixNanos notAfter } := by
  have altered {id : Bytes} (decoded : Base64Url.decode text = some id) :
      { r with id := text, notBeforeNanos := notBefore, notAfterNanos := notAfter }.load =
        .ok { c with
          id, notBefore := .ofUnixNanos notBefore, notAfter := .ofUnixNanos notAfter } :=
    load_eq_ok_iff.2 ⟨h.visibility, h.signingKey, h.secretKey, h.metadataKey, decoded, h.metadata,
      h.consumedSalts, rfl, rfl⟩
  constructor
  · intro loaded
    have decoded := (load_eq_ok_iff.1 loaded).id
    exact ⟨c'.id, decoded, Except.ok.inj (loaded.symm.trans (altered decoded))⟩
  · rintro ⟨id, decoded, rfl⟩
    exact altered decoded

end CertificateRecord

theorem PrivateCertificate.presentable_of_own {c : PrivateCertificate} {before after : Duration}
    (own : c.id = Sha256.digest c.secretKey)
    (lasts : c.notAfter.nanos = c.notBefore.nanos + validityPeriod)
    (short : (Message.encode c.metadata).length ≤ Gcm.maxLength) : c.Presentable before after where
  short
  named := by
    rw [own]
    exact Sha256.length_digest c.secretKey
  ordered := by
    have period : (validityPeriod : Int) = 259200000000000 := by decide
    omega

/-- A record that loads gives a certificate of its own id and period exactly if it agrees with itself on
them, which is not looked at: any other id and times load as well. In its public form, from the epoch on
and as long as the clock goes, the certificate is opened by its own key under every salt if that form is
in good order, as it is for a record that agrees with itself, and otherwise by none. -/
theorem CertificateRecord.load_trusts {r : CertificateRecord} {c : PrivateCertificate}
    (loaded : r.load = .ok c) :
    (r.Coherent ↔ c.id = Sha256.digest c.secretKey ∧
      c.notAfter.nanos = c.notBefore.nanos + PrivateCertificate.validityPeriod) ∧
    (∀ (text : String) (notBefore notAfter : Int64) (c' : PrivateCertificate),
      { r with id := text, notBeforeNanos := notBefore, notAfterNanos := notAfter }.load = .ok c' ↔
        ∃ id, Base64Url.decode text = some id ∧ c' = { c with
          id, notBefore := .ofUnixNanos notBefore, notAfter := .ofUnixNanos notAfter }) ∧
    ∀ (before after : Duration) (salt : Bytes), 0 ≤ c.notBefore.nanos - before →
      c.notAfter.nanos + after < 9223372036854775808000000000 →
      (r.Coherent → (Message.encode c.metadata).length ≤ Gcm.maxLength → c.Presentable before after) ∧
      ∃ encrypted, Material.applyKeyCipher c.secretKey salt c.metadataKey = .ok encrypted ∧
        (c.Presentable before after → ∃ p d, c.toPublic before after = .ok (some p) ∧
          DecryptedCertificate.ofPublic p ⟨salt, encrypted⟩ = .ok (some d) ∧ d.Shows p c) ∧
        (¬ c.Presentable before after → ∀ p, c.toPublic before after = .ok (some p) →
          DecryptedCertificate.ofPublic p ⟨salt, encrypted⟩ = .ok none) := by
  have told := load_eq_ok_iff.1 loaded
  refine ⟨told.coherent_iff, fun _ _ _ _ => told.load_altered, ?_⟩
  intro before after salt opens closes
  refine ⟨fun coherent short => ?_, ?_⟩
  · obtain ⟨own, lasts⟩ := told.coherent_iff.1 coherent
    exact PrivateCertificate.presentable_of_own own lasts short
  · obtain ⟨encrypted, enciphers⟩ :=
      Material.applyKeyCipher_ok salt c.metadataKey c.secretKey_length
    exact ⟨encrypted, enciphers, PrivateCertificate.opens_exactly enciphers opens closes⟩

namespace CertificateRecord

/-- A certificate whose id is its own, for three days from the epoch. -/
def genuine : PrivateCertificate where
  visibility := .allContacts
  notBefore := .epoch
  notAfter := .ofUnixNanos 259200000000000
  signingKey := .ofSeed 0
  secretKey := List.replicate Material.secretKeyLength 3
  metadataKey := List.replicate Material.metadataKeyLength 4
  id := Sha256.digest (List.replicate Material.secretKeyLength 3)
  metadata := {}
  consumedSalts := .empty
  secretKey_length := List.length_replicate
  metadataKey_length := List.length_replicate

/-- The same without an id, and for no time at all. -/
def estranged : PrivateCertificate := { genuine with id := [], notAfter := .epoch }

/-- The record of the certificate with its id and its end put out. -/
def damaged : CertificateRecord := { ofCertificate genuine with id := "", notAfterNanos := 0 }

theorem load_genuine : (ofCertificate genuine).load = .ok genuine :=
  load_of_lasting ⟨by decide, by decide, @Metadata.sized_of_short {} (by decide)⟩

theorem own_genuine : genuine.id = Sha256.digest genuine.secretKey := by
  simp only [genuine]

theorem short_of_none {c : PrivateCertificate} (none : c.metadata = {}) :
    (Message.encode c.metadata).length ≤ Gcm.maxLength := by
  rw [none]
  decide

/-- Its record agrees with itself, so that its own key opens its public form under any salt; with another
id and end it loads as well. -/
theorem load_trusts_genuine : (ofCertificate genuine).load = .ok genuine ∧
    (ofCertificate genuine).Coherent ∧
    (∃ encrypted p d, Material.applyKeyCipher genuine.secretKey [1, 2] genuine.metadataKey =
        .ok encrypted ∧ genuine.toPublic 0 0 = .ok (some p) ∧
      DecryptedCertificate.ofPublic p ⟨[1, 2], encrypted⟩ = .ok (some d) ∧ d.Shows p genuine) ∧
    damaged.load = .ok estranged := by
  obtain ⟨coherent, altered, opening⟩ := load_trusts load_genuine
  have agrees : (ofCertificate genuine).Coherent :=
    coherent.2 ⟨own_genuine, by decide +kernel⟩
  obtain ⟨fit, encrypted, enciphers, opened, _⟩ :=
    opening 0 0 [1, 2] (by decide +kernel) (by decide +kernel)
  obtain ⟨p, d, published, seen, shown⟩ := opened (fit agrees (short_of_none rfl))
  refine ⟨load_genuine, agrees, ⟨encrypted, p, d, enciphers, published, seen, shown⟩, ?_⟩
  exact (altered "" 0 0 estranged).2 ⟨[], by decide +kernel, rfl⟩

/-- The damaged record loads, into a certificate that neither its id nor its period belongs to, and whose
own key opens its public form under no salt. -/
theorem load_damaged : damaged.load = .ok estranged ∧
    estranged.id ≠ Sha256.digest estranged.secretKey ∧
    estranged.notAfter.nanos ≠ estranged.notBefore.nanos + PrivateCertificate.validityPeriod ∧
    ∀ salt, ∃ encrypted p, Material.applyKeyCipher estranged.secretKey salt estranged.metadataKey =
        .ok encrypted ∧ estranged.toPublic 0 0 = .ok (some p) ∧
      DecryptedCertificate.ofPublic p ⟨salt, encrypted⟩ = .ok none := by
  have told := load_eq_ok_iff.1 load_genuine
  refine ⟨told.load_altered.2 ⟨[], by decide +kernel, rfl⟩, ?_, by decide +kernel, fun salt => ?_⟩
  · intro same
    have length := congrArg List.length same
    rw [Sha256.length_digest] at length
    cases length
  · obtain ⟨encrypted, enciphers⟩ :=
      Material.applyKeyCipher_ok salt estranged.metadataKey estranged.secretKey_length
    obtain ⟨start, begins, _⟩ : ∃ r, estranged.notBefore.minus? 0 = some r ∧ _ :=
      Instant.minus?_ok (by decide +kernel)
    obtain ⟨stop, ends⟩ : ∃ r, estranged.notAfter.plus 0 = .ok r :=
      Instant.plus_ok (by decide +kernel)
    obtain ⟨p, published, _⟩ :=
      PrivateCertificate.toPublic_ok (c := estranged) (short_of_none rfl) begins ends
    have unfit : ¬ estranged.Presentable 0 0 := fun fit => by
      have named := fit.named
      cases named
    exact ⟨encrypted, p, enciphers, published,
      (PrivateCertificate.opens_exactly enciphers (by decide +kernel) (by decide +kernel)).2 unfit p
        published⟩

end CertificateRecord
end ProximityCert
