import ProximityCert.Certificate.Decrypted
import ProximityCert.Proofs.Certificate.Records
import ProximityCert.Proofs.Certificate.Privates

/-!
A certificate opens with its own keys: whoever holds its public form and any key that it ever handed
out sees the same certificate, and no other key shows another one.
-/

namespace ProximityCert

/-- From the epoch on, a timestamp is its instant without the fraction of a second. -/
theorem Timestamp.toInstant_ofInstant {t : Instant} (after : 0 ≤ t.nanos) :
    ∃ whole, (ofInstant t).toInstant = .ok whole ∧
      whole.nanos = t.nanos / 1000000000 * 1000000000 := by
  have upper := t.upper
  have seconds : (Int64.ofInt (t.nanos / 1000000000)).toInt = t.nanos / 1000000000 := by
    refine Int64.toInt_ofInt_of_le ?_ ?_
    · omega
    · omega
  have within : -9223372036854775808000000000 ≤ t.nanos / 1000000000 * 1000000000 ∧
      t.nanos / 1000000000 * 1000000000 < 9223372036854775808000000000 := by
    constructor
    · omega
    · omega
  refine ⟨⟨t.nanos / 1000000000 * 1000000000, within.1, within.2⟩, ?_, rfl⟩
  have written : ofInstant t = ⟨Int64.ofInt (t.nanos / 1000000000), 0⟩ := by
    rw [ofInstant, if_pos after]
  rw [written, toInstant, seconds]
  have noFraction : max 0 (0 : Int32).toInt = 0 := rfl
  rw [noFraction, Int.add_zero, Instant.ofNanos?, dif_pos within]

/-- Before the epoch, a timestamp is not after it either. -/
theorem Timestamp.toInstant_ofInstant_early {t : Instant} (early : t.nanos < 0) :
    ∃ whole, (ofInstant t).toInstant = .ok whole ∧ whole.nanos ≤ 0 := by
  obtain ⟨ago, written, few⟩ : ∃ ago : Nat, ofInstant t = ⟨Int64.ofInt (-ago), 0⟩ ∧
      ago ≤ 9223372036854775807 :=
    ⟨_, if_neg (Int.not_le.2 early), Nat.le_trans (Nat.min_le_right _ _) (by decide +kernel)⟩
  have seconds : (Int64.ofInt (-ago)).toInt = -ago := by
    refine Int64.toInt_ofInt_of_le ?_ ?_
    · omega
    · omega
  have within : -9223372036854775808000000000 ≤ -(ago : Int) * 1000000000 ∧
      -(ago : Int) * 1000000000 < 9223372036854775808000000000 := by
    constructor
    · omega
    · omega
  refine ⟨⟨-(ago : Int) * 1000000000, within.1, within.2⟩, ?_, ?_⟩
  · rw [written, toInstant, seconds]
    have noFraction : max 0 (0 : Int32).toInt = 0 := rfl
    rw [noFraction, Int.add_zero, Instant.ofNanos?, dif_pos within]
  · show -(ago : Int) * 1000000000 ≤ 0
    omega

theorem Instant.minus?_ok {t : Instant} {d : Duration} (after : 0 ≤ t.nanos - d) :
    ∃ r, t.minus? d = some r ∧ r.nanos = t.nanos - d := by
  have upper := t.upper
  rw [minus?, ofNanos?, dif_pos ⟨by omega, by omega⟩]
  exact ⟨_, rfl, rfl⟩

namespace PrivateCertificate

/-- What can become of a certificate: it is asked for keys, and stored and loaded again. -/
inductive Worn (c : PrivateCertificate) : PrivateCertificate → Prop
  | new : Worn c c
  | used {c' : PrivateCertificate} (e : Entropy) (worn : Worn c c') :
      Worn c (c'.encryptMetadataKey e).2.1
  | stored {c' c'' : PrivateCertificate} (worn : Worn c c')
      (loaded : (CertificateRecord.ofCertificate c').load = .ok c'') : Worn c c''

/-- A key that a certificate hands out at some point of its life. -/
def HandsOut (c : PrivateCertificate) (key : EncryptedMetadataKey) : Prop :=
  ∃ c' e, c.Worn c' ∧ (c'.encryptMetadataKey e).1 = some key

variable {c c' : PrivateCertificate} {key : EncryptedMetadataKey} {before after : Duration}

theorem Worn.keys (worn : c.Worn c') :
    c'.secretKey = c.secretKey ∧ c'.metadataKey = c.metadataKey := by
  induction worn with
  | new => exact ⟨rfl, rfl⟩
  | used e _ ih =>
      obtain ⟨salts, used⟩ := encryptMetadataKey_same _ e
      rw [used]
      exact ih
  | stored _ loaded ih =>
      rw [CertificateRecord.load_ofCertificate_eq] at loaded
      obtain ⟨metadata, _, rfl⟩ := map_eq_ok.1 loaded
      exact ih

theorem HandsOut.enciphered (h : c.HandsOut key) :
    Material.applyKeyCipher c.secretKey key.salt c.metadataKey = .ok key.encryptedKey := by
  obtain ⟨c', e, worn, handed⟩ := h
  rcases encryptMetadataKey_cases c' e with ⟨none, _⟩ | ⟨key', salt, found, hands, _⟩
  · rw [none] at handed
    cases handed
  · rw [found] at handed
    obtain ⟨secret, metadata⟩ := worn.keys
    rw [← secret, ← metadata, ← Option.some.inj handed]
    exact hands.enciphered

end PrivateCertificate

namespace DecryptedCertificate

variable {p : PublicCertificate} {key : EncryptedMetadataKey} {m : Metadata}

theorem metadataOf_eq_some_iff :
    metadataOf p key = some m ↔ ∃ k plaintext,
      Material.applyKeyCipher p.secretKey key.salt key.encryptedKey = .ok k ∧
      Material.keyTag k = p.metadataKeyTag ∧
      Material.openMetadata k p.secretKey p.encryptedMetadata = .ok plaintext ∧
      Message.decode plaintext = some m := by
  unfold metadataOf
  cases recovered : Material.applyKeyCipher p.secretKey key.salt key.encryptedKey with
  | error f =>
      constructor
      · intro h
        cases h
      · rintro ⟨k, plaintext, h, _⟩
        cases h
  | ok k =>
      show (if Material.keyTagMatches k p.metadataKeyTag then _ else none) = some m ↔ _
      constructor
      · intro h
        split at h
        · next tagged =>
            obtain ⟨plaintext, opened, read⟩ := Option.bind_eq_some_iff.1 h
            refine ⟨k, plaintext, rfl, of_decide_eq_true tagged, ?_, read⟩
            cases result : Material.openMetadata k p.secretKey p.encryptedMetadata with
            | error f =>
                rw [result] at opened
                cases opened
            | ok bs =>
                rw [result] at opened
                rw [Option.some.inj opened]
        · cases h
      · rintro ⟨k', plaintext, same, tagged, opened, read⟩
        cases same
        have matched : Material.keyTagMatches k p.metadataKeyTag = true := decide_eq_true tagged
        rw [if_pos matched, opened]
        exact read

/-- A public form in good order shows what its metadata are opened to. -/
theorem ofPublic_eq {start stop : Timestamp} {notBefore notAfter : Instant}
    (starts : p.startTime = some start) (opens : start.toInstant = .ok notBefore)
    (stops : p.endTime = some stop) (closes : stop.toInstant = .ok notAfter)
    (ordered : notBefore.nanos < notAfter.nanos) (shaped : p.isWellFormed = true) :
    ofPublic p key = .ok ((metadataOf p key).map fun metadata =>
      { id := p.secretId, notBefore, notAfter, secretKey := p.secretKey, publicKey := p.publicKey
        metadata, forSelfShare := p.forSelfShare }) := by
  have late : ¬ (notAfter ≤ notBefore ∨ ¬ p.isWellFormed = true) := by
    rintro (early | misshapen)
    · exact absurd early (Int.not_le.2 ordered)
    · exact misshapen shaped
  unfold ofPublic
  rw [starts]
  dsimp only
  rw [opens, stops]
  show (stop.toInstant >>= _) = _
  rw [closes]
  show (if _ then _ else _) = _
  rw [if_neg late]

/-- A public form that is not in good order shows nothing. -/
theorem ofPublic_eq_none {start stop : Timestamp} {notBefore notAfter : Instant}
    (starts : p.startTime = some start) (opens : start.toInstant = .ok notBefore)
    (stops : p.endTime = some stop) (closes : stop.toInstant = .ok notAfter)
    (faulty : notAfter.nanos ≤ notBefore.nanos ∨ ¬ p.isWellFormed = true) :
    ofPublic p key = .ok none := by
  unfold ofPublic
  rw [starts]
  dsimp only
  rw [opens, stops]
  show (stop.toInstant >>= _) = _
  rw [closes]
  show (if notAfter.nanos ≤ notBefore.nanos ∨ ¬ p.isWellFormed = true then _ else _) = _
  rw [if_pos faulty]

/-- What the holder of a public form and of a right key sees of a certificate. -/
structure Shows (d : DecryptedCertificate) (p : PublicCertificate) (c : PrivateCertificate) :
    Prop where
  id : d.id = c.id
  metadata : d.metadata = c.metadata
  opens : p.startTime.map Timestamp.toInstant = some (.ok d.notBefore)
  closes : p.endTime.map Timestamp.toInstant = some (.ok d.notAfter)
  forSelfShare : d.forSelfShare = true ↔ c.visibility = .selfShare
  tokenHash : ∀ token, d.tokenHash token = c.tokenHash token

end DecryptedCertificate

/-- A public form says of a certificate what it must, whatever its bounds. -/
structure PublicCertificate.IsFormOf (p : PublicCertificate) (c : PrivateCertificate) : Prop where
  secretId : p.secretId = c.id
  secretKey : p.secretKey = c.secretKey
  publicKey : p.publicKey = c.signingKey.publicDer
  tag : p.metadataKeyTag = Material.keyTag c.metadataKey
  filled : p.encryptedMetadata ≠ []
  unsealed : Material.openMetadata c.metadataKey c.secretKey p.encryptedMetadata =
    .ok (Message.encode c.metadata)
  forSelfShare : p.forSelfShare = true ↔ c.visibility = .selfShare

namespace PublicCertificate.IsFormOf

variable {p : PublicCertificate} {c : PrivateCertificate} {key : EncryptedMetadataKey}

theorem isWellFormed_iff (form : p.IsFormOf c) :
    p.isWellFormed = true ↔ c.id.length = Material.idLength := by
  simp [PublicCertificate.isWellFormed, form.secretId, form.secretKey, form.publicKey, form.filled,
    form.tag, c.secretKey_length, SigningKey.publicDer, Der.Element.bytes]

theorem isWellFormed (form : p.IsFormOf c) (digest : c.id = Sha256.digest c.secretKey) :
    p.isWellFormed = true := by
  rw [form.isWellFormed_iff, digest]
  exact Sha256.length_digest c.secretKey

theorem metadataOf (form : p.IsFormOf c) (short : (Message.encode c.metadata).length < UInt64.size)
    (own : Material.applyKeyCipher c.secretKey key.salt key.encryptedKey = .ok c.metadataKey) :
    DecryptedCertificate.metadataOf p key = some c.metadata := by
  rw [← form.secretKey] at own
  have unsealed := form.unsealed
  rw [← form.secretKey] at unsealed
  exact DecryptedCertificate.metadataOf_eq_some_iff.2
    ⟨c.metadataKey, _, own, form.tag.symm, unsealed, Message.decode_encode (Nat.zero_le _) short⟩

/-- A key that recovers another metadata key opens nothing, if the tags differ too. -/
theorem metadata_eq {m : Metadata} (form : p.IsFormOf c)
    (short : (Message.encode c.metadata).length < UInt64.size)
    (distinct : ∀ k, Material.applyKeyCipher c.secretKey key.salt key.encryptedKey = .ok k →
      Material.keyTag k = Material.keyTag c.metadataKey → k = c.metadataKey)
    (opened : DecryptedCertificate.metadataOf p key = some m) : m = c.metadata := by
  obtain ⟨k, plaintext, recovered, tagged, found, decoded⟩ :=
    DecryptedCertificate.metadataOf_eq_some_iff.1 opened
  rw [form.secretKey] at recovered found
  rw [distinct k recovered (tagged.trans form.tag), form.unsealed] at found
  rw [← Except.ok.inj found, Message.decode_encode (Nat.zero_le _) short] at decoded
  exact (Option.some.inj decoded).symm

end PublicCertificate.IsFormOf

namespace PrivateCertificate

theorem toPublic_ok {c : PrivateCertificate} {before after : Duration} {start stop : Instant}
    (short : (Message.encode c.metadata).length ≤ Gcm.maxLength)
    (begins : c.notBefore.minus? before = some start) (ends : c.notAfter.plus after = .ok stop) :
    ∃ p, c.toPublic before after = .ok (some p) ∧ p.IsFormOf c ∧
      p.startTime = some (.ofInstant start) ∧ p.endTime = some (.ofInstant stop) := by
  obtain ⟨sealed, hidden⟩ := Material.sealMetadata_ok c.metadataKey c.secretKey short
  obtain ⟨filled, unsealed⟩ := Material.sealMetadata_eq_ok hidden
  unfold toPublic
  rw [hidden, begins, ends]
  exact ⟨_, rfl, ⟨rfl, rfl, rfl, rfl, filled, unsealed, decide_eq_true_iff⟩, rfl, rfl⟩

/-- The public form of a new certificate is opened, to the second, by every key that the certificate
ever hands out, and no other key opens it to anything else unless its metadata key has the same tag. -/
theorem opens_with_own_keys {v : Visibility} {t : Instant} {metadata : Metadata} {e e' : Entropy}
    {c : PrivateCertificate} (before after : Duration)
    (made : fresh v t metadata e = .ok (c, e'))
    (short : (Message.encode c.metadata).length ≤ Gcm.maxLength)
    (opens : 0 ≤ c.notBefore.nanos - before)
    (closes : c.notAfter.nanos + after < 9223372036854775808000000000) :
    ∃ p d, c.toPublic before after = .ok (some p) ∧ d.Shows p c ∧
      d.notBefore.nanos = (c.notBefore.nanos - before) / 1000000000 * 1000000000 ∧
      d.notAfter.nanos = (c.notAfter.nanos + after) / 1000000000 * 1000000000 ∧
      (∀ key, c.HandsOut key → DecryptedCertificate.ofPublic p key = .ok (some d)) ∧
      ∀ key d', DecryptedCertificate.ofPublic p key = .ok (some d') →
        (∀ k, Material.applyKeyCipher c.secretKey key.salt key.encryptedKey = .ok k →
          Material.keyTag k = Material.keyTag c.metadataKey → k = c.metadataKey) →
        d' = d := by
  obtain ⟨start, begins, startNanos⟩ := Instant.minus?_ok opens
  obtain ⟨stop, ends⟩ := Instant.plus_ok closes
  have stopNanos := Instant.nanos_plus ends
  have window : c.notAfter.nanos = c.notBefore.nanos + 259200000000000 := by
    obtain ⟨-, same, period, -⟩ := fresh_ok made
    rw [same]
    exact period
  obtain ⟨p, published, form, startTime, endTime⟩ := toPublic_ok short begins ends
  obtain ⟨notBefore, opening, openingNanos⟩ :=
    Timestamp.toInstant_ofInstant (t := start) (by omega)
  obtain ⟨notAfter, closing, closingNanos⟩ :=
    Timestamp.toInstant_ofInstant (t := stop) (by omega)
  -- only the metadata depends on the key, all checks of the form are passed once and for all
  have result : ∀ key, DecryptedCertificate.ofPublic p key = _ := fun key =>
    DecryptedCertificate.ofPublic_eq startTime opening endTime closing (by omega)
      (form.isWellFormed (fresh_id made).1)
  have small := Nat.lt_of_le_of_lt short (show Gcm.maxLength < UInt64.size by decide)
  refine ⟨p, { id := p.secretId, notBefore, notAfter, secretKey := p.secretKey
               publicKey := p.publicKey, metadata := c.metadata, forSelfShare := p.forSelfShare },
    published, ?_, ?_, ?_, ?_, ?_⟩
  · constructor
    · exact form.secretId
    · rfl
    · rw [startTime]
      exact congrArg some opening
    · rw [endTime]
      exact congrArg some closing
    · exact form.forSelfShare
    · intro token
      exact congrArg (Material.tokenHash · token) form.secretKey
  · rw [openingNanos, startNanos]
  · rw [closingNanos, stopNanos]
  · intro key own
    rw [result, form.metadataOf small (Material.applyKeyCipher_of_applyKeyCipher own.enciphered)]
    rfl
  · intro key d' seen distinct
    rw [result] at seen
    obtain ⟨m, opened, rfl⟩ := Option.map_eq_some_iff.1 (Except.ok.inj seen)
    rw [form.metadata_eq small distinct opened]

/-- A certificate for the owner's own devices that opens a second and a half after the epoch, published
from half a second earlier to half a second later. -/
theorem opens_with_own_keys_selfShare :
    ∃ c key p d,
      (∃ e', fresh .selfShare ⟨1500000000, by decide, by decide⟩ {} ⟨fun _ => 0, 0⟩ = .ok (c, e')) ∧
      c.HandsOut key ∧ c.toPublic 500000000 500000000 = .ok (some p) ∧
      DecryptedCertificate.ofPublic p key = .ok (some d) ∧ d.id = c.id ∧ d.forSelfShare = true ∧
      d.notBefore.nanos = 1000000000 ∧ d.notAfter.nanos = 259202000000000 := by
  have makes : ∃ c e', fresh .selfShare ⟨1500000000, by decide, by decide⟩ {} ⟨fun _ => 0, 0⟩ =
      .ok (c, e') := ⟨_, _, rfl⟩
  obtain ⟨c, e', made⟩ := makes
  obtain ⟨own, opensAt, period, same⟩ := fresh_ok made
  have closesAt : c.notAfter.nanos = 259201500000000 := period
  obtain ⟨key, found⟩ := hands_of_unused (fresh_id made).2 e'
  have handsOut : c.HandsOut key := ⟨c, e', .new, found⟩
  obtain ⟨p, d, published, shows_, opens, closes, opened, _⟩ :=
    opens_with_own_keys 500000000 500000000 made
      (by rw [same]; decide) (by rw [opensAt]; decide) (by rw [closesAt]; decide)
  refine ⟨c, key, p, d, ⟨e', made⟩, handsOut, published, opened key handsOut, shows_.id,
    shows_.forSelfShare.2 own, ?_, ?_⟩
  · rw [opens, opensAt]
    rfl
  · rw [closes, closesAt]
    rfl

end PrivateCertificate
end ProximityCert
