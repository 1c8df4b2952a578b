import ProximityCert.Certificate.Private
import ProximityCert.Proofs.Cipher.Sealing
import ProximityCert.Proofs.Lookups

/-!
Certificates as they are made, and the keys that they hand out. Each key stands under a salt that was
not used before and is used from then on; a request that is refused leaves the certificate as it was.
-/

namespace ProximityCert

theorem Instant.nanos_plus {t r : Instant} {d : Duration} (h : t.plus d = .ok r) :
    r.nanos = t.nanos + d := by
  unfold plus ofNanos? at h
  split at h
  · next found =>
      split at found
      · cases found
        cases h
        rfl
      · cases found
  · cases h

theorem Instant.plus_ok {t : Instant} {d : Duration}
    (within : t.nanos + d < 9223372036854775808000000000) : ∃ r, t.plus d = .ok r := by
  have lower := t.lower
  rw [plus, ofNanos?, dif_pos ⟨by omega, within⟩]
  exact ⟨_, rfl⟩

theorem Validity.contains_exactly (now notBefore notAfter : Instant) :
    contains now notBefore notAfter false = .ok (decide (notBefore ≤ now ∧ now < notAfter)) := by
  unfold contains isExpired limit opening
  by_cases opened : notBefore ≤ now
  · by_cases past : notAfter ≤ now
    · simp [opened, past, Except.map, show ¬ now < notAfter from Int.not_lt.2 past]
    · simp [opened, past, Except.map, show now < notAfter from Int.not_le.1 past]
  · simp [opened]

namespace PrivateCertificate

variable {v : Visibility} {t : Instant} {metadata : Metadata} {e e' : Entropy}
    {c : PrivateCertificate}

/-- A fresh certificate has the given visibility, opening and metadata, and is valid for the period. -/
theorem fresh_ok (h : fresh v t metadata e = .ok (c, e')) :
    c.visibility = v ∧ c.notBefore = t ∧ c.notAfter.nanos = t.nanos + validityPeriod ∧
      c.metadata = metadata := by
  unfold fresh at h
  cases stop : t.plus validityPeriod with
  | error fault => simp [stop, Except.map] at h
  | ok r =>
      simp only [stop, Except.map, Except.ok.injEq, Prod.mk.injEq] at h
      obtain ⟨rfl, _⟩ := h
      exact ⟨rfl, rfl, Instant.nanos_plus stop, rfl⟩

/-- Its id is the digest of its secret key, and it has used no salt. -/
theorem fresh_id (h : fresh v t metadata e = .ok (c, e')) :
    c.id = Sha256.digest c.secretKey ∧ c.consumedSalts = .empty := by
  obtain ⟨stop, _, made⟩ := map_eq_ok.1 h
  rw [← (Prod.mk.inj made).1]
  exact ⟨rfl, rfl⟩

/-- A certificate hands out a key: it has salts left, and uses up the one that stands in the key. -/
structure Hands (c : PrivateCertificate) (key : EncryptedMetadataKey) (salt : Salt) : Prop where
  left : c.consumedSalts.size < maxSalts
  unused : c.consumedSalts.contains salt = false
  named : key.salt = salt.bytes
  enciphered : Material.applyKeyCipher c.secretKey key.salt c.metadataKey = .ok key.encryptedKey

theorem drawSalt_unused {consumed : SortedSet Salt} {draws : Nat} {e e' : Entropy} {salt : Salt}
    (h : drawSalt consumed draws e = (some salt, e')) : consumed.contains salt = false := by
  induction draws generalizing e with
  | zero => cases h
  | succ draws ih =>
      rw [drawSalt] at h
      dsimp only at h
      split at h
      · exact ih h
      · next unused =>
          rw [← Option.some.inj (Prod.mk.inj h).1]
          exact eq_false_of_ne_true unused

/-- A request is refused, or it hands out a key and marks its salt as used. -/
theorem encryptMetadataKey_cases (c : PrivateCertificate) (e : Entropy) :
    ((c.encryptMetadataKey e).1 = none ∧ (c.encryptMetadataKey e).2.1 = c) ∨
      ∃ key salt, (c.encryptMetadataKey e).1 = some key ∧ c.Hands key salt ∧
        (c.encryptMetadataKey e).2.1 =
          { c with consumedSalts := SortedSet.add c.consumedSalts salt } := by
  unfold encryptMetadataKey
  split
  · exact .inl ⟨rfl, rfl⟩
  · next left =>
      split
      · exact .inl ⟨rfl, rfl⟩
      · next salt _ drawn =>
          obtain ⟨encryptedKey, enciphered⟩ :=
            Material.applyKeyCipher_ok salt.bytes c.metadataKey c.secretKey_length
          rw [enciphered]
          refine .inr ⟨⟨salt.bytes, encryptedKey⟩, salt, rfl, ?_, rfl⟩
          exact ⟨Nat.lt_of_not_le left, drawSalt_unused drawn, rfl, enciphered⟩

/-- Using up a salt changes nothing else about a certificate. -/
theorem encryptMetadataKey_same (c : PrivateCertificate) (e : Entropy) :
    ∃ salts, (c.encryptMetadataKey e).2.1 = { c with consumedSalts := salts } := by
  rcases encryptMetadataKey_cases c e with ⟨_, same⟩ | ⟨_, salt, _, _, used⟩
  · exact ⟨c.consumedSalts, same⟩
  · exact ⟨SortedSet.add c.consumedSalts salt, used⟩

/-- A certificate that has used no salt is not refused. -/
theorem hands_of_unused (unused : c.consumedSalts = .empty) (e : Entropy) :
    ∃ key, (c.encryptMetadataKey e).1 = some key := by
  have drawn : drawSalt .empty maxSaltDraws e =
      (some (Salt.ofBytes (e.bytes Material.saltLength).1), (e.bytes Material.saltLength).2) := rfl
  obtain ⟨encryptedKey, enciphered⟩ := Material.applyKeyCipher_ok
    (Salt.ofBytes (e.bytes Material.saltLength).1).bytes c.metadataKey c.secretKey_length
  unfold encryptMetadataKey
  rw [unused, if_neg (by decide), drawn]
  dsimp only
  rw [enciphered]
  exact ⟨_, rfl⟩

end PrivateCertificate
end ProximityCert
