import ProximityCert.Certificate.Material
import ProximityCert.Proofs.Outcomes

/-!
What has been enciphered is deciphered by the same secrets. A keystream covers its data, so combining
with it twice gives the data back; the tag stands in the last sixteen octets, where it is looked for.
-/

namespace ProximityCert

namespace Bytes

@[simp] theorem length_xor (a b : Bytes) : (xor a b).length = min a.length b.length :=
  List.length_zipWith

theorem xor_xor {a b : Bytes} (covered : a.length ≤ b.length) : xor (xor a b) b = a := by
  induction a generalizing b with
  | nil => rfl
  | cons x a ih =>
      cases b with
      | nil => exact absurd covered (Nat.not_succ_le_zero _)
      | cons y b =>
          have back : x ^^^ y ^^^ y = x := by
            rw [UInt8.xor_assoc, UInt8.xor_self, UInt8.xor_zero]
          show (x ^^^ y ^^^ y) :: xor (xor a b) b = x :: a
          rw [back, ih (Nat.le_of_succ_le_succ covered)]

end Bytes

namespace Keystream

variable {block : Nat → Bytes} (whole : ∀ i, (block i).length = 16)
include whole

theorem length_blocks (count : Nat) : (blocks block count).length = 16 * count := by
  induction count with
  | zero => rfl
  | succ count ih =>
      have step : blocks block (count + 1) = blocks block count ++ block count := by
        rw [blocks, List.range_succ, List.flatMap_append, List.flatMap_singleton]
        rfl
      rw [step, List.length_append, ih, whole, Nat.mul_succ]

theorem covers (data : Bytes) :
    data.length ≤ (blocks block ((data.length + 15) / 16)).length := by
  rw [length_blocks whole]
  omega

theorem length_apply (data : Bytes) : (apply block data).length = data.length := by
  rw [apply, Bytes.length_xor]
  exact Nat.min_eq_left (covers whole data)

theorem apply_apply (data : Bytes) : apply block (apply block data) = data := by
  have again : apply block (apply block data) =
      Bytes.xor (apply block data) (blocks block ((data.length + 15) / 16)) := by
    rw [apply, length_apply whole]
  rw [again]
  exact Bytes.xor_xor (covers whole data)

end Keystream

theorem CounterMode.apply_apply (key iv data : Bytes) :
    apply key iv (apply key iv data) = data :=
  Keystream.apply_apply (fun _ => Aes256.length_cipher _ _) data

namespace Gcm

theorem length_applyStream (key nonce data : Bytes) :
    (applyStream key nonce data).length = data.length :=
  Keystream.length_apply (fun _ => Aes256.length_cipher _ _) data

theorem applyStream_applyStream (key nonce data : Bytes) :
    applyStream key nonce (applyStream key nonce data) = data :=
  Keystream.apply_apply (fun _ => Aes256.length_cipher _ _) data

theorem length_tag (key nonce ciphertext : Bytes) : (tag key nonce ciphertext).length = tagLength := by
  rw [tag, Bytes.length_xor, Bytes.length_ofNat, Aes256.length_cipher]
  rfl

theorem encrypt_eq_some {key nonce plaintext sealed : Bytes}
    (h : encrypt key nonce plaintext = some sealed) :
    plaintext.length ≤ maxLength ∧
      sealed = applyStream key nonce plaintext ++
        tag key nonce (applyStream key nonce plaintext) := by
  unfold encrypt at h
  split at h
  · cases h
  · next short => exact ⟨Nat.le_of_not_gt short, (Option.some.inj h).symm⟩

/-- A sealed message is opened by the key and the nonce that sealed it. -/
theorem decrypt_of_encrypt {key nonce plaintext sealed : Bytes}
    (h : encrypt key nonce plaintext = some sealed) :
    decrypt key nonce sealed = some plaintext := by
  obtain ⟨short, rfl⟩ := encrypt_eq_some h
  have total : (applyStream key nonce plaintext ++
      tag key nonce (applyStream key nonce plaintext)).length = plaintext.length + tagLength := by
    rw [List.length_append, length_applyStream, length_tag]
  have split : (applyStream key nonce plaintext).length = plaintext.length + tagLength - tagLength := by
    rw [length_applyStream, Nat.add_sub_cancel]
  rw [decrypt, total, if_neg (by omega), List.take_left' split, List.drop_left' split]
  simp only [if_true, applyStream_applyStream]

theorem length_of_encrypt {key nonce plaintext sealed : Bytes}
    (h : encrypt key nonce plaintext = some sealed) : tagLength ≤ sealed.length := by
  obtain ⟨_, rfl⟩ := encrypt_eq_some h
  rw [List.length_append, length_tag]
  exact Nat.le_add_left _ _

end Gcm

namespace Material

/-- Keys as short as the ones in use can be derived from every secret. -/
theorem deriveKey_ok (secret : Bytes) {length : Nat} (short : length ≤ Hkdf.maxLength) :
    ∃ key, deriveKey secret length = .ok key := by
  rw [deriveKey, Hkdf.expand, if_neg (Nat.not_lt.2 short)]
  exact ⟨_, rfl⟩

theorem applyKeyCipher_ok {secretKey : Bytes} (salt data : Bytes)
    (whole : secretKey.length = secretKeyLength) :
    ∃ out, applyKeyCipher secretKey salt data = .ok out := by
  obtain ⟨iv, derived⟩ := deriveKey_ok salt (show CounterMode.ivLength ≤ Hkdf.maxLength by decide)
  refine ⟨CounterMode.apply secretKey iv data, bind_eq_ok.2 ⟨iv, derived, ?_⟩⟩
  exact if_pos whole

/-- The same call deciphers. -/
theorem applyKeyCipher_of_applyKeyCipher {secretKey salt data out : Bytes}
    (h : applyKeyCipher secretKey salt data = .ok out) :
    applyKeyCipher secretKey salt out = .ok data := by
  obtain ⟨iv, derived, applied⟩ := bind_eq_ok.1 h
  refine bind_eq_ok.2 ⟨iv, derived, ?_⟩
  split at applied
  · next whole => rw [if_pos whole, ← Except.ok.inj applied, CounterMode.apply_apply]
  · cases applied

theorem sealMetadata_ok (metadataKey secretKey : Bytes) {plaintext : Bytes}
    (short : plaintext.length ≤ Gcm.maxLength) :
    ∃ sealed, sealMetadata metadataKey secretKey plaintext = .ok sealed := by
  obtain ⟨key, own⟩ := deriveKey_ok metadataKey (show Gcm.keyLength ≤ Hkdf.maxLength by decide)
  obtain ⟨nonce, common⟩ := deriveKey_ok secretKey (show Gcm.nonceLength ≤ Hkdf.maxLength by decide)
  have enciphered : ∃ sealed, Gcm.encrypt key nonce plaintext = some sealed := by
    rw [Gcm.encrypt, if_neg (Nat.not_lt.2 short)]
    exact ⟨_, rfl⟩
  obtain ⟨sealed, enciphered⟩ := enciphered
  refine ⟨sealed, bind_eq_ok.2 ⟨key, own, bind_eq_ok.2 ⟨nonce, common, ?_⟩⟩⟩
  exact Failure.ifAbsent_eq_ok.2 enciphered

theorem short_of_sealMetadata {metadataKey secretKey plaintext sealed : Bytes}
    (h : sealMetadata metadataKey secretKey plaintext = .ok sealed) :
    plaintext.length ≤ Gcm.maxLength := by
  obtain ⟨key, _, h⟩ := bind_eq_ok.1 h
  obtain ⟨nonce, _, h⟩ := bind_eq_ok.1 h
  have enciphered := Failure.ifAbsent_eq_ok.1 h
  rw [Gcm.encrypt] at enciphered
  split at enciphered
  · cases enciphered
  · next short => exact Nat.not_lt.1 short

theorem sealMetadata_eq_ok {metadataKey secretKey plaintext sealed : Bytes}
    (h : sealMetadata metadataKey secretKey plaintext = .ok sealed) :
    sealed ≠ [] ∧ openMetadata metadataKey secretKey sealed = .ok plaintext := by
  obtain ⟨key, own, h⟩ := bind_eq_ok.1 h
  obtain ⟨nonce, common, h⟩ := bind_eq_ok.1 h
  have enciphered := Failure.ifAbsent_eq_ok.1 h
  constructor
  · intro empty
    have tagged := Gcm.length_of_encrypt enciphered
    rw [empty] at tagged
    exact absurd tagged (by decide)
  · refine bind_eq_ok.2 ⟨key, own, bind_eq_ok.2 ⟨nonce, common, ?_⟩⟩
    exact Failure.ifAbsent_eq_ok.2 (Gcm.decrypt_of_encrypt enciphered)

end Material
end ProximityCert
