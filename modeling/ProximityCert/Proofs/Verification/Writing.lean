import ProximityCert.Proofs.Verification.Progress
import ProximityCert.Proofs.Wire.Messages

/-!
The frames that a run writes read back. Their messages are as long as the proofs in them and a little
longer, so any machine can hold them unless a certificate signs with something enormous.
-/

namespace ProximityCert

theorem V1Frame.ofMessage?_message {f : V1Frame} (short : f.message.length < UInt64.size) :
    V1Frame.ofMessage? f.message = some f := by
  have decoded : Message.decode f.message = some (Frame.ofV1 f) :=
    Message.decode_encode (by decide) short
  simp [ofMessage?, decoded, Frame.ofV1]

/-- A machine can hold the message with a session's proofs, whatever its certificates sign. -/
def Session.Writable (s : Session) : Prop :=
  ∀ now, (Stage.encryptionFrame (s.encryption now)).message.length < UInt64.size

theorem Field.length_envelope_le (first second : Nat) (n : UInt64) (body : Bytes) :
    ((Field.mk first (.varint n)).bytes ++
      ((Field.mk second (.delimited body)).bytes ++ [])).length ≤ 40 + body.length := by
  have head := length_bytes_varint_le first n
  have tail := length_bytes_delimited_le second body
  simp only [List.length_append, List.length_nil]
  omega

/-- The message with proofs is little longer than the proofs. -/
theorem Stage.length_encryptionFrame_le (e : PairedKeyEncryption) :
    (encryptionFrame e).message.length ≤
      140 + ((e.signedData.getD []).length + (e.secretIdHash.getD []).length +
        (e.optionalSignedData.getD []).length) := by
  have octets (number : Nat) (v : Option Bytes) :
      ((Field.optionalOctets number v).flatMap Field.bytes).length ≤ 20 + (v.getD []).length := by
    cases v with
    | none => simp [Field.optionalOctets]
    | some b => simpa [Field.optionalOctets] using Field.length_bytes_delimited_le number b
  have proofs : (Message.encode e).length ≤
      60 + ((e.signedData.getD []).length + (e.secretIdHash.getD []).length +
        (e.optionalSignedData.getD []).length) := by
    have first := octets 1 e.signedData
    have second := octets 2 e.secretIdHash
    have third := octets 3 e.optionalSignedData
    simp only [Message.encode, Message.fields, List.flatMap_append, List.length_append]
    omega
  have inner := Field.length_envelope_le 1 4 FrameType.pairedKeyEncryption.code.toInt64.toUInt64
    (Message.encode e)
  have outer := Field.length_envelope_le 1 2 FrameVersion.v1.code.toInt64.toUInt64
    (Message.encode (encryptionFrame e))
  change (Message.encode (encryptionFrame e)).length ≤ _ at inner
  change (encryptionFrame e).message.length ≤ _ at outer
  omega

theorem Session.length_orFiller_le {n m : Nat} {proof : Option Bytes}
    (short : ∀ b, proof = some b → b.length ≤ m)
    (e : Entropy) : (orFiller n proof e).1.length ≤ max n m := by
  unfold orFiller
  split
  · exact Nat.le_trans (short _ rfl) (Nat.le_max_right n m)
  · exact Nat.le_trans (Nat.le_of_eq (Entropy.length_bytes n e)) (Nat.le_max_left n m)

/-- Certificates whose signatures are of any reasonable length leave a session writable. -/
theorem Session.writable_of_short {s : Session} {m : Nat} (small : m < UInt64.size / 4)
    (short : ∀ v payload b, s.credentials.sign v payload = some b → b.length ≤ m) : s.Writable := by
  intro now
  have signed : ((s.encryption now).signedData.getD []).length ≤ max fillerSignatureLength m :=
    length_orFiller_le (fun b => short _ _ b) _
  have hashed : ((s.encryption now).secretIdHash.getD []).length ≤
    max Material.tokenHashLength Material.tokenHashLength := by
    refine length_orFiller_le (fun b answer => ?_) _
    obtain ⟨c, _, rfl⟩ := Option.map_eq_some_iff.1 answer
    exact Nat.le_of_eq (Material.length_tokenHash c.secretKey s.token)
  have optional : ((s.encryption now).optionalSignedData.getD []).length ≤ m := by
    simp only [encryption]
    split
    · cases answer : s.credentials.sign (signingVisibility s.visibility.previous)
        (s.payload s.role) with
      | none => exact Nat.zero_le m
      | some b => exact short _ _ b answer
    · exact Nat.zero_le m
  have bound := Stage.length_encryptionFrame_le (s.encryption now)
  have sizes : fillerSignatureLength = 72 ∧ Material.tokenHashLength = 6 ∧
    UInt64.size = 0x10000000000000000 := ⟨rfl, rfl, rfl⟩
  omega

theorem Stage.length_resultFrame (s : Session) (v : Verdict) :
    (resultFrame s v).message.length < UInt64.size := by
  unfold resultFrame
  cases s.osType <;> cases v <;> decide

theorem Progress.readable {s : Session} {opens checks : Instant → Prop} {stage : Stage}
    {sent heard : List V1Frame}
    (h : Progress s opens checks stage sent heard) (writable : s.Writable) {f : V1Frame}
    (member : f ∈ sent) :
    V1Frame.ofMessage? f.message = some f := by
  rcases h.sent_shape with none | ⟨t, _, one | ⟨v, two⟩⟩
  · exact (List.not_mem_nil (none ▸ member)).elim
  · obtain rfl := List.mem_singleton.1 (one ▸ member)
    exact V1Frame.ofMessage?_message (writable t)
  · rcases List.mem_cons.1 (two ▸ member) with rfl | second
    · exact V1Frame.ofMessage?_message (writable t)
    · obtain rfl := List.mem_singleton.1 second
      exact V1Frame.ofMessage?_message (Stage.length_resultFrame s v)

end ProximityCert
