import ProximityCert.Proofs.Wire.Certificates
import ProximityCert.Wire.Service

/-!
All messages read back as they were written, those to and from the service included. Their repeated
fields stand one behind the other, numbers in one body and messages in a body each, and are collected in
the same order.
-/

namespace ProximityCert

theorem Bytes.eq_empty_of_ofText {s : String} (h : ofText s = []) : s = "" := by
  have read := toText?_ofText s
  rw [h] at read
  exact (Option.some.inj read).symm

/-- Numbers in one body read back one after the other; the count has to allow for their number only. -/
theorem Payload.readPacked_flatMap {vs : List Int32} {fuel : Nat} (enough : vs.length ≤ fuel) :
    readPacked fuel (vs.flatMap fun v => Varint.bytes v.toInt64.toUInt64.toNat) = some vs := by
  induction vs generalizing fuel with
  | nil => cases fuel <;> rfl
  | cons v vs ih =>
      obtain ⟨fuel, rfl⟩ : ∃ n, fuel = n + 1 :=
        Nat.exists_eq_succ_of_ne_zero (by simp at enough; omega)
      have head := Varint.read_bytes v.toInt64.toUInt64.toNat_lt
        (vs.flatMap fun v => Varint.bytes v.toInt64.toUInt64.toNat)
      have tail := ih (Nat.le_of_succ_le_succ enough)
      rw [List.flatMap_cons]
      obtain ⟨b, bs, first⟩ := List.exists_cons_of_ne_nil
        (List.append_ne_nil_of_left_ne_nil (Varint.bytes_ne_nil v.toInt64.toUInt64.toNat)
          (vs.flatMap fun v => Varint.bytes v.toInt64.toUInt64.toNat))
      rw [first] at head ⊢
      rw [readPacked, head]
      simp only [tail, Option.map_some, UInt64.ofNat_toNat, low32_widened]

theorem Payload.length_le_packed (vs : List Int32) :
    vs.length ≤ (vs.flatMap fun v => Varint.bytes v.toInt64.toUInt64.toNat).length := by
  induction vs with
  | nil => exact Nat.le_refl 0
  | cons v vs ih =>
      have := List.length_pos_iff.2 (Varint.bytes_ne_nil v.toInt64.toUInt64.toNat)
      simp only [List.flatMap_cons, List.length_append, List.length_cons]
      omega

namespace Field

section Plain
variable {number : Nat} (positive : 0 < number) (small : number < 0x10000000)
include positive small

theorem plain_text (v : String) : ∀ f ∈ text number v, f.Plain := plain_octets positive small _

theorem plain_packed (vs : List Int32) : ∀ f ∈ packed number vs, f.Plain :=
  plain_octets positive small _

theorem plain_messages {α : Type} [Message α] (ms : List α) :
    ∀ f ∈ messages number ms, f.Plain := by
  intro f member
  obtain ⟨m, _, rfl⟩ := List.mem_map.1 member
  exact ⟨positive, small, trivial⟩

end Plain

theorem mem_messages {α : Type} [Message α] (number : Nat) {m : α} {ms : List α} (member : m ∈ ms) :
    message number m ∈ messages number ms := List.mem_map_of_mem member

variable {α : Type} [Message α] (depth number : Nat)

theorem foldlM_text (put : String → α)
    (merge : ∀ s, Message.merge depth (put "") ⟨number, .delimited (Bytes.ofText s)⟩ =
      some (put s)) (v : String) :
    (text number v).foldlM (Message.merge depth) (put "") = some (put v) := by
  unfold text octets
  split
  · next empty =>
      rw [Bytes.eq_empty_of_ofText empty]
      rfl
  · simp [merge]

theorem foldlM_packed (put : List Int32 → α)
    (merge : ∀ body vs, Payload.readPacked body.length body = some vs →
      Message.merge depth (put []) ⟨number, .delimited body⟩ = some (put vs)) (vs : List Int32) :
    (packed number vs).foldlM (Message.merge depth) (put []) = some (put vs) := by
  have read := Payload.readPacked_flatMap (Payload.length_le_packed vs)
  unfold packed octets
  split
  -- nothing is written for no numbers, so nothing is merged either
  · next empty =>
      rw [empty] at read
      rw [← Option.some.inj read]
      rfl
  · simp [merge _ vs read]

/-- Messages of a repeated field are put behind those that were merged before. -/
theorem foldlM_messages {β : Type} [Message β] (put : List β → α) (ms : List β)
    (merge : ∀ done, ∀ m ∈ ms, Message.merge depth (put done) (message number m) =
      some (put (done ++ [m]))) (done : List β) :
    (messages number ms).foldlM (Message.merge depth) (put done) = some (put (done ++ ms)) := by
  induction ms generalizing done with
  | nil => exact congrArg (fun all => some (put all)) (List.append_nil done).symm
  | cons m ms ih =>
      have rest := ih (fun done m member => merge done m (List.mem_cons_of_mem _ member))
        (done ++ [m])
      rw [messages, List.map_cons, List.foldlM_cons, merge done m List.mem_cons_self]
      rw [List.append_assoc] at rest
      exact rest

end Field

instance : LawfulMessage PublishRequest where
  levels := 2
  plain_fields m := List.forall_mem_append.2 ⟨List.forall_mem_append.2
    ⟨Field.plain_text (by decide) (by decide) _, Field.plain_messages (by decide) (by decide) _⟩,
    Field.plain_bool (by decide) (by decide) _⟩
  merge_fields depth m deep short := by
    obtain ⟨name, certificates, force⟩ := m
    have first := Field.foldlM_text depth 1 (fun v => PublishRequest.mk v [] false)
      (fun s => by simp [Message.merge, Payload.text?, Bytes.toText?_ofText]) name
    have second := Field.foldlM_messages depth 2 (fun v => PublishRequest.mk name v false)
      certificates (fun done c member => by
        have inside := Message.length_encode_le (PublishRequest.mk name certificates force) 2 c
          (List.mem_append_left _ (List.mem_append_right _ (Field.mem_messages 2 member)))
        have read := Message.message?_encode depth deep (Nat.lt_of_le_of_lt inside short)
        simp [Message.merge, Field.message, read]) []
    have third := Field.foldlM_bool depth 3 (fun v => PublishRequest.mk name certificates v) rfl force
    change (Field.text 1 name ++ Field.messages 2 certificates ++ Field.bool 3 force).foldlM
      (Message.merge depth) (PublishRequest.mk "" [] false) = _
    rw [List.nil_append] at second
    simp only [List.foldlM_append, first, second, third, Option.bind_eq_bind, Option.bind_some]

instance : LawfulMessage PublishResponse where
  levels := 0
  plain_fields m := Field.plain_packed (by decide) (by decide) _
  merge_fields depth m _ _ :=
    Field.foldlM_packed depth 1 PublishResponse.mk
      (fun body vs read => by simp [Message.merge, Payload.packed?, read]) m.contactUpdates

instance : LawfulMessage SharedCredential where
  levels := 0
  plain_fields m := List.forall_mem_append.2 ⟨List.forall_mem_append.2
    ⟨Field.plain_int64 (by decide) (by decide) _, Field.plain_octets (by decide) (by decide) _⟩,
    Field.plain_int32 (by decide) (by decide) _⟩
  merge_fields depth m _ _ := by
    obtain ⟨id, data, type⟩ := m
    have first := Field.foldlM_int64 depth 1 (fun v => SharedCredential.mk v [] 0)
      (fun n => by simp [Message.merge, Payload.int64?]) id
    have second := Field.foldlM_octets depth 2 (fun v => SharedCredential.mk id v 0)
      (fun _ => rfl) data
    have third := Field.foldlM_int32 depth 3 (fun v => SharedCredential.mk id data v)
      (fun n => by simp [Message.merge, Field.varint32, Payload.int32?, Payload.low32_widened]) type
    change (Field.int64 1 id ++ Field.octets 2 data ++ Field.int32 3 type).foldlM
      (Message.merge depth) (SharedCredential.mk 0 [] 0) = _
    simp only [List.foldlM_append, first, second, third, Option.bind_eq_bind, Option.bind_some]

instance : LawfulMessage CredentialsRequest where
  levels := 0
  plain_fields m := List.forall_mem_append.2
    ⟨Field.plain_text (by decide) (by decide) _,
      Field.plain_optionalText (by decide) (by decide) _⟩
  merge_fields depth m _ _ := by
    obtain ⟨name, token⟩ := m
    have first := Field.foldlM_text depth 1 (fun v => CredentialsRequest.mk v none)
      (fun s => by simp [Message.merge, Payload.text?, Bytes.toText?_ofText]) name
    have second := Field.foldlM_optionalText depth 2 (fun v => CredentialsRequest.mk name v)
      (fun s => by simp [Message.merge, Payload.text?, Bytes.toText?_ofText]) token
    change (Field.text 1 name ++ Field.optionalText 2 token).foldlM (Message.merge depth)
      (CredentialsRequest.mk "" none) = _
    simp only [List.foldlM_append, first, second, Option.bind_eq_bind, Option.bind_some]

instance : LawfulMessage CredentialsResponse where
  levels := 1
  plain_fields m := List.forall_mem_append.2
    ⟨Field.plain_messages (by decide) (by decide) _, Field.plain_text (by decide) (by decide) _⟩
  merge_fields depth m deep short := by
    obtain ⟨credentials, token⟩ := m
    have first := Field.foldlM_messages depth 1 (fun v => CredentialsResponse.mk v "")
      credentials (fun done c member => by
        have inside := Message.length_encode_le (CredentialsResponse.mk credentials token) 1 c
          (List.mem_append_left _ (Field.mem_messages 1 member))
        have read := Message.message?_encode depth deep (Nat.lt_of_le_of_lt inside short)
        simp [Message.merge, Field.message, read]) []
    have second := Field.foldlM_text depth 2 (fun v => CredentialsResponse.mk credentials v)
      (fun s => by simp [Message.merge, Payload.text?, Bytes.toText?_ofText]) token
    change (Field.messages 1 credentials ++ Field.text 2 token).foldlM (Message.merge depth)
      (CredentialsResponse.mk [] "") = _
    rw [List.nil_append] at first
    simp only [List.foldlM_append, first, second, Option.bind_eq_bind, Option.bind_some]

/-- The kinds of messages that devices exchange with each other and with the service. -/
inductive MessageKind
  | timestamp | metadata | publicCertificate
  | frame | v1Frame | pairedKeyEncryption | pairedKeyResult
  | publishRequest | publishResponse | sharedCredential | credentialsRequest | credentialsResponse

namespace MessageKind

def Carrier : MessageKind → Type
  | timestamp => Timestamp
  | metadata => Metadata
  | publicCertificate => PublicCertificate
  | frame => Frame
  | v1Frame => V1Frame
  | pairedKeyEncryption => PairedKeyEncryption
  | pairedKeyResult => PairedKeyResult
  | publishRequest => PublishRequest
  | publishResponse => PublishResponse
  | sharedCredential => SharedCredential
  | credentialsRequest => CredentialsRequest
  | credentialsResponse => CredentialsResponse

instance : (kind : MessageKind) → Message kind.Carrier
  | timestamp => inferInstanceAs (Message Timestamp)
  | metadata => inferInstanceAs (Message Metadata)
  | publicCertificate => inferInstanceAs (Message PublicCertificate)
  | frame => inferInstanceAs (Message Frame)
  | v1Frame => inferInstanceAs (Message V1Frame)
  | pairedKeyEncryption => inferInstanceAs (Message PairedKeyEncryption)
  | pairedKeyResult => inferInstanceAs (Message PairedKeyResult)
  | publishRequest => inferInstanceAs (Message PublishRequest)
  | publishResponse => inferInstanceAs (Message PublishResponse)
  | sharedCredential => inferInstanceAs (Message SharedCredential)
  | credentialsRequest => inferInstanceAs (Message CredentialsRequest)
  | credentialsResponse => inferInstanceAs (Message CredentialsResponse)

instance : (kind : MessageKind) → LawfulMessage kind.Carrier
  | timestamp => inferInstanceAs (LawfulMessage Timestamp)
  | metadata => inferInstanceAs (LawfulMessage Metadata)
  | publicCertificate => inferInstanceAs (LawfulMessage PublicCertificate)
  | frame => inferInstanceAs (LawfulMessage Frame)
  | v1Frame => inferInstanceAs (LawfulMessage V1Frame)
  | pairedKeyEncryption => inferInstanceAs (LawfulMessage PairedKeyEncryption)
  | pairedKeyResult => inferInstanceAs (LawfulMessage PairedKeyResult)
  | publishRequest => inferInstanceAs (LawfulMessage PublishRequest)
  | publishResponse => inferInstanceAs (LawfulMessage PublishResponse)
  | sharedCredential => inferInstanceAs (LawfulMessage SharedCredential)
  | credentialsRequest => inferInstanceAs (LawfulMessage CredentialsRequest)
  | credentialsResponse => inferInstanceAs (LawfulMessage CredentialsResponse)

/-- No kind of message nests deeper than a reader follows. -/
theorem levels_lt (kind : MessageKind) : LawfulMessage.levels kind.Carrier < Field.maxDepth := by
  cases kind <;> decide

end MessageKind

namespace Message

variable {α : Type} [Message α]

/-- Framed messages are read one after the other, up to some rest. -/
inductive ReadsOff : Bytes → List α → Bytes → Prop
  | none (rest : Bytes) : ReadsOff rest [] rest
  | next {bs behind rest : Bytes} {m : α} {ms : List α} :
      decodeFramed bs = some (m, behind) → ReadsOff behind ms rest → ReadsOff bs (m :: ms) rest

theorem readsOff_encodeList [LawfulMessage α] (shallow : LawfulMessage.levels α < Field.maxDepth)
    {ms : List α} (short : ∀ m ∈ ms, (encode m).length < UInt64.size) (rest : Bytes) :
    ReadsOff (encodeList ms ++ rest) ms rest := by
  induction ms with
  | nil => exact .none rest
  | cons m ms ih =>
      rw [List.forall_mem_cons] at short
      rw [encodeList, List.flatMap_cons, ← encodeList, List.append_assoc]
      exact .next (decodeFramed_encodeFramed shallow short.1 _) (ih short.2)

end Message

namespace MessageKind

/-- Messages of every kind read back as they were written. Framed ones do so one after the other and leave
behind only what does not belong to them, so the whole of a list is read, and nothing else. -/
theorem reads_back (kind : MessageKind) :
    (∀ m : kind.Carrier, (Message.encode m).length < UInt64.size →
      Message.decode (Message.encode m) = some m) ∧
    ∀ ms : List kind.Carrier, (∀ m ∈ ms, (Message.encode m).length < UInt64.size) →
      (∀ rest, Message.ReadsOff (Message.encodeList ms ++ rest) ms rest) ∧
      Message.decodeList (Message.encodeList ms) = some ms := by
  refine ⟨fun m short => Message.decode_encode (Nat.le_of_lt kind.levels_lt) short, ?_⟩
  intro ms short
  exact ⟨Message.readsOff_encodeList kind.levels_lt short,
    Message.decodeList_encodeList kind.levels_lt short⟩

/-- A request with a default message inside, negative and unknown numbers, and an empty text that is
present. -/
theorem reads_back_sparse :
    Message.decode (Message.encode (PublishRequest.mk "" [{ endTime := some ⟨-1, -1⟩ }, {}] true)) =
      some (PublishRequest.mk "" [{ endTime := some ⟨-1, -1⟩ }, {}] true) ∧
    Message.decodeList (Message.encodeList [PublishResponse.mk [2, -7, 99], {}]) =
      some [PublishResponse.mk [2, -7, 99], {}] ∧
    Message.decode (Message.encode (CredentialsRequest.mk "" (some ""))) =
      some (CredentialsRequest.mk "" (some "")) := by
  refine ⟨(reads_back .publishRequest).1 _ ?_, ((reads_back .publishResponse).2 _ ?_).2,
    (reads_back .credentialsRequest).1 _ ?_⟩
  · decide +kernel
  · have small : ∀ m ∈ [PublishResponse.mk [2, -7, 99], {}],
        (Message.encode m).length < UInt64.size := by decide +kernel
    exact small
  · decide +kernel

end MessageKind
end ProximityCert
