import ProximityCert.Proofs.Wire.Messages
import ProximityCert.Wire.PublicCertificate

/-!
Downloaded certificates read back as they were written, alone and one behind the other in a file. Their
plain fields are left out when they hold the default, which is what an empty message has there.
-/

namespace ProximityCert

namespace Field

/-- A field that is left out in some case is plain if it is plain when it is written. -/
theorem plain_unless {p : Prop} [Decidable p] {g : Field} (plain : g.Plain) :
    ∀ f ∈ (if p then [] else [g]), f.Plain := by
  intro f member
  split at member
  · cases member
  · exact List.mem_singleton.1 member ▸ plain

section Plain
variable {number : Nat} (positive : 0 < number) (small : number < 0x10000000)
include positive small

theorem plain_octets (v : Bytes) : ∀ f ∈ octets number v, f.Plain :=
  plain_unless ⟨positive, small, trivial⟩

theorem plain_int64 (v : Int64) : ∀ f ∈ int64 number v, f.Plain :=
  plain_unless ⟨positive, small, trivial⟩

theorem plain_int32 (v : Int32) : ∀ f ∈ int32 number v, f.Plain :=
  plain_unless ⟨positive, small, trivial⟩

theorem plain_bool (v : Bool) : ∀ f ∈ bool number v, f.Plain := by
  cases v with
  | false => exact fun _ member => (List.not_mem_nil member).elim
  | true => exact List.forall_mem_singleton.2 ⟨positive, small, trivial⟩

end Plain

section Merge
variable {α : Type} [Message α]

/-- A plain field is merged into a message that has its default; `put` sets the field. -/
theorem foldlM_unless {β : Type} [DecidableEq β] {depth : Nat} {write : β → Field} {default : β}
    {put : β → α}
    (merge : ∀ v, Message.merge depth (put default) (write v) = some (put v)) (v : β) :
    (if v = default then [] else [write v]).foldlM (Message.merge depth) (put default) =
      some (put v) := by
  split
  · next same =>
      rw [same]
      rfl
  · simp [merge]

variable (depth number : Nat)

theorem foldlM_octets (put : Bytes → α)
    (merge : ∀ b, Message.merge depth (put []) ⟨number, .delimited b⟩ = some (put b)) (v : Bytes) :
    (octets number v).foldlM (Message.merge depth) (put []) = some (put v) :=
  foldlM_unless merge v

theorem foldlM_int64 (put : Int64 → α)
    (merge : ∀ n : Int64, Message.merge depth (put 0) ⟨number, .varint n.toUInt64⟩ = some (put n))
    (v : Int64) : (int64 number v).foldlM (Message.merge depth) (put 0) = some (put v) :=
  foldlM_unless merge v

theorem foldlM_int32 (put : Int32 → α)
    (merge : ∀ n : Int32, Message.merge depth (put 0) (varint32 number n) = some (put n))
    (v : Int32) : (int32 number v).foldlM (Message.merge depth) (put 0) = some (put v) :=
  foldlM_unless merge v

theorem foldlM_bool (put : Bool → α)
    (merge : Message.merge depth (put false) ⟨number, .varint 1⟩ = some (put true))
    (v : Bool) : (bool number v).foldlM (Message.merge depth) (put false) = some (put v) := by
  cases v with
  | false => rfl
  | true => simp [bool, merge]

end Merge

end Field

instance : LawfulMessage Timestamp where
  levels := 0
  plain_fields m := List.forall_mem_append.2
    ⟨Field.plain_int64 (by decide) (by decide) _, Field.plain_int32 (by decide) (by decide) _⟩
  merge_fields depth m _ _ := by
    obtain ⟨seconds, nanos⟩ := m
    have first := Field.foldlM_int64 depth 1 (fun v => Timestamp.mk v 0)
      (fun n => by simp [Message.merge, Payload.int64?]) seconds
    have second := Field.foldlM_int32 depth 2 (fun v => Timestamp.mk seconds v)
      (fun n => by simp [Message.merge, Field.varint32, Payload.int32?, Payload.low32_widened])
        nanos
    change (Field.int64 1 seconds ++ Field.int32 2 nanos).foldlM (Message.merge depth)
      (Timestamp.mk 0 0) = some ⟨seconds, nanos⟩
    rw [List.foldlM_append, first, Option.bind_eq_bind, Option.bind_some, second]

/-- The times of a certificate are messages inside it, all else is plain. -/
theorem PublicCertificate.foldlM_fields {depth : Nat} (deep : 0 < depth) (m : PublicCertificate)
    (short : (Message.encode m).length < UInt64.size) :
    (Message.fields m).foldlM (Message.merge depth) Message.empty = some m := by
  obtain ⟨id, secret, key, start, stop, selected, metadataKey, metadata, tag, own⟩ := m
  have time (number : Nat) (t : Timestamp) (member : Field.message number t ∈ Message.fields
      (PublicCertificate.mk id secret key start stop selected metadataKey metadata tag own)) :
      (Payload.delimited (Message.encode t)).message? depth none = some t :=
    Message.message?_encode depth deep
      (Nat.lt_of_le_of_lt (Message.length_encode_le _ number t member) short)
  have first := Field.foldlM_octets depth 1
    (fun v => PublicCertificate.mk v [] [] none none false [] [] [] false) (fun _ => rfl) id
  have second := Field.foldlM_octets depth 2
    (fun v => PublicCertificate.mk id v [] none none false [] [] [] false) (fun _ => rfl) secret
  have third := Field.foldlM_octets depth 3
    (fun v => PublicCertificate.mk id secret v none none false [] [] [] false) (fun _ => rfl) key
  have fourth := Field.foldlM_optionalMessage depth 4
    (fun v => PublicCertificate.mk id secret key v none false [] [] [] false) start (by
      rintro t rfl
      simp [Message.merge, Field.message, time 4 t (by simp [Message.fields, Field.optionalMessage])])
  have fifth := Field.foldlM_optionalMessage depth 5
    (fun v => PublicCertificate.mk id secret key start v false [] [] [] false) stop (by
      rintro t rfl
      simp [Message.merge, Field.message, time 5 t (by simp [Message.fields, Field.optionalMessage])])
  have sixth := Field.foldlM_bool depth 6
    (fun v => PublicCertificate.mk id secret key start stop v [] [] [] false) rfl selected
  have seventh := Field.foldlM_octets depth 7
    (fun v => PublicCertificate.mk id secret key start stop selected v [] [] false) (fun _ => rfl)
    metadataKey
  have eighth := Field.foldlM_octets depth 8
    (fun v => PublicCertificate.mk id secret key start stop selected metadataKey v [] false)
    (fun _ => rfl) metadata
  have ninth := Field.foldlM_octets depth 9
    (fun v => PublicCertificate.mk id secret key start stop selected metadataKey metadata v false)
    (fun _ => rfl) tag
  have tenth := Field.foldlM_bool depth 10
    (fun v => PublicCertificate.mk id secret key start stop selected metadataKey metadata tag v)
    rfl own
  change (Field.octets 1 id ++ Field.octets 2 secret ++ Field.octets 3 key ++
    Field.optionalMessage 4 start ++ Field.optionalMessage 5 stop ++ Field.bool 6 selected ++
    Field.octets 7 metadataKey ++ Field.octets 8 metadata ++ Field.octets 9 tag ++
    Field.bool 10 own).foldlM (Message.merge depth)
      (PublicCertificate.mk [] [] [] none none false [] [] [] false) = _
  simp only [List.foldlM_append, first, second, third, fourth, fifth, sixth, seventh, eighth, ninth,
    tenth, Option.bind_eq_bind, Option.bind_some]

instance : LawfulMessage PublicCertificate where
  levels := 1
  plain_fields m := by
    simp only [Message.fields, List.forall_mem_append]
    exact ⟨⟨⟨⟨⟨⟨⟨⟨⟨Field.plain_octets (by decide) (by decide) _,
      Field.plain_octets (by decide) (by decide) _⟩,
      Field.plain_octets (by decide) (by decide) _⟩,
      Field.plain_optionalMessage (by decide) (by decide) _⟩,
      Field.plain_optionalMessage (by decide) (by decide) _⟩,
      Field.plain_bool (by decide) (by decide) _⟩,
      Field.plain_octets (by decide) (by decide) _⟩,
      Field.plain_octets (by decide) (by decide) _⟩,
      Field.plain_octets (by decide) (by decide) _⟩,
      Field.plain_bool (by decide) (by decide) _⟩
  merge_fields _ m deep short := PublicCertificate.foldlM_fields deep m short

namespace Message

variable {α : Type} [Message α] [LawfulMessage α]

theorem decodeFramed_encodeFramed (shallow : LawfulMessage.levels α < Field.maxDepth) {m : α}
    (short : (encode m).length < UInt64.size) (rest : Bytes) :
    decodeFramed (encodeFramed m ++ rest) = some (m, rest) := by
  rw [decodeFramed, encodeFramed, Field.readFramed_framed short]
  show (mergeBody (Field.maxDepth - 1) empty (encode m)).map (·, rest) = some (m, rest)
  rw [mergeBody_encode (Nat.le_sub_one_of_lt shallow) short]
  rfl

omit [LawfulMessage α] in
theorem encodeFramed_ne_nil (m : α) : encodeFramed m ≠ [] := by
  simp [encodeFramed, Field.framed, Varint.bytes_ne_nil]

/-- Framed messages read back one after the other; the count has to allow for their number only. -/
theorem decodeListUpTo_encodeList (shallow : LawfulMessage.levels α < Field.maxDepth) {ms : List α}
    (short : ∀ m ∈ ms, (encode m).length < UInt64.size) {fuel : Nat} (enough : ms.length ≤ fuel) :
    decodeListUpTo fuel (encodeList ms) = some ms := by
  induction ms generalizing fuel with
  | nil => cases fuel <;> rfl
  | cons m ms ih =>
      rw [List.forall_mem_cons] at short
      obtain ⟨fuel, rfl⟩ : ∃ n, fuel = n + 1 :=
        Nat.exists_eq_succ_of_ne_zero (by simp at enough; omega)
      have head := decodeFramed_encodeFramed shallow short.1 (encodeList ms)
      have tail := ih short.2 (Nat.le_of_succ_le_succ enough)
      obtain ⟨b, bs, first⟩ : ∃ b bs, encodeFramed m ++ encodeList ms = b :: bs :=
        List.exists_cons_of_ne_nil (by simp [encodeFramed_ne_nil])
      rw [first] at head
      rw [encodeList, List.flatMap_cons, ← encodeList, first, decodeListUpTo, head]
      simp only [tail, Option.map_some]

omit [LawfulMessage α] in
theorem length_le_encodeList (ms : List α) : ms.length ≤ (encodeList ms).length := by
  induction ms with
  | nil => exact Nat.le_refl 0
  | cons m ms ih =>
      have := List.length_pos_iff.2 (encodeFramed_ne_nil m)
      simp only [encodeList, List.flatMap_cons, List.length_append, List.length_cons] at ih ⊢
      omega

theorem decodeList_encodeList (shallow : LawfulMessage.levels α < Field.maxDepth) {ms : List α}
    (short : ∀ m ∈ ms, (encode m).length < UInt64.size) : decodeList (encodeList ms) = some ms :=
  decodeListUpTo_encodeList shallow short (length_le_encodeList ms)

end Message
end ProximityCert
