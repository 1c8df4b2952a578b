import ProximityCert.Proofs.Wire.Fields
import ProximityCert.Wire.Frame
import ProximityCert.Wire.Metadata

/-!
Messages that read back as they were written. A kind of message is lawful if merging the fields it
writes into an empty message gives the message again; reading its written form is then exact as long
as that form is shorter than 2^64 octets, which is more than a machine holds.
-/

namespace ProximityCert

/-- A payload of one of the two forms that messages write. -/
def Payload.Plain : Payload → Prop
  | .varint _ | .delimited _ => True
  | _ => False

namespace Field

structure Plain (f : Field) : Prop where
  positive : 0 < f.number
  small : f.number < 0x10000000
  payload : f.payload.Plain

/-- Inside a body that is short enough, every plain field is written. -/
theorem Plain.written {f : Field} {fs : List Field} (plain : f.Plain) (member : f ∈ fs)
    (short : (fs.flatMap bytes).length < UInt64.size) : f.Written := by
  refine ⟨plain.positive, plain.small, ?_⟩
  have inside := length_bytes_le_flatMap member
  obtain ⟨number, payload⟩ := f
  cases payload with
  | varint value => trivial
  | delimited body =>
      exact Nat.lt_of_le_of_lt (Nat.le_trans (length_body_le number body) inside) short
  | fixed64 octets => exact plain.payload.elim
  | group => exact plain.payload.elim
  | fixed32 octets => exact plain.payload.elim

section Plain
variable {number : Nat} (positive : 0 < number) (small : number < 0x10000000)
include positive small

theorem plain_optionalOctets (v : Option Bytes) : ∀ f ∈ optionalOctets number v, f.Plain := by
  cases v with
  | none => exact fun _ member => (List.not_mem_nil member).elim
  | some b =>
      intro f member
      obtain rfl := List.mem_singleton.1 member
      exact ⟨positive, small, trivial⟩

theorem plain_optionalText (v : Option String) : ∀ f ∈ optionalText number v, f.Plain :=
  plain_optionalOctets positive small _

theorem plain_optionalInt32 (v : Option Int32) : ∀ f ∈ optionalInt32 number v, f.Plain := by
  cases v with
  | none => exact fun _ member => (List.not_mem_nil member).elim
  | some n =>
      intro f member
      obtain rfl := List.mem_singleton.1 member
      exact ⟨positive, small, trivial⟩

theorem plain_optionalMessage {α : Type} [Message α] (m : Option α) :
    ∀ f ∈ optionalMessage number m, f.Plain := by
  cases m with
  | none => exact fun _ member => (List.not_mem_nil member).elim
  | some m =>
      intro f member
      obtain rfl := List.mem_singleton.1 member
      exact ⟨positive, small, trivial⟩

end Plain

end Field

/-- A kind of message whose fields, merged into an empty message, give the message again. -/
class LawfulMessage (α : Type) [Message α] where
  /-- The levels of further messages inside. -/
  levels : Nat
  plain_fields : ∀ m : α, ∀ f ∈ Message.fields m, f.Plain
  merge_fields : ∀ (depth : Nat) (m : α), levels ≤ depth → (Message.encode m).length < UInt64.size →
    (Message.fields m).foldlM (Message.merge depth) Message.empty = some m

namespace Message

variable {α : Type} [Message α] [LawfulMessage α]

/-- A written body merges into an empty message as the message it was written for. -/
theorem mergeBody_encode {depth : Nat} (deep : LawfulMessage.levels α ≤ depth) {m : α}
    (short : (encode m).length < UInt64.size) : mergeBody depth empty (encode m) = some m := by
  have written : ∀ f ∈ fields m, f.Written :=
    fun f member => (LawfulMessage.plain_fields m f member).written member short
  rw [mergeBody, show encode m = (fields m).flatMap Field.bytes from rfl,
    Field.readAll_flatMap depth written]
  exact LawfulMessage.merge_fields depth m deep short

theorem decode_encode (deep : LawfulMessage.levels α ≤ Field.maxDepth) {m : α}
    (short : (encode m).length < UInt64.size) :
    decode (encode m) = some m := mergeBody_encode deep short

/-- A message inside another reads back at the place of its field. -/
theorem message?_encode (depth : Nat) (deep : LawfulMessage.levels α < depth) {m : α}
    (short : (encode m).length < UInt64.size) :
    (Payload.delimited (encode m)).message? depth none = some m := by
  have level : depth ≠ 0 := by omega
  simp only [Payload.message?, if_neg level, Option.getD_none]
  exact mergeBody_encode (by omega) short

omit [LawfulMessage α] in
/-- A message is no longer than one that it stands in. -/
theorem length_encode_le {β : Type} [Message β] (outer : β) (number : Nat) (m : α)
    (member : Field.message number m ∈ fields outer) : (encode m).length ≤ (encode outer).length :=
  Nat.le_trans (Field.length_body_le number (encode m)) (Field.length_bytes_le_flatMap member)

end Message

/-- The low half of a number that was widened is the number itself. -/
theorem Payload.low32_widened (v : Int32) : Payload.low32 v.toInt64.toUInt64 = v := by
  apply Int32.toBitVec_inj.1
  simp only [Payload.low32, UInt32.toBitVec_toInt32, UInt64.toBitVec_toUInt32,
    Int64.toBitVec_toUInt64, Int32.toBitVec_toInt64]
  apply BitVec.eq_of_getLsbD_eq
  intro i small
  have inside : i < 64 := by omega
  simp [BitVec.getElem_signExtend, small, inside]

namespace Field

variable {α : Type} [Message α] (depth number : Nat)

/-- An optional field is merged into a message that lacks it; `put` sets the field. -/
theorem foldlM_optionalOctets (put : Option Bytes → α)
    (merge : ∀ b, Message.merge depth (put none) ⟨number, .delimited b⟩ = some (put (some b)))
      (v : Option Bytes) :
    (optionalOctets number v).foldlM (Message.merge depth) (put none) = some (put v) := by
  cases v with
  | none => rfl
  | some b => simp [optionalOctets, merge]

theorem foldlM_optionalText (put : Option String → α)
    (merge : ∀ s, Message.merge depth (put none) ⟨number, .delimited (Bytes.ofText s)⟩ =
      some (put (some s)))
    (v : Option String) : (optionalText number v).foldlM (Message.merge depth) (put none) =
      some (put v) := by
  cases v with
  | none => rfl
  | some s => simp [optionalText, optionalOctets, merge]

theorem foldlM_optionalInt32 (put : Option Int32 → α)
    (merge : ∀ n : Int32, Message.merge depth (put none) (varint32 number n) = some (put (some n)))
      (v : Option Int32) :
    (optionalInt32 number v).foldlM (Message.merge depth) (put none) = some (put v) := by
  cases v with
  | none => rfl
  | some n => simp [optionalInt32, merge]

theorem foldlM_optionalMessage {β : Type} [Message β] (put : Option β → α) (m : Option β)
    (merge : ∀ b ∈ m, Message.merge depth (put none) (message number b) = some (put (some b))) :
    (optionalMessage number m).foldlM (Message.merge depth) (put none) = some (put m) := by
  cases m with
  | none => rfl
  | some b => simp [optionalMessage, merge b rfl]

end Field

instance : LawfulMessage PairedKeyEncryption where
  levels := 0
  plain_fields m := List.forall_mem_append.2 ⟨List.forall_mem_append.2
    ⟨Field.plain_optionalOctets (by decide) (by decide) _,
      Field.plain_optionalOctets (by decide) (by decide) _⟩,
    Field.plain_optionalOctets (by decide) (by decide) _⟩
  merge_fields depth m _ _ := by
    obtain ⟨signed, hash, optional⟩ := m
    cases signed <;> cases hash <;> cases optional <;> rfl

instance : LawfulMessage PairedKeyResult where
  levels := 0
  plain_fields m := List.forall_mem_append.2
    ⟨Field.plain_optionalInt32 (by decide) (by decide) _,
      Field.plain_optionalInt32 (by decide) (by decide) _⟩
  merge_fields depth m _ _ := by
    obtain ⟨status, osType⟩ := m
    have first := Field.foldlM_optionalInt32 depth 1 (fun v => PairedKeyResult.mk v none)
      (fun n => by simp [Message.merge, Field.varint32, Payload.int32?, Payload.low32_widened])
        status
    have second := Field.foldlM_optionalInt32 depth 2 (fun v => PairedKeyResult.mk status v)
      (fun n => by simp [Message.merge, Field.varint32, Payload.int32?, Payload.low32_widened])
        osType
    change (Field.optionalInt32 1 status ++ Field.optionalInt32 2 osType).foldlM
      (Message.merge depth)
      (PairedKeyResult.mk none none) = some ⟨status, osType⟩
    rw [List.foldlM_append, first, Option.bind_eq_bind, Option.bind_some, second]

instance : LawfulMessage V1Frame where
  levels := 1
  plain_fields m := List.forall_mem_append.2 ⟨List.forall_mem_append.2
    ⟨Field.plain_optionalInt32 (by decide) (by decide) _,
      Field.plain_optionalMessage (by decide) (by decide) _⟩,
    Field.plain_optionalMessage (by decide) (by decide) _⟩
  merge_fields depth m deep short := by
    obtain ⟨type, encryption, result⟩ := m
    have first := Field.foldlM_optionalInt32 depth 1
      (fun v => V1Frame.mk v none none)
      (fun n => by simp [Message.merge, Field.varint32, Payload.int32?, Payload.low32_widened]) type
    have second := Field.foldlM_optionalMessage depth 4
      (fun e => V1Frame.mk type e none) encryption (by
        rintro e rfl
        have inside := Message.length_encode_le (V1Frame.mk type (some e) result) 4 e
          (by simp [Message.fields, Field.optionalMessage])
        have read := Message.message?_encode depth deep (Nat.lt_of_le_of_lt inside short)
        simp [Message.merge, Field.message, read])
    have third := Field.foldlM_optionalMessage depth 5
      (fun r => V1Frame.mk type encryption r) result (by
        rintro r rfl
        have inside := Message.length_encode_le (V1Frame.mk type encryption (some r)) 5 r
          (by simp [Message.fields, Field.optionalMessage])
        have read := Message.message?_encode depth deep (Nat.lt_of_le_of_lt inside short)
        simp [Message.merge, Field.message, read])
    change (Field.optionalInt32 1 type ++ Field.optionalMessage 4 encryption ++
      Field.optionalMessage 5 result).foldlM (Message.merge depth) (V1Frame.mk none none none) = _
    simp only [List.foldlM_append, first, Option.bind_eq_bind, Option.bind_some, second, third]

instance : LawfulMessage Frame where
  levels := 2
  plain_fields m := List.forall_mem_append.2
    ⟨Field.plain_optionalInt32 (by decide) (by decide) _,
      Field.plain_optionalMessage (by decide) (by decide) _⟩
  merge_fields depth m deep short := by
    obtain ⟨version, v1⟩ := m
    have first := Field.foldlM_optionalInt32 depth 1 (fun v => Frame.mk v none)
      (fun n => by simp [Message.merge, Field.varint32, Payload.int32?, Payload.low32_widened])
        version
    have second := Field.foldlM_optionalMessage depth 2
      (fun f => Frame.mk version f) v1 (by
        rintro f rfl
        have inside := Message.length_encode_le (Frame.mk version (some f)) 2 f
          (by simp [Message.fields, Field.optionalMessage])
        have read := Message.message?_encode depth deep (Nat.lt_of_le_of_lt inside short)
        simp [Message.merge, Field.message, read])
    change (Field.optionalInt32 1 version ++ Field.optionalMessage 2 v1).foldlM
      (Message.merge depth)
      (Frame.mk none none) = _
    simp only [List.foldlM_append, first, Option.bind_eq_bind, Option.bind_some, second]

/-- The fields of metadata stand beside each other, so merging them needs nothing of their sizes. -/
theorem Metadata.foldlM_fields (depth : Nat) (m : Metadata) :
    (Message.fields m).foldlM (Message.merge depth) Message.empty = some m := by
  obtain ⟨deviceName, fullName, iconUrl, mac, accountName, vendorId⟩ := m
  have first := Field.foldlM_optionalText depth 1
    (fun v => Metadata.mk v none none none none none)
    (fun s => by simp [Message.merge, Payload.text?, Bytes.toText?_ofText]) deviceName
  have second := Field.foldlM_optionalText depth 2
    (fun v => Metadata.mk deviceName v none none none none)
    (fun s => by simp [Message.merge, Payload.text?, Bytes.toText?_ofText]) fullName
  have third := Field.foldlM_optionalText depth 3
    (fun v => Metadata.mk deviceName fullName v none none none)
    (fun s => by simp [Message.merge, Payload.text?, Bytes.toText?_ofText]) iconUrl
  have fourth := Field.foldlM_optionalOctets depth 4
    (fun v => Metadata.mk deviceName fullName iconUrl v none none)
    (fun b => by simp [Message.merge, Payload.octets?]) mac
  have fifth := Field.foldlM_optionalText depth 6
    (fun v => Metadata.mk deviceName fullName iconUrl mac v none)
    (fun s => by simp [Message.merge, Payload.text?, Bytes.toText?_ofText]) accountName
  have sixth := Field.foldlM_optionalInt32 depth 7
    (fun v => Metadata.mk deviceName fullName iconUrl mac accountName v)
    (fun n => by simp [Message.merge, Field.varint32, Payload.int32?, Payload.low32_widened])
      vendorId
  change (Field.optionalText 1 deviceName ++ Field.optionalText 2 fullName ++
    Field.optionalText 3 iconUrl ++
    Field.optionalOctets 4 mac ++ Field.optionalText 6 accountName ++
    Field.optionalInt32 7 vendorId).foldlM (Message.merge depth)
      (Metadata.mk none none none none none none) = _
  simp only [List.foldlM_append, first, second, third, fourth, fifth, sixth, Option.bind_eq_bind,
    Option.bind_some]

instance : LawfulMessage Metadata where
  levels := 0
  plain_fields m := List.forall_mem_append.2 ⟨List.forall_mem_append.2 ⟨List.forall_mem_append.2
    ⟨List.forall_mem_append.2 ⟨List.forall_mem_append.2
      ⟨Field.plain_optionalText (by decide) (by decide) _,
        Field.plain_optionalText (by decide) (by decide) _⟩,
      Field.plain_optionalText (by decide) (by decide) _⟩,
      Field.plain_optionalOctets (by decide) (by decide) _⟩,
      Field.plain_optionalText (by decide) (by decide) _⟩,
    Field.plain_optionalInt32 (by decide) (by decide) _⟩
  merge_fields depth m _ _ := Metadata.foldlM_fields depth m

end ProximityCert
