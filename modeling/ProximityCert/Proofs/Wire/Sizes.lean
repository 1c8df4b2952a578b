import ProximityCert.Proofs.Wire.Messages

/-!
Sizes of what has been read. A body stands behind its length, which is a 64-bit number, so whatever was
read can be written with its length again; metadata that was read is not lost when it is written anew,
even if a whole message of such fields were longer than a length can say.
-/

namespace ProximityCert

theorem Bytes.ofText_of_toText? {bs : Bytes} {s : String} (h : toText? bs = some s) :
    ofText s = bs := by
  simp only [toText?, String.fromUTF8?] at h
  split at h
  · rw [← Option.some.inj h]
    rfl
  · cases h

/-- A payload whose body, if it has one, is no longer than a length can say. -/
def Payload.Sized : Payload → Prop
  | .delimited body => body.length < UInt64.size
  | _ => True

namespace Payload.Sized

variable {p : Payload} (h : p.Sized)
include h

theorem octets : ∀ b ∈ p.octets?, b.length < UInt64.size := by
  intro b read
  cases p with
  | delimited body => exact Option.some.inj read ▸ h
  | varint value => cases read
  | fixed64 octets => cases read
  | group => cases read
  | fixed32 octets => cases read

theorem text : ∀ s ∈ p.text?, (Bytes.ofText s).length < UInt64.size := by
  intro s read
  cases p with
  | delimited body => exact Bytes.ofText_of_toText? read ▸ h
  | varint value => cases read
  | fixed64 octets => cases read
  | group => cases read
  | fixed32 octets => cases read

end Payload.Sized

theorem Varint.lt_of_read {bs rest : Bytes} {n : Nat} (h : read bs = some (n, rest)) :
    n < UInt64.size := by
  obtain ⟨⟨m, behind⟩, _, kept⟩ := Option.bind_eq_some_iff.1 h
  dsimp only at kept
  split at kept
  · next small => exact (Prod.mk.inj (Option.some.inj kept)).1 ▸ small
  · cases kept

namespace Field

variable {form n depth fuel : Nat} {bs body rest : Bytes} {p : Payload} {f : Field}
    {fs : List Field}

theorem length_of_cut (h : cut n bs = some (body, rest)) : body.length = n := by
  simp only [cut] at h
  split at h
  · next whole =>
      rw [← (Prod.mk.inj (Option.some.inj h)).1]
      exact whole
  · cases h

theorem sized_of_readPayload (h : readPayload form bs = some (p, rest)) : p.Sized := by
  unfold readPayload at h
  split at h
  · obtain ⟨_, _, h⟩ := Option.map_eq_some_iff.1 h
    rw [← (Prod.mk.inj h).1]
    trivial
  · obtain ⟨_, _, h⟩ := Option.map_eq_some_iff.1 h
    rw [← (Prod.mk.inj h).1]
    trivial
  · obtain ⟨⟨body, behind⟩, framed, h⟩ := Option.map_eq_some_iff.1 h
    obtain ⟨⟨n, next⟩, length, whole⟩ := Option.bind_eq_some_iff.1 framed
    rw [← (Prod.mk.inj h).1]
    have small := Varint.lt_of_read length
    rw [← length_of_cut whole] at small
    exact small
  · obtain ⟨_, _, h⟩ := Option.map_eq_some_iff.1 h
    rw [← (Prod.mk.inj h).1]
    trivial
  · cases h

theorem sized_of_read (h : read depth fuel bs = some (f, rest)) : f.payload.Sized := by
  unfold read at h
  split at h
  · cases h
  · split at h
    · split at h
      · cases h
      · obtain ⟨_, _, h⟩ := Option.map_eq_some_iff.1 h
        rw [← (Prod.mk.inj h).1]
        trivial
    · obtain ⟨⟨p, behind⟩, found, h⟩ := Option.map_eq_some_iff.1 h
      rw [← (Prod.mk.inj h).1]
      exact sized_of_readPayload found

theorem sized_of_readUpTo (h : readUpTo depth fuel bs = some fs) : ∀ f ∈ fs, f.payload.Sized := by
  induction fuel generalizing bs fs with
  | zero =>
      cases bs with
      | nil =>
          rw [← Option.some.inj h]
          exact fun f member => (List.not_mem_nil member).elim
      | cons b bs => cases h
  | succ fuel ih =>
      cases bs with
      | nil =>
          rw [← Option.some.inj h]
          exact fun f member => (List.not_mem_nil member).elim
      | cons b bs =>
          rw [readUpTo] at h
          split at h
          · cases h
          · next first behind found =>
              obtain ⟨later, more, rfl⟩ := Option.map_eq_some_iff.1 h
              exact List.forall_mem_cons.2 ⟨sized_of_read found, ih more⟩

theorem Plain.written_of_sized (plain : f.Plain) (sized : f.payload.Sized) : f.Written := by
  refine ⟨plain.positive, plain.small, ?_⟩
  obtain ⟨number, payload⟩ := f
  cases payload with
  | varint value => trivial
  | delimited body => exact sized
  | fixed64 octets => exact plain.payload.elim
  | group => exact plain.payload.elim
  | fixed32 octets => exact plain.payload.elim

end Field

namespace Metadata

variable {m m' : Metadata}

/-- Metadata of which every part can be written with its length. -/
def Sized (m : Metadata) : Prop := ∀ f ∈ Message.fields m, f.payload.Sized

theorem sized_iff (m : Metadata) :
    m.Sized ↔ (∀ s ∈ m.deviceName, (Bytes.ofText s).length < UInt64.size) ∧
      (∀ s ∈ m.fullName, (Bytes.ofText s).length < UInt64.size) ∧
      (∀ s ∈ m.iconUrl, (Bytes.ofText s).length < UInt64.size) ∧
      (∀ b ∈ m.bluetoothMac, b.length < UInt64.size) ∧
      (∀ s ∈ m.accountName, (Bytes.ofText s).length < UInt64.size) := by
  simp only [Sized, Message.fields, List.forall_mem_append]
  simp [Field.optionalText, Field.optionalOctets, Field.optionalInt32, Field.varint32,
    Payload.Sized, and_assoc]

theorem sized_of_short (short : (Message.encode m).length < UInt64.size) : m.Sized := by
  intro f member
  have inside := Field.length_bytes_le_flatMap member
  obtain ⟨number, payload⟩ := f
  cases payload with
  | delimited body =>
      exact Nat.lt_of_le_of_lt (Nat.le_trans (Field.length_body_le number body) inside) short
  | varint value => trivial
  | fixed64 octets => trivial
  | group => trivial
  | fixed32 octets => trivial

theorem sized_of_merge {depth : Nat} {f : Field} (old : m.Sized) (new : f.payload.Sized)
    (h : Message.merge depth m f = some m') : m'.Sized := by
  rw [sized_iff] at old ⊢
  obtain ⟨deviceName, fullName, iconUrl, bluetoothMac, accountName⟩ := old
  simp only [Message.merge] at h
  split at h
  · obtain ⟨s, read, rfl⟩ := Option.map_eq_some_iff.1 h
    exact ⟨read ▸ new.text, fullName, iconUrl, bluetoothMac, accountName⟩
  · obtain ⟨s, read, rfl⟩ := Option.map_eq_some_iff.1 h
    exact ⟨deviceName, read ▸ new.text, iconUrl, bluetoothMac, accountName⟩
  · obtain ⟨s, read, rfl⟩ := Option.map_eq_some_iff.1 h
    exact ⟨deviceName, fullName, read ▸ new.text, bluetoothMac, accountName⟩
  · obtain ⟨b, read, rfl⟩ := Option.map_eq_some_iff.1 h
    exact ⟨deviceName, fullName, iconUrl, read ▸ new.octets, accountName⟩
  · obtain ⟨s, read, rfl⟩ := Option.map_eq_some_iff.1 h
    exact ⟨deviceName, fullName, iconUrl, bluetoothMac, read ▸ new.text⟩
  · obtain ⟨n, _, rfl⟩ := Option.map_eq_some_iff.1 h
    exact ⟨deviceName, fullName, iconUrl, bluetoothMac, accountName⟩
  · unfold Field.skip at h
    split at h
    · cases h
    · rw [← Option.some.inj h]
      exact ⟨deviceName, fullName, iconUrl, bluetoothMac, accountName⟩

theorem sized_of_merges {depth : Nat} {fs : List Field} (old : m.Sized)
    (new : ∀ f ∈ fs, f.payload.Sized)
    (h : fs.foldlM (Message.merge depth) m = some m') : m'.Sized := by
  induction fs generalizing m with
  | nil => exact Option.some.inj h ▸ old
  | cons f fs ih =>
      rw [List.foldlM_cons] at h
      obtain ⟨next, first, rest⟩ := Option.bind_eq_some_iff.1 h
      rw [List.forall_mem_cons] at new
      exact ih (sized_of_merge old new.1 first) new.2 rest

/-- Whatever metadata was read from, it can be written. -/
theorem sized_of_decode {bs : Bytes} (h : Message.decode bs = some m) : m.Sized := by
  obtain ⟨fs, read, merged⟩ := Option.bind_eq_some_iff.1 h
  exact sized_of_merges (fun f member => (List.not_mem_nil member).elim)
    (Field.sized_of_readUpTo read) merged

theorem decode_encode_of_sized (sized : m.Sized) :
    Message.decode (Message.encode m) = some m := by
  have written : ∀ f ∈ Message.fields m, f.Written := fun f member =>
    (LawfulMessage.plain_fields m f member).written_of_sized (sized f member)
  rw [Message.decode, Message.mergeBody,
    show Message.encode m = (Message.fields m).flatMap Field.bytes from rfl,
    Field.readAll_flatMap _ written]
  exact foldlM_fields Field.maxDepth m

end Metadata
end ProximityCert
