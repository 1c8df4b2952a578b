import ProximityCert.Wire.Message

/-!
Reading fields back. A written field is read again in front of any further bytes, and so is a whole
body of fields. Only fields that messages write are looked at: groups and fixed widths are read but
never written.
-/

namespace ProximityCert

/-- Every number takes an octet. -/
theorem Varint.bytes_ne_nil (n : Nat) : bytes n ≠ [] := by
  simp only [bytes, maxOctets, digits]
  split <;> simp

/-- A payload that messages write: a number, or a body whose length is a 64-bit number. -/
def Payload.Written : Payload → Prop
  | .varint _ => True
  | .delimited body => body.length < UInt64.size
  | _ => False

namespace Field

/-- A field that messages write; its number leaves room for the wire form in a key. -/
structure Written (f : Field) : Prop where
  positive : 0 < f.number
  small : f.number < 0x10000000
  payload : f.payload.Written

theorem readKey_key {number form : Nat} (positive : 0 < number) (small : number < 0x10000000)
    (known : form < 8)
    (rest : Bytes) : readKey (key number form ++ rest) = some (number, form, rest) := by
  have room : number * 8 + form < UInt32.size := by
    have : UInt32.size = 4294967296 := rfl
    omega
  have wide : number * 8 + form < UInt64.size := Nat.lt_trans room (by decide)
  simp only [readKey, key, Varint.read_bytes wide, Option.bind_some]
  rw [if_pos ⟨by omega, room⟩, show (number * 8 + form) / 8 = number by omega,
    show (number * 8 + form) % 8 = form by omega]

theorem cut_append (body rest : Bytes) : cut body.length (body ++ rest) = some (body, rest) := by
  simp [cut]

theorem readFramed_framed {body : Bytes} (small : body.length < UInt64.size) (rest : Bytes) :
    readFramed (framed body ++ rest) = some (body, rest) := by
  simp only [readFramed, framed, List.append_assoc, Varint.read_bytes small, Option.bind_some,
    cut_append]

theorem read_bytes {f : Field} (written : f.Written) (depth fuel : Nat) (rest : Bytes) :
    read depth fuel (f.bytes ++ rest) = some (f, rest) := by
  obtain ⟨number, payload⟩ := f
  obtain ⟨positive, small, fits⟩ := written
  cases payload with
  | varint value =>
      have value_lt : value.toNat < UInt64.size := value.toNat_lt
      simp only [read, bytes, List.append_assoc]
      rw [readKey_key positive small (by decide)]
      simp [readPayload, Varint.read_bytes value_lt]
  | delimited body =>
      have body_lt : body.length < UInt64.size := fits
      simp only [read, bytes, List.append_assoc]
      rw [readKey_key positive small (by decide)]
      simp [readPayload, readFramed_framed body_lt]
  | fixed64 octets => exact fits.elim
  | group => exact fits.elim
  | fixed32 octets => exact fits.elim

theorem bytes_ne_nil (f : Field) : f.bytes ≠ [] := by
  unfold bytes
  split <;> simp [key, Varint.bytes_ne_nil]

theorem length_bytes_pos (f : Field) : 0 < f.bytes.length := List.length_pos_iff.2 f.bytes_ne_nil

theorem length_body_le (number : Nat) (body : Bytes) :
    body.length ≤ (Field.mk number (.delimited body)).bytes.length := by
  simp only [bytes, framed, List.length_append]
  omega

/-- Written fields read back one after the other; the count has to allow for their number only. -/
theorem readUpTo_flatMap (depth : Nat) {fs : List Field} (written : ∀ f ∈ fs, f.Written)
    {fuel : Nat}
    (enough : fs.length ≤ fuel) : readUpTo depth fuel (fs.flatMap bytes) = some fs := by
  induction fs generalizing fuel with
  | nil => cases fuel <;> rfl
  | cons f rest ih =>
      obtain ⟨fuel, rfl⟩ : ∃ n, fuel = n + 1 :=
        Nat.exists_eq_succ_of_ne_zero (by simp at enough; omega)
      have head := read_bytes (written f List.mem_cons_self) depth fuel (rest.flatMap bytes)
      have tail : readUpTo depth fuel (rest.flatMap bytes) = some rest :=
        ih (fun g member => written g (List.mem_cons_of_mem _ member)) (by simpa using enough)
      obtain ⟨b, bs, first⟩ : ∃ b bs, f.bytes ++ rest.flatMap bytes = b :: bs :=
        List.exists_cons_of_ne_nil (by simp [bytes_ne_nil])
      rw [first] at head
      rw [List.flatMap_cons, first, readUpTo, head]
      simp only [tail, Option.map_some]

theorem length_le_flatMap (fs : List Field) : fs.length ≤ (fs.flatMap bytes).length := by
  induction fs with
  | nil => simp
  | cons f rest ih =>
      have := f.length_bytes_pos
      simp only [List.length_cons, List.flatMap_cons, List.length_append]
      omega

theorem readAll_flatMap (depth : Nat) {fs : List Field} (written : ∀ f ∈ fs, f.Written) :
    readAll depth (fs.flatMap bytes) = some fs :=
  readUpTo_flatMap depth written (length_le_flatMap fs)

theorem length_bytes_le_flatMap {f : Field} {fs : List Field} (member : f ∈ fs) :
    f.bytes.length ≤ (fs.flatMap bytes).length := by
  obtain ⟨before, after, rfl⟩ := List.append_of_mem member
  simp only [List.flatMap_append, List.flatMap_cons, List.length_append]
  omega

/-- A number takes few octets, so a field is little longer than its body. -/
theorem length_varint_le (n : Nat) : (Varint.bytes n).length ≤ 10 := by
  have bounded (octets n : Nat) : (Varint.digits octets n).length ≤ octets := by
    induction octets generalizing n with
    | zero => simp [Varint.digits]
    | succ octets ih =>
        rw [Varint.digits]
        split
        · simp
        · simpa using ih (n / 128)
  exact bounded Varint.maxOctets n

theorem length_bytes_varint_le (number : Nat) (value : UInt64) :
    (Field.mk number (.varint value)).bytes.length ≤ 20 := by
  have := length_varint_le (number * 8 + 0)
  have := length_varint_le value.toNat
  simp only [bytes, key, List.length_append]
  omega

theorem length_bytes_delimited_le (number : Nat) (body : Bytes) :
    (Field.mk number (.delimited body)).bytes.length ≤ 20 + body.length := by
  have := length_varint_le (number * 8 + 2)
  have := length_varint_le body.length
  simp only [bytes, key, framed, List.length_append]
  omega

end Field
end ProximityCert
