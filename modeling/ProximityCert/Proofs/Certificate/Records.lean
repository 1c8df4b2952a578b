import ProximityCert.Certificate.Record
import ProximityCert.Proofs.Certificate.Keys
import ProximityCert.Proofs.Outcomes
import ProximityCert.Proofs.Wire.Sizes

/-!
Stored certificates come back as they were. Only times outside the signed 64-bit nanoseconds, which
the record cuts off, and metadata longer than a length can say are lost; what a record was read to
has neither.
-/

namespace ProximityCert

namespace Hex

theorem ofText_digits (bs : Bytes) :
    Bytes.ofText (String.ofList (encodeChars bs)) = (encodeChars bs).map fun c =>
      c.val.toUInt8 := by
  have ascii : ∀ n < 16, String.utf8EncodeChar (digit n) = [(digit n).val.toUInt8] := by decide
  simp only [Bytes.ofText, String.toUTF8_eq_toByteArray, String.toByteArray_ofList, List.utf8Encode,
    List.data_toByteArray]
  induction bs with
  | nil => rfl
  | cons b rest ih =>
      have small := b.toNat_lt
      rw [encodeChars, List.flatMap_cons, List.flatMap_cons, ascii _ (by omega), ascii _ (by omega),
        ih]
      rfl

theorem decodePairs_digits (bs : Bytes) (position : Nat) :
    decodePairs position ((encodeChars bs).map fun c => c.val.toUInt8) = .ok bs := by
  induction bs generalizing position with
  | nil => rfl
  | cons b rest ih =>
      have small := b.toNat_lt
      have joined : UInt8.ofNat (b.toNat / 16 * 16 + b.toNat % 16) = b := by
        rw [Nat.div_add_mod']
        exact UInt8.ofNat_toNat
      rw [encodeChars, List.map_cons, List.map_cons, decodePairs, octetValue?_digit _ (by omega),
        octetValue?_digit _ (by omega), ih]
      simp [Except.map, joined]

theorem encodeChars_append (as bs : Bytes) :
    encodeChars (as ++ bs) = encodeChars as ++ encodeChars bs := by
  induction as with
  | nil => rfl
  | cons a as ih =>
      rw [List.cons_append, encodeChars, encodeChars, ih, List.cons_append, List.cons_append]

theorem encodeChars_flatten (blocks : List Bytes) :
    encodeChars blocks.flatten = blocks.flatMap encodeChars := by
  induction blocks with
  | nil => rfl
  | cons b blocks ih => rw [List.flatten_cons, encodeChars_append, ih, List.flatMap_cons]

theorem decode_encode (bs : Bytes) : decode (Bytes.ofText (encode bs)) = .ok bs := by
  rw [encode, ofText_digits, decode, if_neg (by simp), decodePairs_digits]

end Hex

namespace Bytes

theorem length_flatten {size : Nat} {blocks : List Bytes} (whole : ∀ b ∈ blocks, b.length = size) :
    blocks.flatten.length = blocks.length * size := by
  induction blocks with
  | nil => simp
  | cons b blocks ih =>
      rw [List.flatten_cons, List.length_append, whole b List.mem_cons_self,
        ih fun x member => whole x (List.mem_cons_of_mem b member), List.length_cons, Nat.succ_mul,
          Nat.add_comm]

theorem chunks_flatten {size : Nat} (positive : 0 < size) {blocks : List Bytes}
    (whole : ∀ b ∈ blocks, b.length = size) :
    chunks size blocks.flatten = blocks := by
  suffices cut : ∀ fuel, blocks.flatten.length ≤ fuel →
    chunks.go size fuel blocks.flatten = blocks from cut _ (Nat.le_refl _)
  induction blocks with
  | nil => intro fuel _; cases fuel <;> rfl
  | cons b blocks ih =>
      intro fuel enough
      have own : b.length = size := whole b List.mem_cons_self
      rw [List.flatten_cons] at enough ⊢
      rw [List.length_append] at enough
      cases fuel with
      | zero => omega
      | succ fuel =>
          have filled : (b ++ blocks.flatten).isEmpty = false := by
            cases b with
            | nil => simp at own; omega
            | cons x xs => rfl
          rw [chunks.go, filled, ← own, List.take_left, List.drop_left, own]
          simp only [Bool.false_eq_true, if_false]
          rw [ih (fun x member => whole x (List.mem_cons_of_mem b member)) fuel (by omega)]

end Bytes

namespace SortedSet

variable {κ : Type} [LT κ] [DecidableEq κ] [DecidableLT κ] [KeyOrder κ]

theorem find?_ofElements (ks : List κ) (k : κ) :
    (ofElements ks).find? k = if k ∈ ks then some () else none := by
  induction ks with
  | nil => rfl
  | cons x ks ih =>
      have step : (ofElements (x :: ks)).find? k =
        if k = x then some () else (ofElements ks).find? k :=
        SortedMap.find?_insert ..
      rw [step, ih]
      by_cases same : k = x
      · simp [same]
      · simp [same]

theorem ofElements_toList (s : SortedSet κ) : ofElements s.toList = s := by
  refine SortedMap.ext_find? fun k => ?_
  rw [find?_ofElements]
  by_cases member : k ∈ s.toList
  · obtain ⟨e, entry, rfl⟩ := List.mem_map.1 member
    rw [if_pos member]
    exact (SortedMap.find?_eq_some_iff.2 entry).symm
  · rw [if_neg member]
    cases found : s.find? k with
    | none => rfl
    | some u => exact absurd (List.mem_map_of_mem (SortedMap.find?_eq_some_iff.1 found)) member

end SortedSet

theorem Salt.ofBytes_bytes (s : Salt) : ofBytes s.bytes = s := by
  have fits : s.toNat < Nat.pow 256 Material.saltLength := s.toNat_lt
  rw [ofBytes, bytes, Bytes.toNat_ofNat fits]
  exact UInt16.ofNat_toNat

namespace Json

theorem member?_insertMember (a name : String) (value : Json) (members : List (String × Json)) :
    member? a (insertMember name value members) =
      if a = name then some value else member? a members := by
  induction members with
  | nil => rfl
  | cons m rest ih =>
      obtain ⟨n, v⟩ := m
      unfold insertMember
      split
      · next same =>
          subst same
          by_cases h : a = name
          · simp [member?, h]
          · simp [member?, h]
      · next other =>
          split
          · rfl
          · by_cases h : a = name
            · subst h
              simp [member?, other, ih]
            · simp [member?, ih, h]

theorem member?_foldl_of_not_mem {ms : List (String × Json)} {a : String}
    (absent : a ∉ ms.map Prod.fst) (acc : List (String × Json)) :
    member? a (ms.foldl (fun acc (n, v) => insertMember n v acc) acc) = member? a acc := by
  induction ms generalizing acc with
  | nil => rfl
  | cons m rest ih =>
      rw [List.map_cons, List.mem_cons, not_or] at absent
      rw [List.foldl_cons, ih absent.2, member?_insertMember, if_neg absent.1]

theorem member?_foldl {ms : List (String × Json)} (distinct : (ms.map Prod.fst).Nodup)
    {m : String × Json} (member : m ∈ ms) (acc : List (String × Json)) :
    member? m.1 (ms.foldl (fun acc (n, v) => insertMember n v acc) acc) = some m.2 := by
  induction ms generalizing acc with
  | nil => exact (List.not_mem_nil member).elim
  | cons first rest ih =>
      rw [List.map_cons, List.nodup_cons] at distinct
      rw [List.foldl_cons]
      rcases List.mem_cons.1 member with rfl | later
      · rw [member?_foldl_of_not_mem distinct.1, member?_insertMember, if_pos rfl]
      · exact ih distinct.2 later _

/-- Of members with different names, each is found under its name. -/
theorem structFields?_ofMembers (members : List (String × Json))
    (distinct : (members.map Prod.fst).Nodup) :
    (ofMembers members).structFields? (members.map Prod.fst) =
      some (members.map fun m => some m.2) := by
  rw [ofMembers, structFields?, List.map_map]
  exact congrArg some (List.map_congr_left fun m member => member?_foldl distinct member [])

@[simp] theorem int64?_ofInt64 (n : Int64) : (ofInt64 n).int64? = some n := by
  have low := n.le_toInt
  have high := n.toInt_lt
  simp only [ofInt64, int64?, integerIn?]
  rw [if_pos ⟨by omega, by omega⟩]
  simp

@[simp] theorem int32?_ofInt32 (n : Int32) : (ofInt32 n).int32? = some n := by
  have low := n.le_toInt
  have high := n.toInt_lt
  simp only [ofInt32, int32?, integerIn?]
  rw [if_pos ⟨by omega, by omega⟩]
  simp

end Json

namespace CertificateRecord

theorem ofJson?_toJson (r : CertificateRecord) : ofJson? r.toJson = some r := by
  have fields := Json.structFields?_ofMembers
    [("visibility", .ofInt32 r.visibility), ("not_before_nanos", .ofInt64 r.notBeforeNanos),
      ("not_after_nanos", .ofInt64 r.notAfterNanos), ("key_pair", .str r.keyPair),
        ("secret_key", .str r.secretKey),
      ("metadata_encryption_key", .str r.metadataKey), ("id", .str r.id),
        ("unencrypted_metadata", .str r.metadata),
      ("consumed_salts", .str r.consumedSalts)] (by simp)
  have names : r.toJson.structFields? fieldNames = _ := fields
  rw [ofJson?, names]
  simp [Json.required?, Json.str?]

theorem decodeSalts_encodeSalts (salts : SortedSet Salt) :
    decodeSalts (encodeSalts salts) = .ok salts := by
  have whole : ∀ b ∈ salts.toList.map Salt.bytes, b.length = Material.saltLength := by
    intro b member
    obtain ⟨s, _, rfl⟩ := List.mem_map.1 member
    exact Bytes.length_ofNat ..
  have text : encodeSalts salts = Hex.encode (salts.toList.map Salt.bytes).flatten := by
    rw [encodeSalts, Hex.encode, Hex.encodeChars_flatten, List.flatMap_map]
  have again : (salts.toList.map Salt.bytes).map Salt.ofBytes = salts.toList := by
    rw [List.map_map]
    exact (List.map_congr_left fun s _ => Salt.ofBytes_bytes s).trans (List.map_id' _)
  rw [decodeSalts, text, Hex.decode_encode]
  simp only [Bytes.length_flatten whole, Nat.mul_mod_left, if_true,
    Bytes.chunks_flatten (show 0 < Material.saltLength by decide) whole, again,
      SortedSet.ofElements_toList]

end CertificateRecord

/-- Whether a certificate can be stored without loss. -/
structure PrivateCertificate.Storable (c : PrivateCertificate) : Prop where
  opens : Int64.minValue.toInt ≤ c.notBefore.nanos ∧ c.notBefore.nanos ≤ Int64.maxValue.toInt
  closes : Int64.minValue.toInt ≤ c.notAfter.nanos ∧ c.notAfter.nanos ≤ Int64.maxValue.toInt
  short : (Message.encode c.metadata).length < UInt64.size

/-- The same, where only each part of the metadata has to be short. -/
structure PrivateCertificate.Lasting (c : PrivateCertificate) : Prop where
  opens : Int64.minValue.toInt ≤ c.notBefore.nanos ∧ c.notBefore.nanos ≤ Int64.maxValue.toInt
  closes : Int64.minValue.toInt ≤ c.notAfter.nanos ∧ c.notAfter.nanos ≤ Int64.maxValue.toInt
  sized : c.metadata.Sized

theorem PrivateCertificate.Storable.lasting {c : PrivateCertificate} (h : c.Storable) : c.Lasting :=
  ⟨h.opens, h.closes, Metadata.sized_of_short h.short⟩

namespace CertificateRecord

variable {r : CertificateRecord} {c : PrivateCertificate} {cs : List PrivateCertificate}

/-- A stored certificate loads as it was, but for what its times and its metadata lose on the way. -/
theorem load_ofCertificate_eq (c : PrivateCertificate) :
    (ofCertificate c).load =
      (Failure.malformedMessage.ifAbsent (Message.decode (Message.encode c.metadata))).map
        fun metadata =>
          { c with
            metadata
            notBefore := .ofUnixNanos c.notBefore.toUnixNanos
            notAfter := .ofUnixNanos c.notAfter.toUnixNanos } := by
  have secret : decodeExact (Base64Url.encode c.secretKey) "secret_key" Material.secretKeyLength =
      .ok ⟨c.secretKey, c.secretKey_length⟩ := by
    simp [decodeExact, decodeBytes, Failure.ifAbsent, Except.bind, c.secretKey_length]
  have key : decodeExact (Base64Url.encode c.metadataKey) "metadata_encryption_key"
    Material.metadataKeyLength =
      .ok ⟨c.metadataKey, c.metadataKey_length⟩ := by
    simp [decodeExact, decodeBytes, Failure.ifAbsent, Except.bind, c.metadataKey_length]
  simp only [load, ofCertificate, decodeBytes, Base64Url.decode_encode, Visibility.ofCode?_code,
    Failure.ifAbsent, SigningKey.ofPrivateDer?_privateDer, secret, key, decodeSalts_encodeSalts,
    bind, Except.bind, pure, Except.pure]
  cases Message.decode (α := Metadata) (Message.encode c.metadata) with
  | none => rfl
  | some metadata => rfl

theorem load_of_lasting (h : c.Lasting) : (ofCertificate c).load = .ok c := by
  have opens := Instant.ofUnixNanos_toUnixNanos h.opens.1 h.opens.2
  have closes := Instant.ofUnixNanos_toUnixNanos h.closes.1 h.closes.2
  rw [load_ofCertificate_eq, Metadata.decode_encode_of_sized h.sized, opens, closes]
  rfl

theorem loadAll_of_lasting (h : ∀ c ∈ cs, c.Lasting) :
    loadAll (cs.map ofCertificate) = .ok cs := by
  induction cs with
  | nil => rfl
  | cons c cs ih =>
      rw [List.map_cons, loadAll, load_of_lasting (h c List.mem_cons_self),
        ih fun x member => h x (List.mem_cons_of_mem c member)]
      rfl

theorem decodeBytes_eq_ok {text : String} {bs : Bytes} :
    decodeBytes text = .ok bs ↔ Base64Url.decode text = some bs := Failure.ifAbsent_eq_ok

theorem decodeExact_eq_ok {text field : String} {length : Nat}
    {bs : { bs : Bytes // bs.length = length }} :
    decodeExact text field length = .ok bs ↔ Base64Url.decode text = some bs.1 := by
  obtain ⟨bs, whole⟩ := bs
  have taken : (if h : bs.length = length then
      (.ok ⟨bs, h⟩ : Except Failure { bs : Bytes // bs.length = length })
      else .error (.length field length bs.length)) = .ok ⟨bs, whole⟩ := dif_pos whole
  constructor
  · intro h
    obtain ⟨bs', decoded, h⟩ := bind_eq_ok.1 h
    split at h
    · cases h
      exact decodeBytes_eq_ok.1 decoded
    · cases h
  · intro decoded
    exact bind_eq_ok.2 ⟨bs, decodeBytes_eq_ok.2 decoded, taken⟩

/-- What a record says of a certificate, part by part. -/
structure Tells (r : CertificateRecord) (c : PrivateCertificate) : Prop where
  visibility : Visibility.ofCode? r.visibility = some c.visibility
  signingKey : (Base64Url.decode r.keyPair).bind SigningKey.ofPrivateDer? = some c.signingKey
  secretKey : Base64Url.decode r.secretKey = some c.secretKey
  metadataKey : Base64Url.decode r.metadataKey = some c.metadataKey
  id : Base64Url.decode r.id = some c.id
  metadata : (Base64Url.decode r.metadata).bind Message.decode = some c.metadata
  consumedSalts : decodeSalts r.consumedSalts = .ok c.consumedSalts
  notBefore : Instant.ofUnixNanos r.notBeforeNanos = c.notBefore
  notAfter : Instant.ofUnixNanos r.notAfterNanos = c.notAfter

theorem load_eq_ok_iff : r.load = .ok c ↔ r.Tells c := by
  constructor
  · intro h
    unfold load at h
    obtain ⟨visibility, known, h⟩ := bind_eq_ok.1 h
    obtain ⟨pair, der, h⟩ := bind_eq_ok.1 h
    obtain ⟨signingKey, signs, h⟩ := bind_eq_ok.1 h
    obtain ⟨secretKey, secret, h⟩ := bind_eq_ok.1 h
    obtain ⟨metadataKey, key, h⟩ := bind_eq_ok.1 h
    obtain ⟨id, name, h⟩ := bind_eq_ok.1 h
    obtain ⟨bs, text, h⟩ := bind_eq_ok.1 h
    obtain ⟨metadata, read, h⟩ := bind_eq_ok.1 h
    obtain ⟨salts, used, h⟩ := bind_eq_ok.1 h
    obtain rfl := Except.ok.inj h
    exact {
      visibility := Failure.ifAbsent_eq_ok.1 known
      signingKey := by
        rw [decodeBytes_eq_ok.1 der]
        exact Failure.ifAbsent_eq_ok.1 signs
      secretKey := decodeExact_eq_ok.1 secret
      metadataKey := decodeExact_eq_ok.1 key
      id := decodeBytes_eq_ok.1 name
      metadata := by
        rw [decodeBytes_eq_ok.1 text]
        exact Failure.ifAbsent_eq_ok.1 read
      consumedSalts := used
      notBefore := rfl
      notAfter := rfl }
  · intro h
    obtain ⟨pair, der, signs⟩ := Option.bind_eq_some_iff.1 h.signingKey
    obtain ⟨text, bytes, read⟩ := Option.bind_eq_some_iff.1 h.metadata
    unfold load
    refine bind_eq_ok.2 ⟨_, Failure.ifAbsent_eq_ok.2 h.visibility, ?_⟩
    refine bind_eq_ok.2 ⟨_, decodeBytes_eq_ok.2 der, ?_⟩
    refine bind_eq_ok.2 ⟨_, Failure.ifAbsent_eq_ok.2 signs, ?_⟩
    refine bind_eq_ok.2 ⟨⟨c.secretKey, c.secretKey_length⟩, decodeExact_eq_ok.2 h.secretKey, ?_⟩
    refine bind_eq_ok.2 ⟨⟨c.metadataKey, c.metadataKey_length⟩,
      decodeExact_eq_ok.2 h.metadataKey, ?_⟩
    refine bind_eq_ok.2 ⟨_, decodeBytes_eq_ok.2 h.id, ?_⟩
    refine bind_eq_ok.2 ⟨_, decodeBytes_eq_ok.2 bytes, ?_⟩
    refine bind_eq_ok.2 ⟨_, Failure.ifAbsent_eq_ok.2 read, ?_⟩
    refine bind_eq_ok.2 ⟨_, h.consumedSalts, ?_⟩
    rw [h.notBefore, h.notAfter]
    rfl

theorem lasting_of_load (h : r.load = .ok c) : c.Lasting := by
  have told := load_eq_ok_iff.1 h
  obtain ⟨bs, -, read⟩ := Option.bind_eq_some_iff.1 told.metadata
  constructor
  · rw [← told.notBefore]
    exact ⟨r.notBeforeNanos.minValue_le_toInt, r.notBeforeNanos.toInt_le⟩
  · rw [← told.notAfter]
    exact ⟨r.notAfterNanos.minValue_le_toInt, r.notAfterNanos.toInt_le⟩
  · exact Metadata.sized_of_decode read

theorem lasting_of_loadAll {rs : List CertificateRecord} (h : loadAll rs = .ok cs) :
    ∀ c ∈ cs, c.Lasting := by
  induction rs generalizing cs with
  | nil =>
      cases h
      exact List.forall_mem_nil _
  | cons r rs ih =>
      obtain ⟨c, loaded, h⟩ := bind_eq_ok.1 h
      obtain ⟨rest, others, rfl⟩ := map_eq_ok.1 h
      exact List.forall_mem_cons.2 ⟨lasting_of_load loaded, ih others⟩

end CertificateRecord
end ProximityCert
