import ProximityCert.Certificate.Decrypted
import ProximityCert.Certificate.Record
import ProximityCert.Inspect.Reading

/-! Descriptions of certificates and of what they hold. -/

namespace ProximityCert

namespace Visibility

def describe (v : Visibility) : Json := .ofInt32 v.code

def readAt (j : Json) (name : String) : Reading Visibility := do
  match ofCode? (← j.int32At name) with
  | some v => return v
  | none => .refuse "visibility expected"

end Visibility

namespace Metadata

def describe (m : Metadata) : Json := .ofPresent
  [("device_name", m.deviceName.map .str), ("full_name", m.fullName.map .str), ("icon_url", m.iconUrl.map .str),
    ("mac", m.bluetoothMac.map .hex), ("account_name", m.accountName.map .str), ("vendor_id", m.vendorId.map .ofInt32)]

def read (j : Json) : Reading Metadata := return {
  deviceName := ← j.textAt? "device_name"
  fullName := ← j.textAt? "full_name"
  iconUrl := ← j.textAt? "icon_url"
  bluetoothMac := ← j.bytesAt? "mac"
  accountName := ← j.textAt? "account_name"
  vendorId := ← j.int32At? "vendor_id" }

end Metadata

namespace Timestamp

def describe (t : Timestamp) : Json := .ofMembers [("s", .decimal t.seconds.toInt), ("n", .ofInt32 t.nanos)]

def read (j : Json) : Reading Timestamp := return ⟨Int64.ofInt (← j.intAt "s"), ← j.int32At "n"⟩

end Timestamp

namespace PrivateCertificate

/-- Used salts that a description shows. -/
def shownSalts : Nat := 16

def describe (c : PrivateCertificate) : Json := .ofMembers
  [("visibility", c.visibility.describe), ("not_before", .time c.notBefore), ("not_after", .time c.notAfter), ("id", .hex c.id),
    ("secret_key", .hex c.secretKey), ("mek", .hex c.metadataKey), ("metadata", c.metadata.describe),
    ("salt_count", .ofNat c.consumedSalts.size),
    ("salts", .hex ((SortedSet.toList c.consumedSalts |>.take shownSalts).flatMap Salt.bytes)),
    ("public_key", .hex c.signingKey.publicDer)]

/-- The encoding of a signing key with the given number, without its public part. -/
def keyDer (number : Bytes) : Bytes :=
  let element (tag : UInt8) (body : Bytes) : Bytes := (Der.Element.mk tag body).bytes
  let inner := element Der.Tag.sequence (element Der.Tag.integer [1] ++ element Der.Tag.octetString number)
  element Der.Tag.sequence (element Der.Tag.integer [0] ++ element Der.Tag.sequence SigningKey.algorithm ++
    element Der.Tag.octetString inner)

/-- The salts from the first number up to, and without, the second. -/
def readSaltRange : Json → Reading Bytes
  | .arr [low, high] => do
    let low ← Json.asInt low
    let high ← Json.asInt high
    return (List.range (high - low).toNat).flatMap fun i => Salt.bytes (UInt16.ofNat (low.toNat + i))
  | _ => .refuse "salt range expected"

/-- The record of a described certificate. It ends after the usual period, and its id is the hash of
its secret, unless others are given. -/
def readRecord (j : Json) : Reading CertificateRecord := do
  let notBefore ← j.instantAt "not_before"
  let notAfter ← match ← j.instantAt? "not_after" with
    | none => liftM (notBefore.plus validityPeriod)
    | some t => pure t
  let secretKey ← j.bytesAt "secret_key"
  return {
    visibility := ← j.int32At "visibility"
    notBeforeNanos := notBefore.toUnixNanos
    notAfterNanos := notAfter.toUnixNanos
    keyPair := Base64Url.encode (keyDer (← j.bytesAt "key"))
    secretKey := Base64Url.encode secretKey
    metadataKey := Base64Url.encode (← j.bytesAt "mek")
    id := Base64Url.encode ((← j.bytesAt? "id").getD (Sha256.digest secretKey))
    metadata := Base64Url.encode (Message.encode (← Metadata.read (j.part "metadata")))
    consumedSalts := Hex.encode ((← j.bytesAt "salts") ++ (← j.itemsAt "salt_ranges" readSaltRange).flatten) }

def read (j : Json) : Reading PrivateCertificate := do liftM (← readRecord j).load

end PrivateCertificate

namespace PublicCertificate

def describe (c : PublicCertificate) : Json := .ofMembers
  [("secret_id", .hex c.secretId), ("secret_key", .hex c.secretKey), ("public_key", .hex c.publicKey),
    ("start", .ofOption Timestamp.describe c.startTime), ("end", .ofOption Timestamp.describe c.endTime),
    ("selected", .bool c.forSelectedContacts), ("mek", .hex c.metadataKey), ("enc_metadata", .hex c.encryptedMetadata),
    ("tag", .hex c.metadataKeyTag), ("self_share", .bool c.forSelfShare)]

/-- A described certificate: the public form of a private one, or an empty one, with the members that
are given put over it; a null that is given is empty. -/
def read (j : Json) : Reading PublicCertificate := do
  let base : PublicCertificate ← match j.part "from" with
    | .null => pure {}
    | source => do
      match ← liftM ((← PrivateCertificate.read source).toPublic (← j.natAt "before") (← j.natAt "after")) with
      | some c => pure c
      | none => .refuse "no public form"
  let octets (name : String) (base : Bytes) : Reading Bytes := j.givenOr name base Json.asBytes
  let flag (name : String) (base : Bool) : Reading Bool := j.givenOr name base Json.asBool
  let time (name : String) (base : Option Timestamp) : Reading (Option Timestamp) :=
    j.givenOr name base (Json.ifPresent Timestamp.read)
  return {
    secretId := ← octets "secret_id" base.secretId
    secretKey := ← octets "secret_key" base.secretKey
    publicKey := ← octets "public_key" base.publicKey
    startTime := ← time "start" base.startTime
    endTime := ← time "end" base.endTime
    forSelectedContacts := ← flag "selected" base.forSelectedContacts
    metadataKey := ← octets "mek" base.metadataKey
    encryptedMetadata := ← octets "enc_metadata" base.encryptedMetadata
    metadataKeyTag := ← octets "tag" base.metadataKeyTag
    forSelfShare := ← flag "self_share" base.forSelfShare }

end PublicCertificate

namespace EncryptedMetadataKey

/-- A described key: its octets, or the key of a described certificate under the salt. -/
def read (fallback : Json) (j : Json) : Reading EncryptedMetadataKey := do
  let salt ← j.bytesAt "salt"
  match ← j.bytesAt? "key", (match j.part "of" with | .null => fallback | source => source) with
  | some key, _ => return ⟨salt, key⟩
  | none, .null => return ⟨salt, []⟩
  | none, source => do
    let c ← PrivateCertificate.read source
    return ⟨salt, ← Material.applyKeyCipher c.secretKey salt c.metadataKey⟩

end EncryptedMetadataKey

namespace DecryptedCertificate

def describeMembers (c : DecryptedCertificate) : List (String × Option Json) :=
  [("id", some (.hex c.id)), ("not_before", some (.time c.notBefore)), ("not_after", some (.time c.notAfter)),
    ("public_key", some (.hex c.publicKey)), ("metadata", some c.metadata.describe), ("self_share", some (.bool c.forSelfShare))]

def describe (c : DecryptedCertificate) : Json := .ofPresent c.describeMembers

end DecryptedCertificate
end ProximityCert
