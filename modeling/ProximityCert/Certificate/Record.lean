import ProximityCert.Certificate.Private
import ProximityCert.Json.Value
import ProximityCert.Text.Base64Url
import ProximityCert.Text.Hex

/-!
The stored form of a private certificate: times as signed nanoseconds, byte fields in base64url, and
the used salts as joined hexadecimal. Loading checks each field and names the first that is wrong.
-/

namespace ProximityCert

structure CertificateRecord where
  visibility : Int32
  notBeforeNanos : Int64
  notAfterNanos : Int64
  keyPair : String
  secretKey : String
  metadataKey : String
  id : String
  metadata : String
  consumedSalts : String
  deriving DecidableEq

namespace CertificateRecord

def fieldNames : List String :=
  ["visibility", "not_before_nanos", "not_after_nanos", "key_pair", "secret_key", "metadata_encryption_key", "id",
    "unencrypted_metadata", "consumed_salts"]

def toJson (r : CertificateRecord) : Json := Json.ofMembers
  [("visibility", .ofInt32 r.visibility), ("not_before_nanos", .ofInt64 r.notBeforeNanos),
    ("not_after_nanos", .ofInt64 r.notAfterNanos), ("key_pair", .str r.keyPair), ("secret_key", .str r.secretKey),
    ("metadata_encryption_key", .str r.metadataKey), ("id", .str r.id), ("unencrypted_metadata", .str r.metadata),
    ("consumed_salts", .str r.consumedSalts)]

/-- All nine fields must be there. -/
def ofJson? (j : Json) : Option CertificateRecord :=
  match j.structFields? fieldNames with
  | some [visibility, notBefore, notAfter, keyPair, secretKey, metadataKey, id, metadata, salts] => do
    return {
      visibility := ← Json.required? Json.int32? visibility
      notBeforeNanos := ← Json.required? Json.int64? notBefore
      notAfterNanos := ← Json.required? Json.int64? notAfter
      keyPair := ← Json.required? Json.str? keyPair
      secretKey := ← Json.required? Json.str? secretKey
      metadataKey := ← Json.required? Json.str? metadataKey
      id := ← Json.required? Json.str? id
      metadata := ← Json.required? Json.str? metadata
      consumedSalts := ← Json.required? Json.str? salts }
  | _ => none

def encodeSalts (salts : SortedSet Salt) : String :=
  String.ofList (salts.toList.flatMap fun s => Hex.encodeChars s.bytes)

/-- Salts in any order and either case of digits, repeated ones counting once. -/
def decodeSalts (text : String) : Except Failure (SortedSet Salt) :=
  match Hex.decode (Bytes.ofText text) with
  | .error e => .error (.serialization ("hex decode error: " ++ e.describe))
  | .ok bytes =>
    if bytes.length % Material.saltLength = 0 then
      .ok (SortedSet.ofElements ((Bytes.chunks Material.saltLength bytes).map Salt.ofBytes))
    else .error (.length "consumed_salts" ((bytes.length / Material.saltLength + 1) * Material.saltLength) bytes.length)

def decodeBytes (text : String) : Except Failure Bytes := Failure.malformedBase64.ifAbsent (Base64Url.decode text)

/-- Bytes of an exact length. -/
def decodeExact (text field : String) (length : Nat) : Except Failure { bs : Bytes // bs.length = length } :=
  (decodeBytes text).bind fun bs => if h : bs.length = length then .ok ⟨bs, h⟩ else .error (.length field length bs.length)

def ofCertificate (c : PrivateCertificate) : CertificateRecord where
  visibility := c.visibility.code
  notBeforeNanos := c.notBefore.toUnixNanos
  notAfterNanos := c.notAfter.toUnixNanos
  keyPair := Base64Url.encode c.signingKey.privateDer
  secretKey := Base64Url.encode c.secretKey
  metadataKey := Base64Url.encode c.metadataKey
  id := Base64Url.encode c.id
  metadata := Base64Url.encode (Message.encode c.metadata)
  consumedSalts := encodeSalts c.consumedSalts

/-- The certificate of a record. -/
def load (r : CertificateRecord) : Except Failure PrivateCertificate := do
  let visibility ← (Failure.serialization ("unknown visibility " ++ toString r.visibility.toInt)).ifAbsent
    (Visibility.ofCode? r.visibility)
  let signingKey ← Failure.malformedKey.ifAbsent (SigningKey.ofPrivateDer? (← decodeBytes r.keyPair))
  let secretKey ← decodeExact r.secretKey "secret_key" Material.secretKeyLength
  let metadataKey ← decodeExact r.metadataKey "metadata_encryption_key" Material.metadataKeyLength
  let id ← decodeBytes r.id
  let metadata ← Failure.malformedMessage.ifAbsent (Message.decode (α := Metadata) (← decodeBytes r.metadata))
  let consumedSalts ← decodeSalts r.consumedSalts
  return {
    visibility, signingKey, id, metadata, consumedSalts
    notBefore := .ofUnixNanos r.notBeforeNanos
    notAfter := .ofUnixNanos r.notAfterNanos
    secretKey := secretKey.1
    metadataKey := metadataKey.1
    secretKey_length := secretKey.2
    metadataKey_length := metadataKey.2 }

end CertificateRecord

/-- The certificates of stored records, or the first failure. -/
def CertificateRecord.loadAll : List CertificateRecord → Except Failure (List PrivateCertificate)
  | [] => .ok []
  | r :: rest => r.load.bind fun c => (loadAll rest).map (c :: ·)

end ProximityCert
