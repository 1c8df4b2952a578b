import ProximityCert.Certificate.Private

/-! A peer's certificate that an advertised metadata key has opened. -/

namespace ProximityCert

structure DecryptedCertificate where
  id : Bytes
  notBefore : Instant
  notAfter : Instant
  secretKey : Bytes
  publicKey : Bytes
  metadata : Metadata
  forSelfShare : Bool
  deriving DecidableEq

/-- Whether the parts of a downloaded certificate have the right shape. -/
def PublicCertificate.isWellFormed (c : PublicCertificate) : Bool :=
  !c.publicKey.isEmpty && c.secretKey.length == Material.secretKeyLength && c.secretId.length == Material.idLength &&
    !c.encryptedMetadata.isEmpty && c.metadataKeyTag.length == Material.keyTagLength

namespace DecryptedCertificate

/-- The metadata that a key opens, if the key belongs to the certificate. -/
def metadataOf (c : PublicCertificate) (key : EncryptedMetadataKey) : Option Metadata := do
  let metadataKey ← (Material.applyKeyCipher c.secretKey key.salt key.encryptedKey).toOption
  if Material.keyTagMatches metadataKey c.metadataKeyTag then
    let plaintext ← (Material.openMetadata metadataKey c.secretKey c.encryptedMetadata).toOption
    Message.decode plaintext
  else none

/-- Tries a key on a certificate; none if the certificate is malformed or the key is not its own. -/
def ofPublic (c : PublicCertificate) (key : EncryptedMetadataKey) : Except ClockFault (Option DecryptedCertificate) :=
  match c.startTime with
  | none => .ok none
  | some start => do
    let notBefore ← start.toInstant
    match c.endTime with
    | none => .ok none
    | some stop =>
      let notAfter ← stop.toInstant
      if notAfter ≤ notBefore ∨ ¬ c.isWellFormed then .ok none
      else .ok ((metadataOf c key).map fun metadata =>
        { id := c.secretId, notBefore, notAfter, secretKey := c.secretKey, publicKey := c.publicKey, metadata
          forSelfShare := c.forSelfShare })

def verify (c : DecryptedCertificate) (payload signature : Bytes) : Bool := SigningKey.verify c.publicKey payload signature

def tokenHash (c : DecryptedCertificate) (token : Bytes) : Bytes := Material.tokenHash c.secretKey token

/-- The first certificate of a list that the key opens. -/
def search (key : EncryptedMetadataKey) : List PublicCertificate → Except ClockFault (Option DecryptedCertificate)
  | [] => .ok none
  | c :: rest => do
    match ← ofPublic c key with
    | some found => .ok (some found)
    | none => search key rest

end DecryptedCertificate
end ProximityCert
