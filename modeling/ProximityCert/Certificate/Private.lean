import ProximityCert.Certificate.Material
import ProximityCert.Clock.Validity
import ProximityCert.Entropy
import ProximityCert.SigningKey
import ProximityCert.SortedMap
import ProximityCert.Visibility
import ProximityCert.Wire.Metadata
import ProximityCert.Wire.PublicCertificate

/-!
Certificates of the device itself. A certificate owns a signing key, a secret key and a metadata
key, is valid for a fixed period, and remembers the salts it has used; its public form is what
contacts download.
-/

namespace ProximityCert

/-- A salt is two octets, ordered as a big-endian number. -/
abbrev Salt := UInt16

namespace Salt

def bytes (s : Salt) : Bytes := Bytes.ofNat Material.saltLength s.toNat

def ofBytes (bs : Bytes) : Salt := UInt16.ofNat (Bytes.toNat bs)

end Salt

/-- A metadata key as a device broadcasts it. -/
structure EncryptedMetadataKey where
  salt : Bytes
  encryptedKey : Bytes
  deriving DecidableEq

structure PrivateCertificate where
  visibility : Visibility
  notBefore : Instant
  notAfter : Instant
  signingKey : SigningKey
  secretKey : Bytes
  metadataKey : Bytes
  id : Bytes
  metadata : Metadata
  consumedSalts : SortedSet Salt
  secretKey_length : secretKey.length = Material.secretKeyLength
  metadataKey_length : metadataKey.length = Material.metadataKeyLength
  deriving DecidableEq

namespace PrivateCertificate

/-- How long a certificate is valid. -/
def validityPeriod : Duration := Duration.ofHours 72

/-- The bound of the random shifts of published bounds. -/
def maxBoundOffset : Duration := Duration.ofHours 2

/-- Half of the possible salts. -/
def maxSalts : Nat := 32768

/-- Salts drawn before a request for an unused one is given up. -/
def maxSaltDraws : Nat := 128

/-- Octets behind a drawn signing key. -/
def keySeedLength : Nat := 48

/-- A certificate with fresh keys. -/
def fresh (visibility : Visibility) (notBefore : Instant) (metadata : Metadata) (e : Entropy) :
    Except ClockFault (PrivateCertificate × Entropy) :=
  (notBefore.plus validityPeriod).map fun notAfter =>
    let secret := e.bytes Material.secretKeyLength
    let seed := secret.2.bytes keySeedLength
    let key := seed.2.bytes Material.metadataKeyLength
    ({ visibility, notBefore, notAfter, metadata
       signingKey := .ofSeed (Bytes.toNat seed.1)
       secretKey := secret.1
       metadataKey := key.1
       id := Sha256.digest secret.1
       consumedSalts := .empty
       secretKey_length := Entropy.length_bytes _ _
       metadataKey_length := Entropy.length_bytes _ _ }, key.2)

/-- The first drawn salt that is not among the used ones. -/
def drawSalt (consumed : SortedSet Salt) : (draws : Nat) → Entropy → Option Salt × Entropy
  | 0, e => (none, e)
  | draws + 1, e =>
    let (drawn, e) := e.bytes Material.saltLength
    if consumed.contains (Salt.ofBytes drawn) then drawSalt consumed draws e else (some (Salt.ofBytes drawn), e)

/-- The metadata key under a salt never used before, which is then used; none once half of all
salts are used or no unused one is drawn. -/
def encryptMetadataKey (c : PrivateCertificate) (e : Entropy) :
    Option EncryptedMetadataKey × PrivateCertificate × Entropy :=
  if maxSalts ≤ c.consumedSalts.size then (none, c, e)
  else
    match drawSalt c.consumedSalts maxSaltDraws e with
    | (none, e) => (none, c, e)
    | (some salt, e) =>
      let used := { c with consumedSalts := SortedSet.add c.consumedSalts salt }
      match Material.applyKeyCipher c.secretKey salt.bytes c.metadataKey with
      | .ok encryptedKey => (some ⟨salt.bytes, encryptedKey⟩, used, e)
      | .error _ => (none, used, e)

def sign (c : PrivateCertificate) (payload : Bytes) : Option Bytes := c.signingKey.sign payload

def tokenHash (c : PrivateCertificate) (token : Bytes) : Bytes := Material.tokenHash c.secretKey token

/-- The public form, with its window opened earlier and closed later by the given spans. A window
that cannot open so early opens at the epoch. -/
def toPublic (c : PrivateCertificate) (before after : Duration) : Except ClockFault (Option PublicCertificate) :=
  match Material.sealMetadata c.metadataKey c.secretKey (Message.encode c.metadata) with
  | .error _ => .ok none
  | .ok encryptedMetadata =>
    (c.notAfter.plus after).map fun stop => some
      { secretId := c.id
        secretKey := c.secretKey
        publicKey := c.signingKey.publicDer
        startTime := some (.ofInstant ((c.notBefore.minus? before).getD Instant.epoch))
        endTime := some (.ofInstant stop)
        forSelectedContacts := c.visibility = .selectedContacts
        metadataKey := c.metadataKey
        encryptedMetadata
        metadataKeyTag := Material.keyTag c.metadataKey
        forSelfShare := c.visibility = .selfShare }

/-- The public form with both bounds shifted at random. -/
def toPublicJittered (c : PrivateCertificate) (e : Entropy) :
    Except ClockFault (Option PublicCertificate) × Entropy :=
  let (before, e) := e.below maxBoundOffset
  let (after, e) := e.below maxBoundOffset
  (c.toPublic before after, e)

end PrivateCertificate
end ProximityCert
