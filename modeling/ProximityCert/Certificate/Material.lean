import ProximityCert.Cipher.Counter
import ProximityCert.Failure
import ProximityCert.Hash.Hmac

/-!
The secrets of a certificate and what is made of them: the enciphered metadata key that a device
broadcasts, the sealed metadata, the tag that tells a right key from noise, and the token hash.
-/

namespace ProximityCert.Material

def secretKeyLength : Nat := 32
def idLength : Nat := 32
def metadataKeyLength : Nat := 14
def saltLength : Nat := 2
def keyTagLength : Nat := 32
def tokenHashLength : Nat := 6
def macLength : Nat := 6

/-- A key of the given length from a short secret. -/
def deriveKey (secret : Bytes) (length : Nat) : Except Failure Bytes :=
  Failure.derivedKeyTooLong.ifAbsent (Hkdf.expand (Hkdf.extract (List.replicate 32 0) secret) length)

/-- The hash of a shared token under a certificate's secret key. -/
def tokenHash (secretKey token : Bytes) : Bytes :=
  (Hkdf.blocks (Hkdf.extract secretKey token) 1 [] 1).take tokenHashLength

/-- Enciphers a metadata key under a salt; the same call deciphers it. -/
def applyKeyCipher (secretKey salt data : Bytes) : Except Failure Bytes := do
  let iv ← deriveKey salt CounterMode.ivLength
  if secretKey.length = CounterMode.keyLength then .ok (CounterMode.apply secretKey iv data)
  else .error Failure.cipherKeyLength

def sealMetadata (metadataKey secretKey plaintext : Bytes) : Except Failure Bytes := do
  let key ← deriveKey metadataKey Gcm.keyLength
  let nonce ← deriveKey secretKey Gcm.nonceLength
  Failure.messageTooLong.ifAbsent (Gcm.encrypt key nonce plaintext)

def openMetadata (metadataKey secretKey ciphertext : Bytes) : Except Failure Bytes := do
  let key ← deriveKey metadataKey Gcm.keyLength
  let nonce ← deriveKey secretKey Gcm.nonceLength
  Failure.notAuthentic.ifAbsent (Gcm.decrypt key nonce ciphertext)

/-- The tag of a metadata key, made with a key of zeros. -/
def keyTag (metadataKey : Bytes) : Bytes := Hmac.tag (List.replicate keyTagLength 0) metadataKey

def keyTagMatches (metadataKey tag : Bytes) : Bool := keyTag metadataKey = tag

@[simp] theorem length_tokenHash (secretKey token : Bytes) : (tokenHash secretKey token).length = tokenHashLength := by
  simp [tokenHash, tokenHashLength]

@[simp] theorem length_keyTag (metadataKey : Bytes) : (keyTag metadataKey).length = keyTagLength := by
  simp [keyTag, keyTagLength]

end ProximityCert.Material
