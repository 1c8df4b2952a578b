import ProximityCert.Curve.Ecdsa
import ProximityCert.Der

/-!
The key pair that a certificate signs with: a scalar in range, from which the public key follows.
Private keys are kept as PKCS#8, public keys as SubjectPublicKeyInfo, signatures as a DER pair.
-/

namespace ProximityCert

open P256 Der

structure SigningKey where
  scalar : Nat
  positive : 0 < scalar
  below : scalar < P256.order
  deriving DecidableEq

namespace SigningKey

/-- The identifiers of elliptic-curve keys and of the curve, as one algorithm element's content. -/
def algorithm : Bytes :=
  (Element.mk Tag.objectIdentifier [0x2a, 0x86, 0x48, 0xce, 0x3d, 0x02, 0x01]).bytes ++
    (Element.mk Tag.objectIdentifier [0x2a, 0x86, 0x48, 0xce, 0x3d, 0x03, 0x01, 0x07]).bytes

/-- A key from a number, if it is in range. -/
def ofNat? (n : Nat) : Option SigningKey := if h : 0 < n ∧ n < order then some ⟨n, h.1, h.2⟩ else none

/-- Every number gives a key; numbers below the group order minus one give different ones. -/
def ofSeed (n : Nat) : SigningKey :=
  ⟨n % (order - 1) + 1, by omega, by
    have := Nat.mod_lt n (show 0 < order - 1 by decide)
    omega⟩

/-- The fewest octets that a stored scalar may have; missing high octets are zero. -/
def minOctets : Nat := 24

def ofOctets? (octets : Bytes) : Option SigningKey :=
  if minOctets ≤ octets.length ∧ octets.length ≤ 32 then ofNat? (Bytes.toNat octets) else none

def publicPoint (k : SigningKey) : Affine := ((scalarMultiple k.scalar generator).toAffine?).getD ⟨0, 0⟩

def privateDer (k : SigningKey) : Bytes :=
  let inner := (Element.mk Tag.integer [1]).bytes ++
    (Element.mk Tag.octetString (Bytes.ofNat 32 k.scalar)).bytes ++
    (Element.mk (Tag.context 1) (Element.mk Tag.bitString (0 :: k.publicPoint.uncompressed)).bytes).bytes
  (Element.mk Tag.sequence
    ((Element.mk Tag.integer [0]).bytes ++ (Element.mk Tag.sequence algorithm).bytes ++
      (Element.mk Tag.octetString (Element.mk Tag.sequence inner).bytes).bytes)).bytes

/-- Whether the bytes are further extension fields: constructed context elements around one element. -/
def areExtensions : (fuel : Nat) → Bytes → Bool
  | _, [] => true
  | 0, _ => false
  | fuel + 1, bs =>
    match readElement bs with
    | none => false
    | some (e, rest) =>
      Tag.isContext e.tag && e.tag.toNat / 32 % 2 == 1 &&
        (match readElement e.content with
        | some (_, []) => areExtensions fuel rest
        | _ => false)

/-- A stored public key, if present, must be the point of the scalar in either form. -/
def accepts (k : SigningKey) : Option Bytes → Bool
  | none => true
  | some point => point = k.publicPoint.uncompressed || point = k.publicPoint.compressed

/-- Reads the inner key structure: version one, a scalar, optional curve parameters whose identifier
is not compared, and an optional public key. -/
def ofInnerDer? (der : Bytes) : Option SigningKey := do
  let body ← only Tag.sequence der
  let (version, rest) ← readTagged Tag.integer body
  if version ≠ [1] then none
  let (octets, rest) ← readTagged Tag.octetString rest
  let (parameters, rest) ← readContext 0 (Tag.context 0) (rest.length + 1) rest
  if let some content := parameters then
    let curve ← only Tag.objectIdentifier content
    if !isObjectIdentifier curve then none
  let (point, rest) ← readContext 1 (Tag.context 1) (rest.length + 1) rest
  let bits ← match point with
    | none => some none
    | some content => ((only Tag.bitString content).bind bitStringBytes).map some
  if !rest.isEmpty then none
  let key ← ofOctets? octets
  if key.accepts bits then some key else none

/-- Reads a private key. Version zero has no outer public key and version one has one; its content
is not compared. -/
def ofPrivateDer? (der : Bytes) : Option SigningKey := do
  let body ← only Tag.sequence der
  let (version, rest) ← readTagged Tag.integer body
  let (identifiers, rest) ← readTagged Tag.sequence rest
  let (inner, rest) ← readTagged Tag.octetString rest
  let (outer, rest) ← readContext 1 0x81 (rest.length + 1) rest
  let hasPublicKey ← match outer with
    | none => some false
    | some content => (bitStringBytes content).map fun _ => true
  if version ≠ (if hasPublicKey then [1] else [0]) then none
  if !areExtensions (rest.length + 1) rest then none
  if identifiers ≠ algorithm then none
  ofInnerDer? inner

def publicDer (k : SigningKey) : Bytes :=
  (Element.mk Tag.sequence ((Element.mk Tag.sequence algorithm).bytes ++
    (Element.mk Tag.bitString (0 :: k.publicPoint.uncompressed)).bytes)).bytes

/-- Reads a public key in any form of its point. -/
def pointOfDer? (der : Bytes) : Option Affine := do
  let body ← only Tag.sequence der
  let (identifiers, rest) ← readTagged Tag.sequence body
  let bits ← only Tag.bitString rest
  if identifiers ≠ algorithm then none
  Affine.ofBytes? (← bitStringBytes bits)

end SigningKey

namespace Ecdsa.Signature

def der (g : Signature) : Bytes :=
  (Element.mk Tag.sequence ((Element.mk Tag.integer (naturalContent (Bytes.ofNat 32 g.r))).bytes ++
    (Element.mk Tag.integer (naturalContent (Bytes.ofNat 32 g.s))).bytes)).bytes

/-- Reads a pair of scalars in range; both halves of the range of `s` are taken. -/
def ofDer? (der : Bytes) : Option Signature := do
  let body ← only Tag.sequence der
  let (r, rest) ← readTagged Tag.integer body
  let r ← naturalOctets r
  let s ← (only Tag.integer rest).bind naturalOctets
  let g : Signature := ⟨Bytes.toNat r, Bytes.toNat s⟩
  if g.InRange then some g else none

end Ecdsa.Signature

namespace SigningKey

/-- The signature of a payload, `none` if signing fails. -/
def sign (k : SigningKey) (payload : Bytes) : Option Bytes :=
  (Ecdsa.sign k.scalar payload).map Ecdsa.Signature.der

/-- Whether a signature of a payload verifies with a public key; malformed input does not. -/
def verify (publicKey payload signature : Bytes) : Bool :=
  match pointOfDer? publicKey, Ecdsa.Signature.ofDer? signature with
  | some point, some g => Ecdsa.verify point payload g
  | _, _ => false

end SigningKey
end ProximityCert
