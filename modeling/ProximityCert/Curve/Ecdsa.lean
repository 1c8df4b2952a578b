import ProximityCert.Curve.P256
import ProximityCert.Hash.Hmac

/-!
ECDSA over P-256 with SHA-256. Signing is deterministic: the one-time scalar is drawn from a
generator seeded with the key and the message digest.
-/

namespace ProximityCert.Ecdsa
open P256

structure Signature where
  r : Nat
  s : Nat
  deriving DecidableEq

/-- A signature whose parts are scalars in range. -/
def Signature.InRange (g : Signature) : Prop := 0 < g.r ∧ g.r < order ∧ 0 < g.s ∧ g.s < order

instance (g : Signature) : Decidable g.InRange := by unfold Signature.InRange; infer_instance

/-- The message digest, reduced to a scalar. -/
def messageScalar (payload : Bytes) : Nat := Bytes.toNat (Sha256.digest payload) % order

/-- The state of the generator of one-time scalars. -/
structure Drawer where
  key : Bytes
  value : Bytes

namespace Drawer

/-- Mixes in what `seed` adds and, if there is any, mixes a second time. -/
def absorb (d : Drawer) (mark : UInt8) (seed : Bytes) : Drawer :=
  let key := Hmac.tag d.key (d.value ++ mark :: seed)
  ⟨key, Hmac.tag key d.value⟩

/-- Seeded with the key's scalar and the digest as it is, which may be above the order. -/
def seeded (secret : Nat) (digest : Bytes) : Drawer :=
  let seed := Bytes.ofNat 32 secret ++ digest
  ((Drawer.mk (List.replicate 32 0) (List.replicate 32 1)).absorb 0 seed).absorb 1 seed

/-- The first drawn number that is a scalar in range, among `draws` of them. -/
def draw (d : Drawer) : (draws : Nat) → Option Nat
  | 0 => none
  | draws + 1 =>
    let value := Hmac.tag d.key d.value
    let k := Bytes.toNat value
    if 0 < k ∧ k < order then some k else draw ((Drawer.mk d.key value).absorb 0 []) draws

end Drawer

/-- Numbers drawn before signing gives up; each is refused with probability below 2^-32. -/
def maxDraws : Nat := 64

/-- `none` if no one-time scalar is found or a part of the signature is zero. -/
def sign (secret : Nat) (payload : Bytes) : Option Signature :=
  let z := messageScalar payload
  ((Drawer.seeded secret (Sha256.digest payload)).draw maxDraws).bind fun k =>
    (scalarMultiple k generator).toAffine?.bind fun point =>
      let r := point.x % order
      let s := inverse order k * ((z + r * secret) % order) % order
      if r = 0 ∨ s = 0 then none else some ⟨r, s⟩

def verify (key : Affine) (payload : Bytes) (g : Signature) : Bool :=
  let w := inverse order g.s
  let u := messageScalar payload * w % order
  let v := g.r * w % order
  match ((scalarMultiple u generator).add (scalarMultiple v key)).toAffine? with
  | some point => decide (g.InRange ∧ point.x % order = g.r)
  | none => false

end ProximityCert.Ecdsa
