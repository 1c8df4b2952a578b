import ProximityCert.Certificate.Decrypted
import ProximityCert.Manager.Observers
import ProximityCert.Verification.Session

/-!
A manager without store and schedule: it holds one private certificate for each visibility, valid at
all times, and a list of public ones.
-/

namespace ProximityCert

structure FixedManager where
  privates : List PrivateCertificate := []
  publics : List PublicCertificate := []
  running : Bool := false
  /-- How often a download was asked for. -/
  downloads : Nat := 0
  observers : Observers := {}

namespace FixedManager

/-- Puts a certificate in, over the one of the same visibility. -/
def setPrivate (m : FixedManager) (c : PrivateCertificate) : FixedManager :=
  { m with privates := c :: m.privates.filter fun x => x.visibility ≠ c.visibility }

def certificate? (m : FixedManager) (v : Visibility) : Option PrivateCertificate :=
  v.certificate?.bind fun v => m.privates.find? fun c => c.visibility = v

/-- The metadata key of a visibility's certificate under a fresh salt. -/
def encryptMetadataKey (m : FixedManager) (v : Visibility) (e : Entropy) :
    Option EncryptedMetadataKey × FixedManager × Entropy :=
  match m.certificate? v with
  | none => (none, m, e)
  | some c =>
    let (key, c, e) := c.encryptMetadataKey e
    (key, m.setPrivate c, e)

def sign (m : FixedManager) (v : Visibility) (payload : Bytes) : Option Bytes := (m.certificate? v).bind fun c => c.sign payload

def tokenHash (m : FixedManager) (v : Visibility) (token : Bytes) : Option Bytes :=
  (m.certificate? v).map fun c => c.tokenHash token

def credentials (m : FixedManager) : Credentials := ⟨m.sign, m.tokenHash⟩

/-- The public form of a visibility's certificate. -/
def asPublic (m : FixedManager) (v : Visibility) (e : Entropy) : Except ClockFault (List PublicCertificate) × Entropy :=
  match m.certificate? v with
  | none => (.ok [], e)
  | some c =>
    let (published, e) := c.toPublicJittered e
    (published.map Option.toList, e)

def notify (m : FixedManager) : FixedManager := { m with observers := m.observers.notify .privateChanged }

/-- Observers are told if anything has changed. -/
def notifyIf (m : FixedManager) (changed : Bool) : FixedManager := if changed then m.notify else m

def dump (m : FixedManager) : String :=
  "Fake certificate manager: " ++ toString m.privates.length ++ " private, " ++ toString m.publics.length ++ " public"

end FixedManager
end ProximityCert
