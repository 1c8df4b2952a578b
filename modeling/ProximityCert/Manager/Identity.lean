import ProximityCert.Certificate.Decrypted
import ProximityCert.Manager.Basic

/-!
The device's own certificates. Unreadable ones are wiped, and both this and a missing certificate ask
for a refresh at once.
-/

namespace ProximityCert.Manager

def requestRefresh (m : Manager) (now : Moment) : Except Interrupted Manager := m.act .refresh .requestNow now

def clearPrivate (m : Manager) : Manager := { m with store := m.store.clearPrivate }

/-- The stored certificates, none if they cannot be read. -/
def loadPrivate (m : Manager) (now : Moment) : Except Interrupted (Option (List PrivateCertificate) × Manager) :=
  match m.store.getPrivate with
  | .ok certificates => .ok (some certificates, m)
  | .error _ => (m.clearPrivate.requestRefresh now).map fun m => (none, m)

/-- The first certificate of a visibility whose window contains a time. -/
def findValid (v : Visibility) (now : Instant) : List PrivateCertificate → Except ClockFault (Option PrivateCertificate)
  | [] => .ok none
  | c :: rest => do
    if c.visibility = v then
      if ← Validity.contains now c.notBefore c.notAfter false then return some c
    findValid v now rest

/-- The certificate that serves a visibility now. -/
def getValid (m : Manager) (v : Visibility) (now : Moment) : Except Interrupted (Option PrivateCertificate × Manager) :=
  match v.certificate? with
  | none => .ok (none, m)
  | some v => do
    let (stored, m) ← m.loadPrivate now
    match stored with
    | none => return (none, m)
    | some certificates =>
      match ← m.attempt (findValid v now.now certificates) with
      | some c => return (some c, m)
      | none => return (none, ← m.requestRefresh now)

/-- The metadata key of the current certificate, whose salt is stored as used before the key is
handed out. -/
def encryptMetadataKey (m : Manager) (v : Visibility) (now : Moment) :
    Except Interrupted (Option EncryptedMetadataKey × Manager) := do
  match ← m.getValid v now with
  | (none, m) => return (none, m)
  | (some c, m) =>
    match c.encryptMetadataKey m.entropy with
    | (none, _, entropy) => return (none, { m with entropy })
    | (some key, c, entropy) =>
      match m.store.updatePrivate c with
      | (.error _, store) => return (none, { m with entropy, store })
      | (.ok (), store) => return (some key, { m with entropy, store })

def sign (m : Manager) (v : Visibility) (payload : Bytes) (now : Moment) : Except Interrupted (Option Bytes × Manager) :=
  (m.getValid v now).map fun (c, m) => (c.bind fun c => c.sign payload, m)

def tokenHash (m : Manager) (v : Visibility) (token : Bytes) (now : Moment) : Except Interrupted (Option Bytes × Manager) :=
  (m.getValid v now).map fun (c, m) => (c.map fun c => c.tokenHash token, m)

/-- The public forms of certificates, with bounds shifted at random; those that have none are left
out. -/
def publicForms : List PrivateCertificate → Entropy → Except ClockFault (List PublicCertificate × Entropy)
  | [], e => .ok ([], e)
  | c :: rest, e => do
    let (published, e) := c.toPublicJittered e
    let head ← published
    let (tail, e) ← publicForms rest e
    return (head.toList ++ tail, e)

/-- The public forms of a visibility's certificates. -/
def asPublic (m : Manager) (v : Visibility) (now : Moment) : Except Interrupted (List PublicCertificate × Manager) :=
  match v.certificate? with
  | none => .ok ([], m)
  | some v => do
    let (stored, m) ← m.loadPrivate now
    let (published, entropy) ← m.attempt (publicForms ((stored.getD []).filter fun c => c.visibility = v) m.entropy)
    return (published, { m with entropy })

end ProximityCert.Manager
