import ProximityCert.Manager.Basic
import ProximityCert.Certificate.Decrypted

/-!
The certificates of contacts: downloading them, opening them, and removing those that expired. If end
times leave the range of the clock, the store has been opened by then and is otherwise as it was.
-/

namespace ProximityCert.Manager

/-- The manager after its store has been opened. -/
def opened (m : Manager) : Manager := { m with store := m.store.ensureOpen.2 }

/-- Downloads all certificates and adds them to the store, or adds nothing if any page fails. -/
def download (m : Manager) (now : Moment) : Except Interrupted (Bool × Manager) := do
  if m.account.isNone then return (true, m)
  let (credentials, service) := m.service.queryAll (m.config.resourceName m.device.id)
  let m := { m with service }
  match credentials with
  | .error _ => return (false, m)
  | .ok credentials =>
    match ← m.opened.attempt (m.store.addPublic (credentials.filterMap SharedCredential.certificate?)) with
    | (.error _, store) => return (false, { m with store })
    | (.ok (), store) =>
      let m := { m with store }.notify .publicDownloaded
      return (true, ← m.act .cleanup .reschedule now)

def removeExpired (m : Manager) (now : Moment) : Except Interrupted (Bool × Manager) :=
  (m.opened.attempt (m.store.removeExpiredPublic now.now)).map fun (r, store) => (r.isOk, { m with store })

def clearPublic (m : Manager) (now : Moment) : Except Interrupted (Bool × Manager) :=
  let (r, store) := m.store.clearPublic
  ({ m with store }.act .cleanup .reschedule now).map fun m => (r.isOk, m)

/-- The stored certificate that an advertised key opens. -/
def openPublic (m : Manager) (key : EncryptedMetadataKey) : Except Interrupted (Option DecryptedCertificate × Manager) :=
  match m.store.getPublic with
  | (.error _, store) => .ok (none, { m with store })
  | (.ok certificates, store) =>
    (m.opened.attempt (DecryptedCertificate.search key certificates)).map fun found => (found, { m with store })

end ProximityCert.Manager
