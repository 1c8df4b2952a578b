import ProximityCert.Manager.Identity

/-!
Renewing the private certificates. What has expired is dropped, and each visibility is filled up
with new certificates, whose windows follow upon the last one that is left.
-/

namespace ProximityCert

/-- How many certificates a visibility has, and where the next window begins. -/
structure Slot where
  visibility : Visibility
  count : Nat
  opensAt : Instant
  deriving DecidableEq

namespace Slot

/-- The slot of a visibility among stored certificates: the next window opens at the latest end, but not before
`now`. -/
def of (v : Visibility) (now : Instant) (certificates : List PrivateCertificate) : Slot :=
  let own := certificates.filter fun c => c.visibility = v
  ⟨v, own.length, own.foldl (fun t c => if t ≤ c.notAfter then c.notAfter else t) now⟩

/-- A chain of new certificates, each opening where the one before it ends. -/
def chain (v : Visibility) (metadata : Metadata) : Nat → Instant → Entropy → Except ClockFault (List PrivateCertificate × Entropy)
  | 0, _, e => .ok ([], e)
  | n + 1, opensAt, e => do
    let (c, e) ← PrivateCertificate.fresh v opensAt metadata e
    let (rest, e) ← chain v metadata n c.notAfter e
    return (c :: rest, e)

/-- The certificates that a visibility lacks. -/
def fill (metadata : Metadata) (slot : Slot) (e : Entropy) : Except ClockFault (List PrivateCertificate × Entropy) :=
  chain slot.visibility metadata (Manager.certificatesPerVisibility - slot.count) slot.opensAt e

def fillAll (metadata : Metadata) : List Slot → Entropy → Except ClockFault (List PrivateCertificate × Entropy)
  | [], e => .ok ([], e)
  | slot :: rest, e => do
    let (new, e) ← slot.fill metadata e
    let (later, e) ← fillAll metadata rest e
    return (new ++ later, e)

end Slot

namespace Manager

/-- Renews the private certificates, and asks for an upload of new ones if told to. As many as there
should be, and nothing is done; without metadata nothing can be. The preferences take what is stored, so
that neither dropping nor storing certificates fails for a refused write. -/
def refresh (m : Manager) (requestUpload : Bool) (now : Moment) : Except Interrupted (Bool × Manager) := do
  let m := { m with store := (m.store.removeExpiredPrivate now.now).2 }
  let (stored, m) ← m.loadPrivate now
  let certificates := stored.getD []
  if certificates.length = certificateCount then return (true, m)
  match m.device.metadata? m.account with
  | none => return (false, m)
  | some metadata =>
    let slots := Visibility.generated.map fun v => Slot.of v now.now certificates
    let (new, entropy) ← m.attempt (Slot.fillAll metadata slots m.entropy)
    let m := { m with entropy, store := m.store.replacePrivate (certificates ++ new) }
    let m := m.notify .privateChanged
    let m ← if requestUpload then m.act .upload .requestNow now else pure m
    return (true, m)

/-- Publishes the public forms of all private certificates; tells whether contacts were removed, or
nothing if it failed. -/
def publish (m : Manager) (force : Bool) (now : Moment) : Except Interrupted (Option Bool × Manager) := do
  let (stored, m) ← m.loadPrivate now
  match stored with
  | none => return (none, m)
  | some certificates =>
    let (published, entropy) ← m.attempt (publicForms certificates m.entropy)
    let request : PublishRequest :=
      { name := m.config.resourceName m.device.id, certificates := published, forceUpdateContacts := force }
    let (answer, service) := m.service.publish request
    return (answer.toOption.map PublishResponse.contactsRemoved, { m with entropy, service })

/-- Publishes the certificates. If contacts were removed, all are made anew and published again, so
that those contacts know none of them. -/
def upload (m : Manager) (now : Moment) : Except Interrupted (Bool × Manager) := do
  if m.account.isNone then return (true, m)
  match ← m.publish false now with
  | (none, m) => return (false, m)
  | (some false, m) => return (true, m)
  | (some true, m) =>
    let (refreshed, m) ← m.clearPrivate.refresh false now
    let m ← m.act .refresh (.handleResult refreshed) now
    if refreshed then
      let (removed, m) ← m.publish true now
      return (removed.isSome, m)
    else return (false, m)

end Manager
end ProximityCert
