import ProximityCert.Certificate.Record
import ProximityCert.Storage.Database
import ProximityCert.Storage.Expirations

/-!
The store of certificates. Private certificates are a list of records among the preferences; public
ones are rows of a database, which is opened by the first operation that needs it, with an index of
end times beside them. An operation that fails may still have changed the store. It is the database that
can fail: the preferences are in memory and take every write.
-/

namespace ProximityCert

inductive OpenState | uninitialized | initialized | failed
  deriving DecidableEq

def OpenState.name : OpenState → String
  | uninitialized => "Uninitialized" | initialized => "Initialized" | failed => "Failed"

structure Store where
  preferences : Preferences := .empty
  database : Database
  openState : OpenState := .uninitialized
  /-- Attempts to open the database before it counts as failed. -/
  maxAttempts : Nat := 3
  expirations : Expirations := []

namespace Store

def privateKey : String := "sharing.certificates.private_certificates"
def expirationsKey : String := "sharing.certificates.public_certificate_expirations"

/-- A new store over preferences and a database; the index is read at once. -/
def create (preferences : Preferences) (database : Database) (maxAttempts : Nat) : Store :=
  { preferences, database, maxAttempts, expirations := .ofJson (preferences.find? expirationsKey) }

def openFault : Failure := .storage "public certificate database failed to initialize"

/-- Sets the index and stores it. The preferences take the write, as those in memory always do; over
`FilePreferences` it could fail, and the operation with it. -/
def setExpirations (s : Store) (es : Expirations) : Store :=
  { s with expirations := es, preferences := s.preferences.insert expirationsKey es.toJson }

/-- One attempt to open the database, and the verdict if it comes to one. A corrupt database is erased
together with the index; a failure to erase it is final. -/
def attemptOpen (s : Store) : Option (Except Failure Unit) × Store :=
  match s.database.openUp with
  | (.ok, database) => (some (.ok ()), { s with database, openState := .initialized })
  | (.error, database) => (none, { s with database })
  | (.corrupt, database) =>
    match database.destroy with
    | (.error f, database) => (some (.error f), { s with database, openState := .failed })
    | (.ok (), database) => (none, ({ s with database }).setExpirations [])

/-- Tries to open the database, at most `attempts` more times, and counts the attempts. Others may use the
database as well; what they do to it before each attempt is `meanwhile`. -/
def openMeanwhile : (meanwhile : Nat → Store → Store) → (attempts : Nat) → Store →
    (Except Failure Unit × Store) × Nat
  | _, 0, s => ((.error openFault, { s with openState := .failed }), 0)
  | meanwhile, attempts + 1, s =>
    match (meanwhile 0 s).attemptOpen with
    | (some r, s) => ((r, s), 1)
    | (none, s) =>
      let (outcome, calls) := openMeanwhile (fun i => meanwhile (i + 1)) attempts s
      (outcome, calls + 1)

/-- Tries to open a database that nobody else uses. -/
def openWithin (attempts : Nat) (s : Store) : Except Failure Unit × Store :=
  (openMeanwhile (fun _ s => s) attempts s).1

/-- Opens the database if that has not been settled before, with what others do to it meanwhile; gives the
number of attempts as well. -/
def ensureOpenMeanwhile (meanwhile : Nat → Store → Store) (s : Store) :
    (Except Failure Unit × Store) × Nat :=
  match s.openState with
  | .initialized => ((.ok (), s), 0)
  | .failed => ((.error openFault, s), 0)
  | .uninitialized => openMeanwhile meanwhile s.maxAttempts s

/-- Opens the database, which nobody else uses, if that has not been settled before. -/
def ensureOpen (s : Store) : Except Failure Unit × Store := (s.ensureOpenMeanwhile fun _ s => s).1

/-! Private certificates. -/

/-- The stored records; nothing stored, or a null, is the empty list. -/
def records (s : Store) : Except Failure (List CertificateRecord) :=
  match s.preferences.find? privateKey with
  | none | some .null => .ok []
  | some j => Failure.malformedJson.ifAbsent (j.array?.bind fun items => items.mapM CertificateRecord.ofJson?)

/-- All private certificates; one bad record makes the list unreadable. -/
def getPrivate (s : Store) : Except Failure (List PrivateCertificate) := s.records.bind CertificateRecord.loadAll

/-- Stores private certificates in the place of all others. As for the index, the write is one that the
preferences take. -/
def replacePrivate (s : Store) (certificates : List PrivateCertificate) : Store :=
  let stored := Json.arr (certificates.map fun c => (CertificateRecord.ofCertificate c).toJson)
  { s with preferences := s.preferences.insert privateKey stored }

/-- The list with its first certificate of the same id replaced, if there is one. -/
def replaceFirst (c : PrivateCertificate) : List PrivateCertificate → Option (List PrivateCertificate)
  | [] => none
  | x :: rest => if x.id = c.id then some (c :: rest) else (replaceFirst c rest).map (x :: ·)

/-- Overwrites the certificate of the same id; without one nothing is written. -/
def updatePrivate (s : Store) (c : PrivateCertificate) : Except Failure Unit × Store :=
  match s.getPrivate with
  | .error f => (.error f, s)
  | .ok stored =>
    match replaceFirst c stored with
    | some stored => (.ok (), s.replacePrivate stored)
    | none => (.ok (), s)

/-- Keeps the private certificates that satisfy a test. -/
def retainPrivate (s : Store) (keep : PrivateCertificate → Bool) : Except Failure Unit × Store :=
  match s.getPrivate with
  | .error f => (.error f, s)
  | .ok stored => (.ok (), s.replacePrivate (stored.filter keep))

/-- Private certificates expire without tolerance. -/
def removeExpiredPrivate (s : Store) (now : Instant) : Except Failure Unit × Store :=
  s.retainPrivate fun c => decide (now < c.notAfter)

/-- Removes the private certificates; the preferences take this change as well. -/
def clearPrivate (s : Store) : Store := { s with preferences := s.preferences.erase privateKey }

def clearPrivateOf (s : Store) (v : Visibility) : Except Failure Unit × Store := s.retainPrivate fun c => c.visibility ≠ v

/-- The earlier of two instants. -/
def earlier (a b : Instant) : Instant := if b < a then b else a

/-- The earliest end of a private certificate, if they can be read. -/
def nextPrivateEnd (s : Store) : Option Instant :=
  match s.getPrivate with
  | .ok (c :: rest) => some (rest.foldl (fun t c => earlier t c.notAfter) c.notAfter)
  | _ => none

/-! Public certificates. -/

/-- The ids of the index, the first to expire first. -/
def publicIds (s : Store) : List Bytes := s.expirations.map (·.1)

/-- The earliest end of a public certificate, without tolerance. -/
def nextPublicEnd (s : Store) : Option Instant := s.expirations.head?.map (·.2)

def getPublic (s : Store) : Except Failure (List PublicCertificate) × Store :=
  match s.ensureOpen with
  | (.error f, s) => (.error f, s)
  | (.ok (), s) => (s.database.load, s)

/-- Adds certificates over those of the same id. -/
def addPublic (s : Store) (certificates : List PublicCertificate) : Except ClockFault (Except Failure Unit × Store) :=
  match s.ensureOpen with
  | (.error f, s) => .ok (.error f, s)
  | (.ok (), s) => do
    let new ← Expirations.ofCertificates certificates
    match s.database.add certificates with
    | (.error f, database) => .ok (.error f, { s with database })
    | (.ok (), database) => .ok (.ok (), ({ s with database }).setExpirations (s.expirations.merge new))

/-- Puts certificates in the place of all others. -/
def replacePublic (s : Store) (certificates : List PublicCertificate) : Except ClockFault (Except Failure Unit × Store) :=
  match s.ensureOpen with
  | (.error f, s) => .ok (.error f, s)
  | (.ok (), s) => do
    let new := (← Expirations.ofCertificates certificates).sort
    match s.database.clear with
    | (.error f, database) => .ok (.error f, { s with database })
    | (.ok (), database) =>
      let s := ({ s with database }).setExpirations []
      match s.database.add certificates with
      | (.error f, database) => .ok (.error f, { s with database })
      | (.ok (), database) => .ok (.ok (), ({ s with database }).setExpirations new)

/-- Removes what the index shows to have expired with tolerance; nothing is written if nothing has. -/
def removeExpiredPublic (s : Store) (now : Instant) : Except ClockFault (Except Failure Unit × Store) :=
  match s.ensureOpen with
  | (.error f, s) => .ok (.error f, s)
  | (.ok (), s) => do
    let ids := (← s.expirations.takeExpired now).map (·.1)
    if ids.isEmpty then .ok (.ok (), s)
    else
      match s.database.remove ids with
      | (.error f, database) => .ok (.error f, { s with database })
      | (.ok (), database) =>
        .ok (.ok (), ({ s with database }).setExpirations (s.expirations.filter fun e => !ids.contains e.1))

def clearPublic (s : Store) : Except Failure Unit × Store :=
  match s.ensureOpen with
  | (.error f, s) => (.error f, s)
  | (.ok (), s) =>
    match s.database.clear with
    | (.error f, database) => (.error f, { s with database })
    | (.ok (), database) => (.ok (), ({ s with database }).setExpirations [])

/-- A new store on the same preferences and data. -/
def reopened (s : Store) : Store := create s.preferences s.database.reopened s.maxAttempts

end Store
end ProximityCert
