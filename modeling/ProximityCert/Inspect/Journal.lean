import ProximityCert.Inspect.Manager
import ProximityCert.Json.Printer

/-!
A journal of a manager: after each step, what was sent to the service and what has changed.
Certificates that were announced go by their ids; others are numbered in the order in which the
journal meets them, first among the stored ones and then among those that were published.
-/

namespace ProximityCert

structure Journal where
  /-- Ids of certificates that were announced. -/
  announced : List Bytes := []
  numbered : List Bytes := []
  /-- Private certificates that have been stored after some step. -/
  seen : List PrivateCertificate := []
  /-- The state as it was described last. -/
  state : List (String × Json) := []
  tasks : List (String × Json) := []
  /-- Requests to the service that the journal has told of. -/
  published : Nat := 0
  queried : Nat := 0
  /-- Observers that are told of. -/
  observers : Nat := 0

namespace Journal

/-- The id of a described private certificate, and the id that a description gives to a public one. -/
def idsOf (j : Json) : List Bytes :=
  let given (name : String) : Option Bytes := (j.bytesAt? name).toOption.join
  let own : Option Bytes := match given "key", given "secret_key" with
    | some _, some secretKey => some ((given "id").getD (Sha256.digest secretKey))
    | _, _ => none
  own.toList ++ (given "secret_id").toList

mutual
/-- The ids of all certificates that are described somewhere in a value. -/
def announcedIn : Json → List Bytes
  | .arr items => announcedInItems items
  | .obj members => idsOf (.obj members) ++ announcedInMembers members
  | _ => []
def announcedInItems : List Json → List Bytes
  | [] => []
  | j :: rest => announcedIn j ++ announcedInItems rest
def announcedInMembers : List (String × Json) → List Bytes
  | [] => []
  | (_, j) :: rest => announcedIn j ++ announcedInMembers rest
end

/-- Gives a certificate its number, if it needs one. -/
def meet (n : Journal) (id : Bytes) : Journal :=
  if id ∈ n.announced ∨ id ∈ n.numbered then n else { n with numbered := n.numbered ++ [id] }

def name (n : Journal) (id : Bytes) : String :=
  match n.numbered.idxOf? id with
  | some i => "new" ++ toString i
  | none => Hex.encode id

/-- Puts the names of numbered certificates into a text. -/
def rename (n : Journal) (text : String) : String :=
  n.numbered.foldl (fun text id => text.replace (Hex.encode id) (n.name id)) text

/-- Meets the certificates that are stored, and those that have been published since. -/
def observe (n : Journal) (m : Manager) : Journal :=
  let stored := (m.store.getPrivate.toOption).getD []
  let fresh := (m.service.published.drop n.published).flatMap fun p => p.certificates.map PublicCertificate.secretId
  let n := { n with seen := stored.reverse ++ n.seen.filter fun c => stored.all fun s => s.id ≠ c.id }
  (stored.map PrivateCertificate.id ++ fresh).foldl meet n

/-- Name, visibility, window, and the number of used salts. -/
def brief (n : Journal) (c : PrivateCertificate) : Json :=
  .arr [.str (n.name c.id), c.visibility.describe, .time c.notBefore, .time c.notAfter, .ofNat c.consumedSalts.size]

/-- How far the window of a published certificate may reach beyond the private one; a bound may be
off by a second, to which it is rounded. -/
def withinBounds (c : PrivateCertificate) (p : PublicCertificate) : Reading Bool := do
  let start ← (p.startTime.getD {}).toInstant
  let stop ← (p.endTime.getD {}).toInstant
  let second : Int := 1000000000
  let widest : Int := PrivateCertificate.maxBoundOffset
  return start ≤ c.notBefore && decide (c.notBefore.nanos < start.nanos + widest + second) &&
    decide (c.notAfter.nanos < stop.nanos + second) && decide (stop.nanos < c.notAfter.nanos + widest)

/-- What the key of a certificate opens in its published form. -/
def opened (c : PrivateCertificate) (p : PublicCertificate) : Reading (Option Metadata) := do
  let key ← Material.applyKeyCipher c.secretKey [0, 0] c.metadataKey
  return (← DecryptedCertificate.ofPublic p ⟨[0, 0], key⟩).map DecryptedCertificate.metadata

/-- A published certificate beside the private one it comes from, as far as that has been seen. -/
def projection (n : Journal) (p : PublicCertificate) : Reading Json := do
  let own := n.seen.find? fun c => c.id = p.secretId
  let bounds ← own.mapM fun c => withinBounds c p
  let metadata ← own.mapM fun c => opened c p
  return .ofMembers [("id", .str (n.name p.secretId)), ("bounds", .ofOption .bool bounds),
    ("opens", .ofOption Metadata.describe (metadata.getD none)), ("selected", .bool p.forSelectedContacts),
    ("self_share", .bool p.forSelfShare)]

def projections (n : Journal) (ps : List PublicCertificate) : Reading Json := return .arr (← ps.mapM n.projection)

/-- The first stored certificate with some property, if there is one. -/
def nameOf (n : Journal) (m : Manager) (p : PrivateCertificate → Bool) : Json :=
  .ofOption (fun c => .str (n.name c.id)) (((m.store.getPrivate.toOption).getD []).find? p)

/-- Something made with a stored certificate; it is shown if the certificate was announced. -/
def madeBy (n : Journal) (m : Manager) (label : String) (made : Bytes) (p : PrivateCertificate → Bool) : Json :=
  let own := ((m.store.getPrivate.toOption).getD []).find? p
  .ofMembers [("by", .ofOption (fun c => .str (n.name c.id)) own),
    (label, if own.any fun c => c.id ∈ n.numbered then .null else .hex made)]

/-- The progress of a task: what was recorded of it, or what is stored. -/
def describeTask (m : Manager) (kind : TaskKind) : Json :=
  match m.tasks.get kind with
  | .recorded t => .ofMembers t.describeMembers
  | .scheduled _ => (m.store.preferences.find? kind.key).getD .null

/-- The state of a manager, by parts; a list that cannot be read is the kind of its failure. -/
def describe (n : Journal) (l : ManagerLoop) : Reading (List (String × Json)) := do
  let m := l.manager
  let privates : Json := match m.store.getPrivate with
    | .ok certificates => .ofList n.brief certificates
    | .error f => .str f.kind
  return [("running", .bool m.running), ("private", privates), ("public", .ofList (fun id => .str (n.name id)) m.store.publicIds),
    ("init", .str m.store.openState.name), ("observers", m.observers.describe n.observers),
    ("now", .time (← l.timeline.moment).now)]

/-- Those members that are not among the earlier ones. -/
def changes (earlier later : List (String × Json)) : List (String × Json) :=
  later.filter fun (name, v) => !(Json.member? name earlier).any fun w => Json.compact w == Json.compact v

/-- The entry of a step: its result, the requests it made, and what it changed. -/
def entry (n : Journal) (l : ManagerLoop) (result : Json) : Reading (Json × Journal) := do
  let m := l.manager
  let n := m.store.publicIds.foldl meet n
  let published ← (m.service.published.drop n.published).mapM fun p => do
    return Json.ofMembers [("name", .str p.name), ("force", .bool p.forceUpdateContacts), ("certs", ← n.projections p.certificates)]
  let queried := (m.service.queried.drop n.queried).map CredentialsRequest.brief
  let state ← n.describe l
  let tasks := TaskKind.all.map fun kind => (kind.label, describeTask m kind)
  let list (name : String) (items : List Json) : List (String × Json) := if items.isEmpty then [] else [(name, .arr items)]
  let changed := changes n.tasks tasks
  let members := [("r", result)] ++ list "publishes" published ++ list "queries" queried ++ changes n.state state ++
    (if changed.isEmpty then [] else [("tasks", .ofMembers changed)])
  return (.ofMembers members,
    { n with state, tasks, published := m.service.published.length, queried := m.service.queried.length })

end Journal
end ProximityCert
