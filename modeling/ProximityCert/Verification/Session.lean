import ProximityCert.Certificate.Decrypted
import ProximityCert.Entropy
import ProximityCert.Verification.Verdict
import ProximityCert.Visibility

/-!
The checks of a paired-key verification. Each device proves that it holds the certificate the other
expects: it signs the shared token behind the mark of its role, and sends the token's hash under the
secret of the peer's certificate. It recognises itself in the hash it is sent, and verifies the
peer's signature with the peer's certificate.
-/

namespace ProximityCert

/-- The two roles in a share; each signs behind its own mark, so neither can be answered with its
own signature. -/
inductive Role | sender | receiver
  deriving DecidableEq

namespace Role

def mark : Role → UInt8 | sender => 1 | receiver => 2
def opposite : Role → Role | sender => receiver | receiver => sender

end Role

/-- The peer as the sharing layer sees it. -/
structure ShareTarget where
  id : Int64 := 0
  deviceName : String := ""
  /-- Whether this device receives the share. -/
  isIncoming : Bool
  /-- Whether the peer's certificate resolved to a contact. -/
  isKnown : Bool
  deriving DecidableEq

/-- The visibility, the one before it, and when it changed. -/
structure VisibilitySettings where
  current : Visibility
  previous : Visibility
  changedAt : Instant
  deriving DecidableEq

/-- A visibility that has never changed. -/
def VisibilitySettings.settled (v : Visibility) : VisibilitySettings := ⟨v, v, .epoch⟩

/-- The device's own certificates: what they sign, and how they hash a token. The answers depend on the
request only, so that equal requests in one run are taken to be answered alike, though certificates may be
renewed or used up in between. -/
structure Credentials where
  sign : Visibility → Bytes → Option Bytes
  tokenHash : Visibility → Bytes → Option Bytes

structure Session where
  target : ShareTarget
  token : Bytes
  visibility : VisibilitySettings
  credentials : Credentials
  /-- The peer's certificate, if it is known. -/
  peer : Option DecryptedCertificate := none
  restrictToContacts : Bool := false
  osType : OsType := .unknownOsType
  /-- Stands in for proofs that cannot be given. -/
  filler : Entropy

namespace Session

/-- For this long after a change, the previous visibility still counts. -/
def relaxPeriod : Duration := Duration.ofMinutes 15

def fillerSignatureLength : Nat := 72

def role (s : Session) : Role := if s.target.isIncoming then .receiver else .sender

/-- What a role signs. -/
def payload (s : Session) (role : Role) : Bytes := role.mark :: s.token

/-- The visibility whose certificate signs. -/
def signingVisibility : Visibility → Visibility
  | .everyone => .allContacts
  | v => v

/-- Whether the peer may still hold certificates of the previous visibility. A change that lies in
the future counts as recent. -/
def recentlyChanged (s : Session) (now : Instant) : Bool :=
  s.target.isKnown && decide ((now.since? s.visibility.changedAt).getD 0 < relaxPeriod)

/-- Whether a peer that did not recognise the current certificate may go on. -/
def relaxed (s : Session) (now : Instant) : Bool :=
  s.recentlyChanged now || (s.target.isIncoming && s.visibility.current = .everyone)

/-- A proof, or random octets in its place if there is none. -/
def orFiller (length : Nat) (proof : Option Bytes) (e : Entropy) : Bytes × Entropy :=
  match proof with
  | some (b :: bs) => (b :: bs, e)
  | _ => e.bytes length

/-- The proofs this device sends. -/
def encryption (s : Session) (now : Instant) : PairedKeyEncryption :=
  let own := s.payload s.role
  let sign (v : Visibility) : Option Bytes := s.credentials.sign (signingVisibility v) own
  let signature := orFiller fillerSignatureLength (sign s.visibility.current) s.filler
  let hash := orFiller Material.tokenHashLength (s.peer.map fun c => c.tokenHash s.token) signature.2
  { signedData := some signature.1
    secretIdHash := some hash.1
    optionalSignedData := if s.recentlyChanged now then sign s.visibility.previous else none }

/-- Whether the peer hashed the token under the secret of a visibility's certificate. -/
def recognises (s : Session) (v : Visibility) (e : PairedKeyEncryption) : Verdict :=
  match s.credentials.tokenHash v s.token, e.secretIdHash with
  | some own, some received => if own = received then .success else .unable
  | _, _ => .unable

/-- The verdict on the hash, or none if the peer is rejected outright. The certificate of the
previous visibility counts only while the rule is relaxed. -/
def identity (s : Session) (now : Instant) (e : PairedKeyEncryption) : Option Verdict :=
  let verdict := s.recognises s.visibility.current e
  if verdict = .success then some verdict
  else if s.restrictToContacts && !s.relaxed now then none
  else if s.relaxed now && s.visibility.previous ≠ s.visibility.current then some (s.recognises s.visibility.previous e)
  else some verdict

/-- Whether a signature that was sent is the peer's. -/
def verifies (s : Session) (c : DecryptedCertificate) (signature : Option Bytes) : Bool :=
  signature.any fun b => c.verify (s.payload s.role.opposite) b

/-- The verdict on the signatures. Either of the two will do, and a stranger's proves nothing. -/
def signature (s : Session) (e : PairedKeyEncryption) : Verdict :=
  match s.peer with
  | none => .unable
  | some c =>
    if s.verifies c e.signedData || s.verifies c e.optionalSignedData then
      if s.target.isKnown then .success else .unable
    else .fail

end Session
end ProximityCert
