import ProximityCert.Config
import ProximityCert.Inspect.Message
import ProximityCert.Manager.Fixed
import ProximityCert.Verification.Run

/-! Descriptions of verification runs: what comes in, who takes part, and how it ended. -/

namespace ProximityCert

/-- Whole milliseconds. -/
def Json.ofMillisCount (d : Duration) : Json := .ofNat (d / 1000000)

def Verdict.read : Json → Reading Verdict
  | .str s => match Verdict.ofName? s with
    | some v => .ok v
    | none => .refuse ("unknown verdict " ++ s)
  | _ => .refuse "verdict expected"

/-- The type of a number; an unlisted one is the unknown type. -/
def FrameType.read (j : Json) : Reading FrameType := return (ofCode? (Int32.ofInt (← Json.asInt j))).getD .unknownFrameType

/-- A message, or a pause in milliseconds, as long as one can sleep. -/
def Arrival.read (j : Json) : Reading Arrival := do
  match ← j.natAt? "delay_ms" with
  | some ms => return .pause (Duration.ofMillis ms).asleep
  | none => return .message (← Json.asBytes j)

def Incoming.read (j : Json) : Reading Incoming := return ⟨← j.itemsAt "incoming" Arrival.read, ← j.boolAt "close"⟩

def Outcome.describe (o : Outcome) : Json := .arr [.str o.verdict.name, .str o.peerOs.name]

def ShareTarget.read (j : Json) : Reading ShareTarget := return {
  id := Int64.ofInt (← j.intAt "id"), deviceName := ← j.textAt "name"
  isIncoming := ← j.boolAt "incoming", isKnown := ← j.boolAt "known" }

/-- A visibility that never changed, unless the one before it is given. -/
def VisibilitySettings.read (j : Json) : Reading VisibilitySettings := do
  let current ← Visibility.readAt j "visibility"
  match j.part "last" with
  | .null => return .settled current
  | _ => return ⟨current, ← Visibility.readAt j "last", ← j.instantAt "changed_at"⟩

/-- A peer's certificate and the key that is to open it; none if it does not. -/
def DecryptedCertificate.read (j : Json) : Reading (Option DecryptedCertificate) := do
  let c ← PublicCertificate.read (j.part "public")
  ofPublic c (← EncryptedMetadataKey.read ((j.part "public").part "from") (j.part "key"))

/-- A session whose credentials are those of a manager with fixed certificates. -/
def Session.read (token : Bytes) (filler : Entropy) (j : Json) : Reading Session := do
  let peer ← Json.ifPresent DecryptedCertificate.read (j.part "peer")
  return {
    target := ← ShareTarget.read (j.part "target")
    token, filler
    visibility := ← VisibilitySettings.read j
    credentials := ((← j.itemsAt "certs" PrivateCertificate.read).foldl FixedManager.setPrivate {}).credentials
    peer := peer.getD none
    restrictToContacts := ← j.boolAt "restrict"
    osType := ((← j.int32At? "os").bind OsType.ofCode?).getD .unknownOsType }

/-- How long a described run waits for a frame. -/
def Session.readPatience (j : Json) : Reading Duration := do
  return ((← j.natAt? "timeout_ms").map .ofMillis).getD ({} : VerificationConfig).readFrameTimeout

end ProximityCert
