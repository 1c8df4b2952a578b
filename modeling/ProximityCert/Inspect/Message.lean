import ProximityCert.Inspect.Certificate
import ProximityCert.Wire.Frame
import ProximityCert.Wire.Service

/-! Descriptions of messages, and the codec of each message by its name. -/

namespace ProximityCert

def PairedKeyEncryption.describe (m : PairedKeyEncryption) : Json := .ofPresent
  [("signed", m.signedData.map .hex), ("hash", m.secretIdHash.map .hex), ("optional", m.optionalSignedData.map .hex)]

def PairedKeyEncryption.read (j : Json) : Reading PairedKeyEncryption := return {
  signedData := ← j.bytesAt? "signed", secretIdHash := ← j.bytesAt? "hash", optionalSignedData := ← j.bytesAt? "optional" }

def PairedKeyResult.describe (m : PairedKeyResult) : Json := .ofPresent
  [("status", m.status.map .ofInt32), ("os", m.osType.map .ofInt32)]

def PairedKeyResult.read (j : Json) : Reading PairedKeyResult := return {
  status := ← j.int32At? "status", osType := ← j.int32At? "os" }

/-- The frame as it stands, and the type it counts as. -/
def V1Frame.describe (m : V1Frame) : Json := .ofPresent
  [("type", m.type.map .ofInt32), ("encryption", m.encryption.map PairedKeyEncryption.describe),
    ("result", m.result.map PairedKeyResult.describe), ("frame_type", some (.ofInt32 m.frameType.code))]

def V1Frame.read (j : Json) : Reading V1Frame := return {
  type := ← j.int32At? "type"
  encryption := ← Json.ifPresent PairedKeyEncryption.read (j.part "encryption")
  result := ← Json.ifPresent PairedKeyResult.read (j.part "result") }

def Frame.describe (m : Frame) : Json := .ofPresent [("version", m.version.map .ofInt32), ("v1", m.v1.map V1Frame.describe)]

def Frame.read (j : Json) : Reading Frame := return {
  version := ← j.int32At? "version", v1 := ← Json.ifPresent V1Frame.read (j.part "v1") }

def PublishRequest.describe (m : PublishRequest) : Json := .ofMembers
  [("name", .str m.name), ("certificates", .ofList PublicCertificate.describe m.certificates),
    ("force", .bool m.forceUpdateContacts)]

def PublishRequest.read (j : Json) : Reading PublishRequest := return {
  name := ← j.textAt "name", certificates := ← j.itemsAt "certificates" PublicCertificate.read
  forceUpdateContacts := ← j.boolAt "force" }

/-- The updates, and whether any of them removed a contact. -/
def PublishResponse.describe (m : PublishResponse) : Json := .ofMembers
  [("updates", .ofList .ofInt32 m.contactUpdates), ("contacts_removed", .bool m.contactsRemoved)]

def PublishResponse.read (j : Json) : Reading PublishResponse := return {
  contactUpdates := ← j.itemsAt "updates" fun n => return Int32.ofInt (← Json.asInt n) }

def SharedCredential.describe (m : SharedCredential) : Json := .ofMembers
  [("id", .decimal m.id.toInt), ("data", .hex m.data), ("type", .ofInt32 m.dataType)]

/-- The data may be given as a certificate, which is then encoded. -/
def SharedCredential.read (j : Json) : Reading SharedCredential := do
  let data ← match ← Json.ifPresent PublicCertificate.read (j.part "public") with
    | none => j.bytesAt "data"
    | some c => pure (Message.encode c)
  return { id := Int64.ofInt (← j.intAt "id"), data, dataType := ← j.int32At "type" }

def CredentialsRequest.describe (m : CredentialsRequest) : Json := .ofMembers
  [("name", .str m.name), ("page_token", .ofOption .str m.pageToken)]

def CredentialsRequest.read (j : Json) : Reading CredentialsRequest := return {
  name := ← j.textAt "name", pageToken := ← j.textAt? "page_token" }

def CredentialsResponse.describe (m : CredentialsResponse) : Json := .ofMembers
  [("credentials", .ofList SharedCredential.describe m.credentials), ("next", .str m.nextPageToken)]

def CredentialsResponse.read (j : Json) : Reading CredentialsResponse := return {
  credentials := ← j.itemsAt "credentials" SharedCredential.read, nextPageToken := ← j.textAt "next" }

/-- The name of a number in one of the enumerations, if it is listed there. -/
def variantName? (enumeration : String) (n : Int32) : Reading (Option String) :=
  match enumeration with
  | "DeviceVisibility" => .ok ((Visibility.ofCode? n).map Visibility.name)
  | "FrameVersion" => .ok ((FrameVersion.ofCode? n).map FrameVersion.name)
  | "V1FrameType" => .ok ((FrameType.ofCode? n).map FrameType.name)
  | "PairedKeyStatus" => .ok ((PairedKeyStatus.ofCode? n).map PairedKeyStatus.name)
  | "OsType" => .ok ((OsType.ofCode? n).map OsType.name)
  | "ContactUpdate" => .ok ((ContactUpdate.ofCode? n).map ContactUpdate.name)
  | "SharedCredentialDataType" => .ok ((CredentialType.ofCode? n).map CredentialType.name)
  | _ => .refuse ("unknown enumeration " ++ enumeration)

/-- A kind of message with its descriptions. -/
structure Codec where
  {Body : Type}
  [message : Message Body]
  read : Json → Reading Body
  describe : Body → Json

namespace Codec

/-- The description of the message in some octets, and the octets it is written in again. -/
def decode (c : Codec) (data : Bytes) : Except Failure (Json × Bytes) :=
  have := c.message
  (Failure.malformedMessage.ifAbsent (Message.decode (α := c.Body) data)).map fun m => (c.describe m, Message.encode m)

def decodeList (c : Codec) (data : Bytes) : Except Failure (List Json) :=
  have := c.message
  (Failure.malformedMessage.ifAbsent (Message.decodeList (α := c.Body) data)).map (·.map c.describe)

/-- The octets of a described message, behind its length if it is to be framed. -/
def encode (c : Codec) (framed : Bool) (j : Json) : Reading Bytes :=
  have := c.message
  (c.read j).map fun m => if framed then Message.encodeFramed m else Message.encode m

def named (name : String) : Option Codec :=
  match name with
  | "Timestamp" => some ⟨Timestamp.read, Timestamp.describe⟩
  | "EncryptedMetadata" => some ⟨Metadata.read, Metadata.describe⟩
  | "PublicCertificate" => some ⟨PublicCertificate.read, PublicCertificate.describe⟩
  | "Frame" => some ⟨Frame.read, Frame.describe⟩
  | "FrameV1" => some ⟨fun j => return Frame.ofV1 (← V1Frame.read j), Frame.describe⟩
  | "V1Frame" => some ⟨V1Frame.read, V1Frame.describe⟩
  | "PairedKeyEncryptionFrame" => some ⟨PairedKeyEncryption.read, PairedKeyEncryption.describe⟩
  | "PairedKeyResultFrame" => some ⟨PairedKeyResult.read, PairedKeyResult.describe⟩
  | "PublishDeviceRequest" => some ⟨PublishRequest.read, PublishRequest.describe⟩
  | "PublishDeviceResponse" => some ⟨PublishResponse.read, PublishResponse.describe⟩
  | "SharedCredential" => some ⟨SharedCredential.read, SharedCredential.describe⟩
  | "QuerySharedCredentialsRequest" => some ⟨CredentialsRequest.read, CredentialsRequest.describe⟩
  | "QuerySharedCredentialsResponse" => some ⟨CredentialsResponse.read, CredentialsResponse.describe⟩
  | _ => none

end Codec
end ProximityCert
