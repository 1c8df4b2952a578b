import ProximityCert.Wire.PublicCertificate

/-! Requests to the certificate service and its responses. -/

namespace ProximityCert

/-- How the service changed the contacts of a device. -/
inductive ContactUpdate
  | unspecified | added | removed
  deriving DecidableEq

namespace ContactUpdate

def all : List ContactUpdate := [.unspecified, .added, .removed]

def code : ContactUpdate → Int32
  | unspecified => 0 | added => 1 | removed => 2

def ofCode? (n : Int32) : Option ContactUpdate := all.find? fun x => x.code = n

def name : ContactUpdate → String
  | unspecified => "Unspecified" | added => "Added" | removed => "Removed"

theorem ofCode?_code (x : ContactUpdate) : ofCode? x.code = some x := by cases x <;> rfl

end ContactUpdate

/-- What a shared credential holds. -/
inductive CredentialType
  | unspecified | publicCertificate | deviceContactsHash
  deriving DecidableEq

namespace CredentialType

def all : List CredentialType := [.unspecified, .publicCertificate, .deviceContactsHash]

def code : CredentialType → Int32
  | unspecified => 0 | publicCertificate => 1 | deviceContactsHash => 2

def ofCode? (n : Int32) : Option CredentialType := all.find? fun x => x.code = n

def name : CredentialType → String
  | unspecified => "Unspecified" | publicCertificate => "PublicCertificate" | deviceContactsHash => "DeviceContactsHash"

theorem ofCode?_code (x : CredentialType) : ofCode? x.code = some x := by cases x <;> rfl

end CredentialType

structure PublishRequest where
  /-- The resource name of the device. -/
  name : String := ""
  certificates : List PublicCertificate := []
  forceUpdateContacts : Bool := false
  deriving DecidableEq

instance : Message PublishRequest where
  empty := {}
  fields m := Field.text 1 m.name ++ Field.messages 2 m.certificates ++ Field.bool 3 m.forceUpdateContacts
  merge depth m
    | ⟨1, p⟩ => p.text?.map fun s => { m with name := s }
    | ⟨2, p⟩ => (p.message? depth none).map fun c => { m with certificates := m.certificates ++ [c] }
    | ⟨3, p⟩ => p.bool?.map fun v => { m with forceUpdateContacts := v }
    | _ => Field.skip depth m

structure PublishResponse where
  contactUpdates : List Int32 := []
  deriving DecidableEq

instance : Message PublishResponse where
  empty := {}
  fields m := Field.packed 1 m.contactUpdates
  merge depth m
    | ⟨1, p⟩ => p.packed?.map fun ns => { m with contactUpdates := m.contactUpdates ++ ns }
    | _ => Field.skip depth m

/-- Whether any update removed a contact. -/
def PublishResponse.contactsRemoved (m : PublishResponse) : Bool := m.contactUpdates.any (· = ContactUpdate.removed.code)

structure SharedCredential where
  id : Int64 := 0
  data : Bytes := []
  dataType : Int32 := 0
  deriving DecidableEq

instance : Message SharedCredential where
  empty := {}
  fields m := Field.int64 1 m.id ++ Field.octets 2 m.data ++ Field.int32 3 m.dataType
  merge depth m
    | ⟨1, p⟩ => p.int64?.map fun n => { m with id := n }
    | ⟨2, p⟩ => p.octets?.map fun b => { m with data := b }
    | ⟨3, p⟩ => p.int32?.map fun n => { m with dataType := n }
    | _ => Field.skip depth m

structure CredentialsRequest where
  name : String := ""
  pageToken : Option String := none
  deriving DecidableEq

instance : Message CredentialsRequest where
  empty := {}
  fields m := Field.text 1 m.name ++ Field.optionalText 2 m.pageToken
  merge depth m
    | ⟨1, p⟩ => p.text?.map fun s => { m with name := s }
    | ⟨2, p⟩ => p.text?.map fun s => { m with pageToken := some s }
    | _ => Field.skip depth m

structure CredentialsResponse where
  credentials : List SharedCredential := []
  nextPageToken : String := ""
  deriving DecidableEq

instance : Message CredentialsResponse where
  empty := {}
  fields m := Field.messages 1 m.credentials ++ Field.text 2 m.nextPageToken
  merge depth m
    | ⟨1, p⟩ => (p.message? depth none).map fun c => { m with credentials := m.credentials ++ [c] }
    | ⟨2, p⟩ => p.text?.map fun s => { m with nextPageToken := s }
    | _ => Field.skip depth m

end ProximityCert
