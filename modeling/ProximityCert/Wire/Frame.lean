import ProximityCert.Wire.Message

/-! The frames that two devices exchange while they verify each other. -/

namespace ProximityCert

/-- Versions of the frame envelope. -/
inductive FrameVersion
  | unknownVersion | v1
  deriving DecidableEq

namespace FrameVersion

def all : List FrameVersion := [.unknownVersion, .v1]

def code : FrameVersion → Int32
  | unknownVersion => 0 | v1 => 1

def ofCode? (n : Int32) : Option FrameVersion := all.find? fun x => x.code = n

def name : FrameVersion → String
  | unknownVersion => "UnknownVersion" | v1 => "V1"

theorem ofCode?_code (x : FrameVersion) : ofCode? x.code = some x := by cases x <;> rfl

end FrameVersion

/-- What a frame of the first version carries. -/
inductive FrameType
  | unknownFrameType | introduction | response | pairedKeyEncryption | pairedKeyResult | certificateInfo | cancel
  deriving DecidableEq

namespace FrameType

def all : List FrameType := [.unknownFrameType, .introduction, .response, .pairedKeyEncryption, .pairedKeyResult, .certificateInfo, .cancel]

def code : FrameType → Int32
  | unknownFrameType => 0 | introduction => 1 | response => 2 | pairedKeyEncryption => 3 | pairedKeyResult => 4 | certificateInfo => 5 | cancel => 6

def ofCode? (n : Int32) : Option FrameType := all.find? fun x => x.code = n

def name : FrameType → String
  | unknownFrameType => "UnknownFrameType" | introduction => "Introduction" | response => "Response" | pairedKeyEncryption => "PairedKeyEncryption"
  | pairedKeyResult => "PairedKeyResult" | certificateInfo => "CertificateInfo" | cancel => "Cancel"

theorem ofCode?_code (x : FrameType) : ofCode? x.code = some x := by cases x <;> rfl

end FrameType

/-- The verdict a peer reports. -/
inductive PairedKeyStatus
  | unknown | success | fail | unable
  deriving DecidableEq

namespace PairedKeyStatus

def all : List PairedKeyStatus := [.unknown, .success, .fail, .unable]

def code : PairedKeyStatus → Int32
  | unknown => 0 | success => 1 | fail => 2 | unable => 3

def ofCode? (n : Int32) : Option PairedKeyStatus := all.find? fun x => x.code = n

def name : PairedKeyStatus → String
  | unknown => "Unknown" | success => "Success" | fail => "Fail" | unable => "Unable"

theorem ofCode?_code (x : PairedKeyStatus) : ofCode? x.code = some x := by cases x <;> rfl

end PairedKeyStatus

/-- The system a peer runs. -/
inductive OsType
  | unknownOsType | android | chromeOs | ios | windows | macOs
  deriving DecidableEq

namespace OsType

def all : List OsType := [.unknownOsType, .android, .chromeOs, .ios, .windows, .macOs]

def code : OsType → Int32
  | unknownOsType => 0 | android => 1 | chromeOs => 2 | ios => 3 | windows => 4 | macOs => 5

def ofCode? (n : Int32) : Option OsType := all.find? fun x => x.code = n

def name : OsType → String
  | unknownOsType => "UnknownOsType" | android => "Android" | chromeOs => "ChromeOs" | ios => "Ios"
  | windows => "Windows" | macOs => "MacOs"

theorem ofCode?_code (x : OsType) : ofCode? x.code = some x := by cases x <;> rfl

end OsType

/-- What a device proves: a signature of the shared token, the hash of the token under its secret,
and possibly a signature with the certificate of its previous visibility. -/
structure PairedKeyEncryption where
  signedData : Option Bytes := none
  secretIdHash : Option Bytes := none
  optionalSignedData : Option Bytes := none
  deriving DecidableEq

instance : Message PairedKeyEncryption where
  empty := {}
  fields m := Field.optionalOctets 1 m.signedData ++ Field.optionalOctets 2 m.secretIdHash ++
    Field.optionalOctets 3 m.optionalSignedData
  merge depth m
    | ⟨1, p⟩ => p.octets?.map fun b => { m with signedData := some b }
    | ⟨2, p⟩ => p.octets?.map fun b => { m with secretIdHash := some b }
    | ⟨3, p⟩ => p.octets?.map fun b => { m with optionalSignedData := some b }
    | _ => Field.skip depth m

structure PairedKeyResult where
  status : Option Int32 := none
  osType : Option Int32 := none
  deriving DecidableEq

instance : Message PairedKeyResult where
  empty := {}
  fields m := Field.optionalInt32 1 m.status ++ Field.optionalInt32 2 m.osType
  merge depth m
    | ⟨1, p⟩ => p.int32?.map fun n => { m with status := some n }
    | ⟨2, p⟩ => p.int32?.map fun n => { m with osType := some n }
    | _ => Field.skip depth m

structure V1Frame where
  type : Option Int32 := none
  encryption : Option PairedKeyEncryption := none
  result : Option PairedKeyResult := none
  deriving DecidableEq

instance : Message V1Frame where
  empty := {}
  fields m := Field.optionalInt32 1 m.type ++ Field.optionalMessage 4 m.encryption ++ Field.optionalMessage 5 m.result
  merge depth m
    | ⟨1, p⟩ => p.int32?.map fun n => { m with type := some n }
    | ⟨4, p⟩ => (p.message? depth m.encryption).map fun e => { m with encryption := some e }
    | ⟨5, p⟩ => (p.message? depth m.result).map fun r => { m with result := some r }
    | _ => Field.skip depth m

/-- The type of a frame; a missing or unknown number is the unknown type. -/
def V1Frame.frameType (m : V1Frame) : FrameType := (m.type.bind FrameType.ofCode?).getD .unknownFrameType

structure Frame where
  version : Option Int32 := none
  v1 : Option V1Frame := none
  deriving DecidableEq

instance : Message Frame where
  empty := {}
  fields m := Field.optionalInt32 1 m.version ++ Field.optionalMessage 2 m.v1
  merge depth m
    | ⟨1, p⟩ => p.int32?.map fun n => { m with version := some n }
    | ⟨2, p⟩ => (p.message? depth m.v1).map fun f => { m with v1 := some f }
    | _ => Field.skip depth m

/-- The envelope of a frame of the first version. -/
def Frame.ofV1 (f : V1Frame) : Frame := { version := some FrameVersion.v1.code, v1 := some f }

end ProximityCert
