/-!
Failures of certificate operations. Each case names the part that failed and why; the wording of a
failure is given by one function.
-/

namespace ProximityCert

inductive Failure
  | encryption (reason : String) | decryption (reason : String) | signature (reason : String)
  | keyFormat (reason : String) | length (field : String) (expected actual : Nat)
  | serialization (reason : String) | storage (reason : String) | corrupted (reason : String)
  | rpc (reason : String) | io (reason : String) | connection (reason : String) | channelClosed (reason : String)
  deriving DecidableEq

namespace Failure

/-- The name of the kind of failure. -/
def kind : Failure → String
  | encryption _ => "Encryption" | decryption _ => "Decryption" | signature _ => "Signature"
  | keyFormat _ => "InvalidKeyFormat" | length _ _ _ => "InvalidLength" | serialization _ => "Serialization"
  | storage _ => "Storage" | corrupted _ => "StorageCorrupted" | rpc _ => "Rpc" | io _ => "Io"
  | connection _ => "Connection" | channelClosed _ => "ChannelClosed"

def message : Failure → String
  | encryption reason => "Encryption error: " ++ reason
  | decryption reason => "Decryption error: " ++ reason
  | signature reason => "Signature error: " ++ reason
  | keyFormat reason => "Invalid key format: " ++ reason
  | length field expected actual =>
    "Invalid length for " ++ field ++ ": expected " ++ toString expected ++ ", got " ++ toString actual
  | serialization reason => "Serialization error: " ++ reason
  | storage reason => "Storage error: " ++ reason
  | corrupted reason => "Storage corrupted: " ++ reason
  | rpc reason => "RPC error: " ++ reason
  | io reason => "IO error: " ++ reason
  | connection reason => "Connection error: " ++ reason
  | channelClosed reason => "Channel closed: " ++ reason

/-- More key material was asked for than one secret can give. -/
def derivedKeyTooLong : Failure := .encryption "HKDF error: invalid number of blocks, too large output"

def cipherKeyLength : Failure := .encryption "AES-CTR init failed: Invalid Length"
def messageTooLong : Failure := .encryption "AES-GCM encrypt failed: aead::Error"
def notAuthentic : Failure := .decryption "AES-GCM decrypt failed: aead::Error"
def malformedKey : Failure := .keyFormat "PKCS#8 decoding error"
def malformedMessage : Failure := .serialization "protobuf decode error"
def malformedJson : Failure := .serialization "json error"
def malformedBase64 : Failure := .serialization "base64 decode error"

/-- The failure, unless there is a value. -/
def ifAbsent {α : Type} (f : Failure) : Option α → Except Failure α
  | some a => .ok a
  | none => .error f

end Failure
end ProximityCert
