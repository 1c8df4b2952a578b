import ProximityCert.Wire.Field

/-!
Messages: what a message writes is a list of fields, and reading merges the fields it finds, in
order, into an empty message. Later values of a single field win, embedded messages merge, and
fields of unknown number are passed over.
-/

namespace ProximityCert

class Message (α : Type) where
  empty : α
  /-- The fields in the order of their numbers. -/
  fields : α → List Field
  /-- Merges one field at a nesting depth; `none` if the field is malformed. -/
  merge : (depth : Nat) → α → Field → Option α

namespace Message

variable {α : Type} [Message α]

def encode (m : α) : Bytes := (fields m).flatMap Field.bytes

/-- Merges a body into a message. -/
def mergeBody (depth : Nat) (m : α) (bs : Bytes) : Option α :=
  (Field.readAll depth bs).bind fun fs => fs.foldlM (merge depth) m

def decode (bs : Bytes) : Option α := mergeBody Field.maxDepth empty bs

/-- The message behind its length. -/
def encodeFramed (m : α) : Bytes := Field.framed (encode m)

/-- Reads one message behind its length; it counts as a level. -/
def decodeFramed (bs : Bytes) : Option (α × Bytes) :=
  (Field.readFramed bs).bind fun (body, rest) => (mergeBody (Field.maxDepth - 1) empty body).map (·, rest)

/-- Reads framed messages until the bytes end; the count bounds their number. -/
def decodeListUpTo : (fuel : Nat) → Bytes → Option (List α)
  | _, [] => some []
  | 0, _ :: _ => none
  | fuel + 1, b :: bs =>
    match decodeFramed (α := α) (b :: bs) with
    | none => none
    | some (m, rest) => (decodeListUpTo fuel rest).map (m :: ·)

def decodeList (bs : Bytes) : Option (List α) := decodeListUpTo bs.length bs

def encodeList (ms : List α) : Bytes := ms.flatMap encodeFramed

end Message

/-! Writing and merging fields of each kind. Plain values are left out when they are the default;
optional ones are written whenever they are present. -/

namespace Field

/-- A field of unknown number is passed over while a level is left. -/
def skip {α : Type} (depth : Nat) (m : α) : Option α := if depth = 0 then none else some m

def int64 (number : Nat) (v : Int64) : List Field := if v = 0 then [] else [⟨number, .varint v.toUInt64⟩]
def varint32 (number : Nat) (v : Int32) : Field := ⟨number, .varint v.toInt64.toUInt64⟩
def int32 (number : Nat) (v : Int32) : List Field := if v = 0 then [] else [varint32 number v]
def optionalInt32 (number : Nat) (v : Option Int32) : List Field := (v.map (varint32 number)).toList
def bool (number : Nat) (v : Bool) : List Field := if v then [⟨number, .varint 1⟩] else []
def octets (number : Nat) (v : Bytes) : List Field := if v = [] then [] else [⟨number, .delimited v⟩]
def optionalOctets (number : Nat) (v : Option Bytes) : List Field := (v.map fun b => ⟨number, .delimited b⟩).toList
def text (number : Nat) (v : String) : List Field := octets number (Bytes.ofText v)
def optionalText (number : Nat) (v : Option String) : List Field := optionalOctets number (v.map Bytes.ofText)
def packed (number : Nat) (vs : List Int32) : List Field :=
  octets number (vs.flatMap fun v => Varint.bytes v.toInt64.toUInt64.toNat)
def message {α : Type} [Message α] (number : Nat) (m : α) : Field := ⟨number, .delimited (Message.encode m)⟩
def optionalMessage {α : Type} [Message α] (number : Nat) (m : Option α) : List Field := (m.map (message number)).toList
def messages {α : Type} [Message α] (number : Nat) (ms : List α) : List Field := ms.map (message number)

end Field

namespace Payload

/-- A number's low thirty-two bits. -/
def low32 (n : UInt64) : Int32 := n.toUInt32.toInt32

def int64? : Payload → Option Int64 | varint v => some v.toInt64 | _ => none
def int32? : Payload → Option Int32 | varint v => some (low32 v) | _ => none
def bool? : Payload → Option Bool | varint v => some (v != 0) | _ => none
def octets? : Payload → Option Bytes | delimited body => some body | _ => none
def text? : Payload → Option String | delimited body => Bytes.toText? body | _ => none

/-- Reads numbers until the bytes end; the count bounds how many. -/
def readPacked : (fuel : Nat) → Bytes → Option (List Int32)
  | _, [] => some []
  | 0, _ :: _ => none
  | fuel + 1, b :: bs =>
    match Varint.read (b :: bs) with
    | none => none
    | some (n, rest) => (readPacked fuel rest).map (low32 (UInt64.ofNat n) :: ·)

/-- The numbers that one occurrence of a repeated field adds, packed or single. -/
def packed? : Payload → Option (List Int32)
  | varint v => some [low32 v]
  | delimited body => readPacked body.length body
  | _ => none

/-- An embedded message merged into what an earlier occurrence left. -/
def message? {α : Type} [Message α] (depth : Nat) (earlier : Option α) : Payload → Option α
  | delimited body => if depth = 0 then none else Message.mergeBody (depth - 1) (earlier.getD Message.empty) body
  | _ => none

end Payload
end ProximityCert
