import ProximityCert.Failure
import ProximityCert.Clock.Instant
import ProximityCert.Json.Parser
import ProximityCert.Text.Hex

/-!
Readable descriptions of values. A description is a structured value whose members may be left out:
absent members and nulls read as zero, empty or absent. Octets are written in hexadecimal, and large
numbers and times as decimal texts.
-/

namespace ProximityCert

/-- Why a description gives no value. -/
inductive Refusal | unreadable (text : String) | failed (reason : Failure) | outOfRange
  deriving DecidableEq

abbrev Reading := Except Refusal

instance : MonadLift (Except Failure) Reading where
  monadLift r := r.mapError .failed

instance : MonadLift (Except ClockFault) Reading where
  monadLift r := r.mapError fun _ => .outOfRange

def Reading.refuse {α : Type} (text : String) : Reading α := .error (.unreadable text)

/-- A failure of a kind, with the text and the lengths that its kind needs. -/
def Failure.ofKind? (kind text : String) (expected actual : Nat) : Option Failure :=
  [encryption text, decryption text, signature text, keyFormat text, length text expected actual, serialization text,
    storage text, corrupted text, rpc text, io text, connection text, channelClosed text].find? fun f => f.kind = kind

namespace Json

/-- A member, null if there is none. -/
def part (j : Json) (name : String) : Json := (j.get? name).getD .null

/-- Reads what is not null. -/
def ifPresent {α : Type} (read : Json → Reading α) : Json → Reading (Option α)
  | .null => .ok none
  | j => some <$> read j

def asText : Json → Reading String
  | .str s => .ok s
  | _ => .refuse "text expected"

def asBool : Json → Reading Bool
  | .null => .ok false
  | .bool b => .ok b
  | _ => .refuse "truth value expected"

def asInt : Json → Reading Int
  | .null => .ok 0
  | .integer n => .ok n
  | .str s => match s.toInt? with
    | some n => .ok n
    | none => .refuse ("number expected: " ++ s)
  | _ => .refuse "number expected"

def asInstant (j : Json) : Reading Instant := do
  match Instant.ofNanos? (← asInt j) with
  | some t => return t
  | none => .refuse "time out of range"

/-- One hexadecimal text. -/
def asHex : Json → Reading Bytes
  | .str s => (Hex.decode (Bytes.ofText s)).mapError fun _ => .unreadable "hexadecimal expected"
  | _ => .refuse "hexadecimal expected"

mutual
/-- Hexadecimal text, a list of parts, or a part with the number of its repetitions. -/
def asBytes : Json → Reading Bytes
  | .null => .ok []
  | .arr items => asParts items
  | .obj members => do
    let unit ← asHex ((member? "rep" members).getD .null)
    let count ← asInt ((member? "n" members).getD .null)
    return (List.replicate count.toNat unit).flatten
  | j => asHex j
def asParts : List Json → Reading Bytes
  | [] => .ok []
  | j :: rest => return (← asBytes j) ++ (← asParts rest)
end

def textAt? (j : Json) (name : String) : Reading (Option String) := ifPresent asText (j.part name)
def textAt (j : Json) (name : String) : Reading String := return (← j.textAt? name).getD ""
def boolAt (j : Json) (name : String) : Reading Bool := asBool (j.part name)
def intAt (j : Json) (name : String) : Reading Int := asInt (j.part name)
def natAt (j : Json) (name : String) : Reading Nat := return (← j.intAt name).toNat
def natAt? (j : Json) (name : String) : Reading (Option Nat) := ifPresent (fun v => return (← asInt v).toNat) (j.part name)
def int32At (j : Json) (name : String) : Reading Int32 := return Int32.ofInt (← j.intAt name)
def int32At? (j : Json) (name : String) : Reading (Option Int32) :=
  ifPresent (fun v => return Int32.ofInt (← asInt v)) (j.part name)
def instantAt (j : Json) (name : String) : Reading Instant := asInstant (j.part name)
def instantAt? (j : Json) (name : String) : Reading (Option Instant) := ifPresent asInstant (j.part name)
def bytesAt (j : Json) (name : String) : Reading Bytes := asBytes (j.part name)
def bytesAt? (j : Json) (name : String) : Reading (Option Bytes) := ifPresent asBytes (j.part name)

/-- A member that is given, null or not, or else the value that stands without it. -/
def givenOr {α : Type} (j : Json) (name : String) (otherwise : α) (read : Json → Reading α) : Reading α :=
  match j.get? name with
  | some v => read v
  | none => .ok otherwise

def listAt (j : Json) (name : String) : Reading (List Json) :=
  match j.part name with
  | .null => .ok []
  | .arr items => .ok items
  | _ => .refuse ("list expected: " ++ name)

/-- The items of a member, each read in the same way. -/
def itemsAt {α : Type} (j : Json) (name : String) (read : Json → Reading α) : Reading (List α) := do
  (← j.listAt name).mapM read

/-- Reads a stored text by the fields of its structure. -/
def readStored {α : Type} (names : List String) (ofJson? : Json → Option α) (text : String) : Reading α :=
  Failure.malformedJson.ifAbsent ((parseStruct? names text).bind ofJson?)

/-! Writing. -/

def hex (bs : Bytes) : Json := .str (Hex.encode bs)
def decimal (n : Int) : Json := .str (toString n)
def time (t : Instant) : Json := decimal t.nanos
def ofOption {α : Type} (f : α → Json) (a : Option α) : Json := (a.map f).getD .null
def ofList {α : Type} (f : α → Json) (as : List α) : Json := .arr (as.map f)

/-- An object of those members that are present. -/
def ofPresent (members : List (String × Option Json)) : Json :=
  ofMembers (members.filterMap fun m => m.2.map fun v => (m.1, v))

end Json
end ProximityCert
