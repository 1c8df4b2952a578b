import ProximityCert.Inspect.Certificate
import ProximityCert.Storage.Store

/-! Descriptions of files, databases and preferences. -/

namespace ProximityCert

def OpenResult.all : List OpenResult := [.ok, .error, .corrupt]

def OpenResult.name : OpenResult → String
  | .ok => "Ok" | .error => "Error" | .corrupt => "Corrupt"

/-- The result of a name in small letters. -/
def OpenResult.read (j : Json) : Reading OpenResult := do
  let name ← Json.asText j
  match all.find? fun r => r.name.toLower = name with
  | some r => return r
  | none => .refuse ("unknown result " ++ name)

/-- The place, with a file of the octets that are given, if any. -/
def FileSlot.filledAt (s : FileSlot) (j : Json) (name : String) : Reading FileSlot :=
  return ((← j.bytesAt? name).map s.put).getD s

/-- A database in memory, or in a file if that is what is asked for. -/
def Database.read (j : Json) : Reading Database := do
  if (← j.textAt "backend") = "file" then return .file { slot := ← FileSlot.filledAt {} j "file" }
  else return .memory {}

def Preferences.readAt (j : Json) (name : String) : Reading Preferences :=
  match j.part name with
  | .null => .ok .empty
  | .obj members => .ok (.ofList members)
  | _ => .refuse "object expected"

/-- What a look-up gave. -/
def Json.ofFound (v : Option Json) : Json := .ofPresent [("found", some (.bool v.isSome)), ("value", v)]

/-- A pair of an id and an end time. -/
def Expirations.readEntry : Json → Reading (Bytes × Instant)
  | .arr [id, t] => return (← Json.asBytes id, ← Json.asInstant t)
  | _ => .refuse "pair expected"

end ProximityCert
