import ProximityCert.Json.Parser
import ProximityCert.Json.Printer
import ProximityCert.SortedMap
import ProximityCert.Storage.FileSlot

/-!
Preferences: values under names. They are kept in memory, or in a file that holds them all as one
indented object and is written again at every change. In memory every write succeeds, while a file can
refuse one. What works on preferences elsewhere has them in memory.
-/

namespace ProximityCert

/-- Preferences in memory, which take every write. -/
abbrev Preferences := SortedMap String Json

/-- Preferences kept in a file, which may refuse a write. -/
structure FilePreferences where
  name : String
  slot : FileSlot
  values : Preferences

namespace FilePreferences

def defaultName : String := "sharing_preferences.json"

/-- Reads the file; an absent one holds nothing. -/
def openAt (name : String) (slot : FileSlot) : Except Failure FilePreferences :=
  match slot.node with
  | .missing | .unreachable => .ok ⟨name, slot, .empty⟩
  | .directory => .error FileSlot.fault
  | .file content =>
    match Json.parseBytes? content with
    | none => .error Failure.malformedJson
    | some (.obj members) => .ok ⟨name, slot, .ofList members⟩
    | some _ => .error (.corrupted ("preference file " ++ name ++ " is not a JSON object"))

/-- Writes all values; they stay changed in memory even if the file cannot be written. -/
def persist (p : FilePreferences) : Except Failure Unit × FilePreferences :=
  match p.slot.replace (Bytes.ofText (Json.pretty 0 (.obj p.values.entries))) with
  | .ok slot => (.ok (), { p with slot })
  | .error f => (.error f, p)

def get? (p : FilePreferences) (key : String) : Option Json := p.values.find? key

def set (p : FilePreferences) (key : String) (value : Json) : Except Failure Unit × FilePreferences :=
  ({ p with values := p.values.insert key value }).persist

/-- Removes a value; the file is written only if there was one. -/
def remove (p : FilePreferences) (key : String) : Except Failure Unit × FilePreferences :=
  if p.values.contains key then ({ p with values := p.values.erase key }).persist else (.ok (), p)

end FilePreferences
end ProximityCert
