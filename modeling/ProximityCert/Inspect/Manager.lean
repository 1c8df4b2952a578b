import ProximityCert.Inspect.Message
import ProximityCert.Manager.Loop

/-! Descriptions of managers, of their tasks, and of the devices and services they deal with. -/

namespace ProximityCert

/-- `on_demand`, or an object with the period or the instant. -/
def Cadence.read : Json → Reading Cadence
  | .str "on_demand" => .ok .onDemand
  | j => do
    match ← j.natAt? "periodic" with
    | some d => return .periodic d
    | none => return .expiration (.ok (← j.instantAt? "expiration"))

def Cadence.toJson : Cadence → Reading Json
  | .onDemand => .ok (.str "on_demand")
  | .periodic d => .ok (.ofMembers [("periodic", .decimal d)])
  | .expiration next => return .ofMembers [("expiration", .ofOption .time (← next))]

def RecordedTask.describeMembers (t : RecordedTask) : List (String × Json) :=
  [("running", .bool t.running), ("immediate", .ofNat t.immediateRequests), ("reschedules", .ofNat t.reschedules),
    ("results", .ofList .bool t.results)]

def TaskKind.label : TaskKind → String
  | .refresh => "private" | .cleanup => "public" | .upload => "upload" | .download => "download"

def TaskKind.readAt (j : Json) (name : String) : Reading TaskKind := do
  let label ← j.textAt name
  match all.find? fun k => k.label = label with
  | some k => return k
  | none => .refuse ("unknown task " ++ label)

def Account.readAt (j : Json) (name : String) : Reading (Option Account) := return (← j.textAt? name).map Account.mk

/-- Puts the data that are given over those of a device; a null clears. -/
def Device.update (d : Device) (j : Json) : Reading Device := do
  let given {α : Type} (name : String) (old : α) (read : Reading α) : Reading α := if (j.get? name).isSome then read else .ok old
  return { d with
    id := ← given "id" d.id (j.textAt "id")
    name := ← given "name" d.name (j.textAt "name")
    fullName := ← given "full_name" d.fullName (j.textAt? "full_name")
    iconUrl := ← given "icon_url" d.iconUrl (j.textAt? "icon_url")
    bluetoothMac := ← given "mac" d.bluetoothMac (j.bytesAt? "mac") }

def Device.read (j : Json) : Reading Device := { id := "dev", name := "Name" : Device }.update j

/-- An answer of the service: a failure with the text that is given, or a described response. -/
def Service.readAnswer {α : Type} (read : Json → Reading α) (j : Json) : Reading (Except Failure α) := do
  match ← j.textAt? "error" with
  | some text => return .error (.rpc text)
  | none => return .ok (← read j)

/-- Adds to the answers that the service is going to give. -/
def Service.pushPublish (s : Service) (j : Json) : Reading Service :=
  return { s with publishAnswers := s.publishAnswers ++ [← readAnswer PublishResponse.read j] }

def Service.pushQuery (s : Service) (j : Json) : Reading Service :=
  return { s with queryAnswers := s.queryAnswers ++ [← readAnswer CredentialsResponse.read j] }

def CredentialsRequest.brief (q : CredentialsRequest) : Json := .arr [.str q.name, .ofOption .str q.pageToken]

/-- What observers with numbers below a bound have been told, of downloads and of changes. -/
def Observers.describe (o : Observers) (count : Nat) : Json :=
  .ofList (fun n => .ofList .ofNat [o.told n .publicDownloaded, o.told n .privateChanged]) (List.range count)

end ProximityCert
