import ProximityCert.Manager.Contacts
import ProximityCert.Manager.Refresh

/-! The commands of a manager, which are carried out one after the other. -/

namespace ProximityCert

inductive Command
  | start | stop
  | getValid (v : Visibility) | encryptKey (v : Visibility)
  | sign (v : Visibility) (payload : Bytes) | hashToken (v : Visibility) (token : Bytes)
  | openPublic (key : EncryptedMetadataKey) | asPublic (v : Visibility)
  | downloadNow | clearPublic
  /-- The device's data or contacts may have changed. -/
  | regenerate (changed : Bool)
  | dump
  | run (task : TaskKind)

inductive Reply
  | done | flag (b : Bool) | text (s : String) | octets (bs : Option Bytes)
  | certificate (c : Option PrivateCertificate) | key (k : Option EncryptedMetadataKey)
  | opened (c : Option DecryptedCertificate) | published (cs : List PublicCertificate)

/-- What is heard of a command that is never carried out to its end. -/
def Command.unanswered : Command → Reply
  | .getValid _ => .certificate none
  | .encryptKey _ => .key none
  | .sign _ _ | .hashToken _ _ => .octets none
  | .openPublic _ => .opened none
  | .asPublic _ => .published []
  | .clearPublic => .flag false
  | .dump => .text ""
  | .start | .stop | .downloadNow | .regenerate _ | .run _ => .done

namespace Manager

/-- A listing of the ids of all certificates; unreadable private ones are not counted. -/
def dump (m : Manager) : String :=
  let line (s : String) : String := "  " ++ s ++ "\n"
  let publics := m.store.publicIds
  let privates := (m.store.getPrivate.toOption).getD []
  "Public certificates\n" ++ line ("Total count: " ++ toString publics.length) ++
    String.join (publics.map fun id => line (Hex.encode id)) ++
    "Private certificates\n" ++ line ("Total count: " ++ toString privates.length) ++
    String.join (privates.map fun c => line (Hex.encode c.id ++ " " ++ c.visibility.name))

/-- The work of a task, and whether it succeeded. -/
def work (m : Manager) (now : Moment) : TaskKind → Except Interrupted (Bool × Manager)
  | .refresh => m.refresh true now
  | .cleanup => m.removeExpired now
  | .upload => m.upload now
  | .download => m.download now

/-- Runs a task and reports its outcome to it. -/
def complete (m : Manager) (task : TaskKind) (now : Moment) : Except Interrupted Manager := do
  let (success, m) ← m.work now task
  m.act task (.handleResult success) now

/-- Carries out a command. A stopped manager runs no tasks. -/
def perform (m : Manager) (now : Moment) : Command → Except Interrupted (Reply × Manager)
  | .start => (m.start now).map fun m => (.done, m)
  | .stop => (m.stop now).map fun m => (.done, m)
  | .getValid v => (m.getValid v now).map fun (c, m) => (.certificate c, m)
  | .encryptKey v => (m.encryptMetadataKey v now).map fun (k, m) => (.key k, m)
  | .sign v payload => (m.sign v payload now).map fun (s, m) => (.octets s, m)
  | .hashToken v token => (m.tokenHash v token now).map fun (h, m) => (.octets h, m)
  | .openPublic key => (m.openPublic key).map fun (c, m) => (.opened c, m)
  | .asPublic v => (m.asPublic v now).map fun (cs, m) => (.published cs, m)
  | .downloadNow => (m.act .download .requestNow now).map fun m => (.done, m)
  | .clearPublic => (m.clearPublic now).map fun (r, m) => (.flag r, m)
  | .regenerate changed =>
    if changed then (m.clearPrivate.requestRefresh now).map fun m => (.done, m) else .ok (.done, m)
  | .dump => .ok (.text m.dump, m)
  | .run task => if m.running then (m.complete task now).map fun m => (.done, m) else .ok (.done, m)

end Manager
end ProximityCert
