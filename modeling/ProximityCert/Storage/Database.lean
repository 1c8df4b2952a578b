import ProximityCert.Storage.Preferences
import ProximityCert.Wire.PublicCertificate

/-!
The database of downloaded certificates: rows under their secret ids, in memory with failures that
can be called for, or in a file of framed messages that is cached once it has been read.
-/

namespace ProximityCert

abbrev Rows := SortedMap Bytes PublicCertificate

namespace Rows

/-- Puts certificates in under their ids; of equal ids the last stays. -/
def upsert (rows : Rows) (certificates : List PublicCertificate) : Rows :=
  rows.insertAll (certificates.map fun c => (c.secretId, c))

def removeAll (rows : Rows) (ids : List Bytes) : Rows := ids.foldl (fun rows id => rows.erase id) rows

/-- The rows of a file's content, or none if any part of it is malformed. -/
def decode (content : Bytes) : Option Rows := (Message.decodeList content).map fun cs => upsert .empty cs

def encode (rows : Rows) : Bytes := Message.encodeList rows.values

end Rows

/-- How an attempt to open the database ends: it may be tried again after an error, and must be
emptied first if it is corrupt. -/
inductive OpenResult | ok | error | corrupt
  deriving DecidableEq

structure MemoryDatabase where
  rows : Rows := .empty
  /-- Results of the next attempts to open; after them every attempt succeeds. -/
  openScript : List OpenResult := []
  failOperations : Bool := false
  failDestroy : Bool := false
  destroyed : Nat := 0

structure FileDatabase where
  slot : FileSlot := {}
  /-- The rows, once the file has been read. -/
  cached : Option Rows := none

inductive Database | memory (m : MemoryDatabase) | file (f : FileDatabase)

namespace MemoryDatabase

def operationFault : Failure := .storage "scripted database failure"
def destroyFault : Failure := .storage "scripted destroy failure"

def openUp (m : MemoryDatabase) : OpenResult × MemoryDatabase :=
  match m.openScript with
  | [] => (.ok, m)
  | r :: rest => (r, { m with openScript := rest })

def destroy (m : MemoryDatabase) : Except Failure Unit × MemoryDatabase :=
  if m.failDestroy then (.error destroyFault, m) else (.ok (), { m with rows := .empty, destroyed := m.destroyed + 1 })

def load (m : MemoryDatabase) : Except Failure (List PublicCertificate) :=
  if m.failOperations then .error operationFault else .ok m.rows.values

def update (m : MemoryDatabase) (change : Rows → Rows) : Except Failure Unit × MemoryDatabase :=
  if m.failOperations then (.error operationFault, m) else (.ok (), { m with rows := change m.rows })

end MemoryDatabase

namespace FileDatabase

def notOpened : Failure := .storage "database not initialized"

/-- Reads the file; an absent one holds no rows. A file that cannot be read is an error, one that
cannot be decoded is corrupt, and neither changes the cached rows. -/
def openUp (f : FileDatabase) : OpenResult × FileDatabase :=
  match f.slot.node with
  | .directory => (.error, f)
  | .missing | .unreachable => (.ok, { f with cached := some .empty })
  | .file content =>
    match Rows.decode content with
    | some rows => (.ok, { f with cached := some rows })
    | none => (.corrupt, f)

def destroy (f : FileDatabase) : Except Failure Unit × FileDatabase :=
  match f.slot.remove with
  | .ok slot => (.ok (), { slot, cached := none })
  | .error e => (.error e, f)

def load (f : FileDatabase) : Except Failure (List PublicCertificate) :=
  match f.cached with
  | some rows => .ok rows.values
  | none => .error notOpened

/-- Changes the cached rows and writes them; the cache stays changed if writing fails. -/
def update (f : FileDatabase) (change : Rows → Rows) : Except Failure Unit × FileDatabase :=
  match f.cached with
  | none => (.error notOpened, f)
  | some rows =>
    match f.slot.replace (change rows).encode with
    | .ok slot => (.ok (), { slot, cached := some (change rows) })
    | .error e => (.error e, { f with cached := some (change rows) })

end FileDatabase

namespace Database

def openUp : Database → OpenResult × Database
  | memory m => (m.openUp.1, memory m.openUp.2)
  | file f => (f.openUp.1, file f.openUp.2)

/-- Erases everything, also what cannot be read. -/
def destroy : Database → Except Failure Unit × Database
  | memory m => (m.destroy.1, memory m.destroy.2)
  | file f => (f.destroy.1, file f.destroy.2)

def load : Database → Except Failure (List PublicCertificate)
  | memory m => m.load
  | file f => f.load

def update (change : Rows → Rows) : Database → Except Failure Unit × Database
  | memory m => ((m.update change).1, memory (m.update change).2)
  | file f => ((f.update change).1, file (f.update change).2)

def add (d : Database) (certificates : List PublicCertificate) : Except Failure Unit × Database :=
  d.update fun rows => Rows.upsert rows certificates

def remove (d : Database) (ids : List Bytes) : Except Failure Unit × Database := d.update fun rows => Rows.removeAll rows ids

def clear (d : Database) : Except Failure Unit × Database := d.update fun _ => .empty

/-- A new database object on the same data: what was cached from a file is forgotten. -/
def reopened : Database → Database
  | memory m => memory m
  | file f => file { f with cached := none }

end Database
end ProximityCert
