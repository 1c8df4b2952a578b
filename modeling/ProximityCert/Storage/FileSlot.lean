import ProximityCert.Bytes
import ProximityCert.Failure

/-!
Places for files. A place is named relative to a folder that holds nothing else, and its file is
replaced by a temporary one that is written beside it first.
-/

namespace ProximityCert

/-- What stands at a path; nothing can stand where no folder leads. -/
inductive FileNode | missing | file (content : Bytes) | directory | unreachable
  deriving DecidableEq

def FileNode.content? : FileNode → Option Bytes
  | file content => some content
  | _ => none

/-- Whether a file can be put here: no directory is in the way and the path leads somewhere. -/
def FileNode.takesFile : FileNode → Bool
  | missing | file _ => true
  | directory | unreachable => false

/-- A place for one file, and whether a temporary file can stand beside it. -/
structure FileSlot where
  node : FileNode := .missing
  writable : Bool := true
  deriving DecidableEq

namespace FileSlot

/-- The text of a failure that the file system reports. -/
def fault : Failure := .io "file system error"

/-- The longest name that a folder holds, in octets. -/
def maxNameLength : Nat := 255

/-- What the name of a temporary file adds. -/
def temporarySuffix : String := ".tmp"

/-- The parts of a path that lead to folders which are always there. -/
def staysInFolders (part : String) : Bool := part = "" || part = "." || part = ".."

def isName (part : String) : Bool := part.utf8ByteSize ≤ maxNameLength && !part.contains (Char.ofNat 0)

/-- The place that a path leads to: folders of other names are missing. -/
def ofPath (path : String) : FileSlot :=
  let parts := path.splitOn "/"
  let last := parts.getLastD ""
  if !parts.dropLast.all staysInFolders || !isName last then ⟨.unreachable, false⟩
  else if staysInFolders last then ⟨.directory, false⟩
  else ⟨.missing, isName (last ++ temporarySuffix)⟩

/-- Puts a file here from outside, where one can be. -/
def put (s : FileSlot) (content : Bytes) : FileSlot :=
  if s.node.takesFile then { s with node := .file content } else s

/-- Writes a temporary file and puts it into place. -/
def replace (s : FileSlot) (content : Bytes) : Except Failure FileSlot :=
  if s.node.takesFile && s.writable then .ok { s with node := .file content } else .error fault

/-- Removes the file; an absent one is no failure. -/
def remove (s : FileSlot) : Except Failure FileSlot :=
  match s.node with
  | .directory => .error fault
  | .file _ => .ok { s with node := .missing }
  | .missing | .unreachable => .ok s

end FileSlot
end ProximityCert
