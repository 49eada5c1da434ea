/-!
# Files in a directory

The files and directories below one directory. A path from it is followed part by part: a dot stays,
two dots go up but not out of the directory, and nothing can follow a file. Writing a file makes the
directories on the way to it, also those that its path leaves again.
-/

namespace VirtualPrinter

/-- Directories, and the bytes of files, by place: the names on the way down to them. -/
structure Disk where
  directories : List (List String) := []
  files : List (List String × List UInt8) := []

namespace Disk

def pathParts (path : String) : List String := path.splitOn "/"

/-- Paths of this many bytes or more lead nowhere. -/
def pathLimit : Nat := 4096

/-- Whether a path leads from the directory at all: paths from the root lead elsewhere. -/
def isRelative (path : String) : Bool :=
  path.toList.head? ≠ some '/' && path.utf8ByteSize < pathLimit

/-- The place that a part of a path names in a directory; there is none above the topmost. -/
def place? (directory : List String) (part : String) : Option (List String) :=
  if part = "" ∨ part = "." then some directory
  else if part = ".." then
    if directory = [] then none else some directory.dropLast
  else some (directory ++ [part])

def isDirectory (d : Disk) (place : List String) : Bool :=
  place = [] || d.directories.contains place

/-! ### Reading -/

/-- Follows the parts of a path from a directory to a file. -/
def follow? (d : Disk) (directory : List String) : List String → Option (List UInt8)
  | [] => none
  | part :: rest =>
    match place? directory part with
    | none => none
    | some place =>
      if d.isDirectory place then d.follow? place rest
      else if rest = [] then d.files.lookup place
      else none

def read? (d : Disk) (path : String) : Option (List UInt8) :=
  if isRelative path then d.follow? [] (pathParts path) else none

/-! ### Writing -/

/-- Writes a file at the end of the parts of a path from a directory. -/
def writeFrom (d : Disk) (directory : List String) (bytes : List UInt8) : List String → Disk
  | [] => d
  | part :: rest =>
    match place? directory part, rest with
    | none, _ => d
    | some place, [] => { d with files := (place, bytes) :: d.files }
    | some place, _ :: _ =>
      writeFrom { d with directories := place :: d.directories } place bytes rest

/-- Writes the bytes of the file at a path, in place of any that were there. -/
def write (d : Disk) (path : String) (bytes : List UInt8) : Disk :=
  if isRelative path then d.writeFrom [] bytes (pathParts path) else d

end Disk

end VirtualPrinter
