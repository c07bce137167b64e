/-
A disk: files and directories, by name.

A path is followed part by part from the working directory or the root.
Each step has to be a directory; a missing one and a file in its place
are told apart. Names and paths have a limited number of bytes and no zero
character. Reading a directory fails when it is read, not when it is
opened.
-/
import LispShell.Fault
import LispShell.Path

namespace LispShell

/-- What a name on the disk stands for. -/
inductive Entry where
  | file (content : String)
  | directory

/-- The entries of a disk, each under the parts of its absolute path. The
root itself is not listed. -/
abbrev Disk := List (List String × Entry)

namespace Disk

/-- The entry under the parts of an absolute path. -/
def entry? (d : Disk) (place : List String) : Option Entry :=
  if place.isEmpty then some .directory else d.lookup place

/-- How many bytes a name can have. -/
def nameLimit : Nat := 255

/-- How many bytes a path can have. -/
def pathLimit : Nat := 4095

/-- Follows the parts of a path from a place, kept last part first. -/
def follow (d : Disk) (place : List String) : List String → Except FileTrouble (List String)
  | [] => .ok place
  | part :: rest =>
    match d.entry? place.reverse with
    | none => .error .missing
    | some (.file _) => .error .notDirectory
    | some .directory =>
      if part == "" || part == "." then follow d place rest
      else if part == ".." then follow d place.tail rest
      else if nameLimit < part.length then .error .tooLong
      else follow d (part :: place) rest

/-- The place that a path leads to, seen from a working directory. -/
def locate (d : Disk) (directory p : String) : Except FileTrouble (List String) :=
  if p.toList.contains '\x00' then .error .unusable
  else if p == "" then .error .missing
  else if pathLimit < p.length then .error .tooLong
  else
    let start := if Path.isAbsolute p then [] else
      ((Path.parts directory).filter (· != "")).reverse
    (follow d start (Path.parts p)).map List.reverse

/-- What a path leads to. -/
def stat (d : Disk) (directory p : String) : Except FileTrouble Entry := do
  let place ← d.locate directory p
  match d.entry? place with
  | some e => .ok e
  | none => .error .missing

/-- The content of a file. -/
def read (d : Disk) (directory p : String) : Except Failure String :=
  match d.stat directory p with
  | .ok (.file content) => .ok content
  | .ok .directory => .error (.file "read" p .isDirectory)
  | .error trouble => .error (.file "open" p trouble)

/-- Replaces or adds an entry. -/
def put (d : Disk) (place : List String) (e : Entry) : Disk :=
  match d with
  | [] => [(place, e)]
  | (p, old) :: rest => if p == place then (p, e) :: rest else (p, old) :: put rest place e

/-- Writes a file, making it if it does not exist; the disk stays as it is
if that is not possible. -/
def write (d : Disk) (directory p content : String) : Disk :=
  match d.locate directory p with
  | .error _ => d
  | .ok place =>
    match d.entry? place, d.entry? place.dropLast with
    | some .directory, _ => d
    | _, some .directory => d.put place (.file content)
    | _, _ => d

/-- Adds the directories that a place lies in. -/
def putParents (d : Disk) (place : List String) : Disk :=
  (List.range place.length).foldl (fun d n =>
    if n == 0 || (d.lookup (place.take n)).isSome then d
    else d.put (place.take n) .directory) d

/-- Adds a file or, if the name ends in a slash, a directory, with the
directories it lies in. -/
def add (d : Disk) (directory name content : String) : Disk :=
  let place := (Path.parts (Path.absolute directory name)).filter (· != "")
  let d := d.putParents place
  if name.toList.getLast? == some '/' then d.put place .directory else d.put place (.file content)

end Disk

end LispShell
