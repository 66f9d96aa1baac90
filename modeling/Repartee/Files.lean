/-
  Repartee.Files — the files that rules are loaded from, as a value.

  A file is known by the names on its path; `.` and empty names do not count and `..` takes one
  back. A file has a text unless its bytes are not UTF-8. Everything on the way to a file is a
  directory, so a path that leads through a file, or through nothing, names nothing.
-/

import Repartee.Dict
import Repartee.Text.Split

namespace Repartee

inductive FileEntry where
  /-- A file, with its text if it has one. -/
  | file (text : Option String)
  | directory
  deriving DecidableEq, Repr

structure Files where
  entries : Dict FileEntry := ∅
  deriving DecidableEq, Repr

namespace Files

/-- The names on a path, the last one first. -/
def resolveFrom (names : List String) : List String → List String
  | [] => names
  | name :: path =>
    if name = "" ∨ name = "." then resolveFrom names path
    else if name = ".." then resolveFrom names.tail path
    else resolveFrom (name :: names) path

def pathNames (path : String) : List String := (Text.fields (· == '/') path.toList).map .ofList

/-- The names on a path, from the outermost directory. -/
def resolve (path : String) : List String := (resolveFrom [] (pathNames path)).reverse

def keyOf (names : List String) : String := "/".intercalate names

/-- Make a directory and those around it. -/
def makeDirectory (f : Files) (names : List String) : Files :=
  { entries := (List.range (names.length + 1)).foldl
      (fun d n => if n = 0 then d else d.put (keyOf (names.take n)) .directory) f.entries }

/-- Write a file, making the directories around it. -/
def write (f : Files) (path : String) (text : Option String) : Files :=
  let names := resolve path
  { entries := (f.makeDirectory names.dropLast).entries.put (keyOf names) (.file text) }

def remove (f : Files) (path : String) : Files := { entries := f.entries.erase (keyOf (resolve path)) }

/-- The entry with the given names, the last one first; with none, the directory all paths start
from. -/
def entryAt? (f : Files) : List String → Option FileEntry
  | [] => some .directory
  | names => f.entries.find? (keyOf names.reverse)

/-- The entry that a path leads to from the place with the given names, the last one first. Every
name on the way, also `.` and `..`, is looked up in a directory. -/
def walk (f : Files) (names : List String) : List String → Option FileEntry
  | [] => f.entryAt? names
  | name :: path =>
    if f.entryAt? names = some .directory then
      if name = "" ∨ name = "." then f.walk names path
      else if name = ".." then f.walk names.tail path
      else f.walk (name :: names) path
    else none

def entry? (f : Files) (path : String) : Option FileEntry :=
  if path = "" then none else f.walk [] (pathNames path)

def isDirectory (f : Files) (path : String) : Bool := f.entry? path = some .directory

/-- The text of a file, if there is one. -/
def readText? (f : Files) (path : String) : Option String :=
  match f.entry? path with
  | some (.file text) => text
  | _ => none

/-- Whether a path ends in a slash, after which a name can follow at once. -/
def endsInSlash (path : String) : Bool := path.toList.getLast? = some '/'

/-- The path of a member of a directory. -/
def member (directory name : String) : String :=
  if endsInSlash directory then directory ++ name else directory ++ "/" ++ name

/-- The last name on the path of an entry, if the entry is a file right in the given directory. -/
def fileName? (directory : List String) : String × FileEntry → Option String
  | (path, .file _) =>
    if (pathNames path).dropLast = directory then (pathNames path).getLast? else none
  | (_, .directory) => none

/-- The names of the files in a directory, in ascending order; none if it is no directory. -/
def filesIn? (f : Files) (directory : String) : Option (List String) :=
  if f.isDirectory directory then some (f.entries.entries.filterMap (fileName? (resolve directory))) else none

/-- What follows the last point of a name, if something stands before that point. -/
def extension? (name : String) : Option String :=
  let cs := name.toList.reverse
  match Text.cutOnce (· == '.') cs with
  | some (ext, _ :: _) => some (.ofList ext.reverse)
  | _ => none

end Files

end Repartee
