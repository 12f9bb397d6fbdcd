import TextKit.Text.Basic

/-!
# Workspaces

The files that a run of the program can see, around one working directory. A
directory is not listed: it exists when it lies on the way to a file. The working
directory and those above it always exist, what else they hold is not known.

A path is followed part by part, and every part but the last must lead to a
directory, also when two dots lead back out of it. Separators after the last part
ask for a directory too. Reading gives the whole content or a fault. A file is
written in two steps: opening it takes away what it held, or creates it in a
directory that exists, and then content is written to it.
-/

namespace TextKit.Command

/-- Why a file cannot be read or written. -/
inductive StorageFault where
  | notFound
  | notDirectory
  | isDirectory
  | nameTooLong
  deriving DecidableEq, Repr

/-- The wording of a fault. -/
def StorageFault.message : StorageFault → String
  | notFound => "No such file or directory (os error 2)"
  | notDirectory => "Not a directory (os error 20)"
  | isDirectory => "Is a directory (os error 21)"
  | nameTooLong => "File name too long (os error 36)"

/-- The way to a file or directory: steps up from the working directory or a step to
the root, and then the names from there on. -/
abbrev Place := List Text

namespace Place

/-- The step to the root. -/
def root : Text := ['/']

/-- The step up. -/
def up : Text := ['.', '.']

/-- The directory that a place lies in. The root lies in itself. -/
def parent (place : Place) : Place :=
  if place = [root] then place
  else if place.all (· == up) then place ++ [up]
  else place.dropLast

end Place

/-- A path as it is written. -/
structure Path where
  start : Place
  /-- The parts between separators. -/
  parts : List Text
  /-- Whether a separator stands at the end. -/
  closed : Bool
  deriving DecidableEq, Repr

namespace Path

/-- The longest name of a file or directory, in bytes. -/
def nameLimit : Nat := 255

/-- The length from which on a path is refused, in bytes. -/
def lengthLimit : Nat := 4096

/-- Read a path. Separators in a row count as one. -/
def ofText (t : Text) : Path where
  start := if t.head? = some '/' then [Place.root] else []
  parts := (t.splitOnP (· == '/')).filter (! ·.isEmpty)
  closed := t.getLast? = some '/'

/-- The place that a path names when single dots are left out. -/
def place (path : Path) : Place := path.start ++ path.parts.filter (· ≠ ['.'])

end Path

/-- Files by their places. -/
structure Workspace where
  files : List (Place × Bytes)
  deriving DecidableEq, Repr

namespace Workspace

/-- The workspace that holds the given files. Of two with one path, the first counts. -/
def ofFiles (files : List (String × Bytes)) : Workspace :=
  ⟨files.map fun (name, content) => ((Path.ofText name.toList).place, content)⟩

/-- The content of the file at a place, if there is one. -/
def content? (w : Workspace) (place : Place) : Option Bytes := w.files.lookup place

/-- Whether a place is a directory. -/
def isDirectory (w : Workspace) (place : Place) : Bool :=
  place.all (· == Place.up) || place == [Place.root] ||
    w.files.any fun file => place.isPrefixOf file.1 && file.1 != place

/-- Refuse a name that is too long. -/
def requireName (name : Text) : Except StorageFault Unit :=
  if Path.nameLimit < Text.byteLength name then .error .nameTooLong else .ok ()

/-- The directory to which a part of a path leads from another one. -/
def descend (w : Workspace) (directory : Place) (part : Text) : Except StorageFault Place :=
  if part = ['.'] then .ok directory
  else if part = Place.up then .ok directory.parent
  else do
    requireName part
    let place := directory ++ [part]
    if w.isDirectory place then .ok place
    else if (w.content? place).isSome then .error .notDirectory
    else .error .notFound

/-- What a path leads to. -/
inductive Target where
  | directory
  /-- What may stand in a directory under a name. `closed` is as in the path. -/
  | entry (directory : Place) (name : Text) (closed : Bool)
  deriving DecidableEq, Repr

/-- Follow a path up to its last part. -/
def locate (w : Workspace) (path : String) : Except StorageFault Target := do
  let t := path.toList
  if t.isEmpty then throw .notFound
  if Path.lengthLimit ≤ Text.byteLength t then throw .nameTooLong
  let path := Path.ofText t
  let directory ← path.parts.dropLast.foldlM w.descend path.start
  match path.parts.getLast? with
  | none => return .directory
  | some name =>
    if name = ['.'] ∨ name = Place.up then return .directory
    else return .entry directory name path.closed

/-- The content of a file. -/
def read (w : Workspace) (path : String) : Except StorageFault Bytes := do
  match ← w.locate path with
  | .directory => throw .isDirectory
  | .entry directory name closed =>
    requireName name
    let place := directory ++ [name]
    match w.content? place with
    | some content => if closed then throw .notDirectory else return content
    | none => if w.isDirectory place then throw .isDirectory else throw .notFound

/-- Enter a file in place of any that was there. -/
def put (w : Workspace) (place : Place) (content : Bytes) : Workspace :=
  ⟨(place, content) :: w.files.filter (·.1 ≠ place)⟩

/-- Open a file to write to it. One that is there is emptied, and otherwise an empty one is
created. Gives the place of the file. -/
def create (w : Workspace) (path : String) : Except StorageFault (Place × Workspace) := do
  match ← w.locate path with
  | .directory => throw .isDirectory
  | .entry directory name closed =>
    if closed then throw .isDirectory
    requireName name
    let place := directory ++ [name]
    if w.isDirectory place then throw .isDirectory
    return (place, w.put place [])

/-- Write behind what a file holds. -/
def append (w : Workspace) (place : Place) (content : Bytes) : Workspace :=
  w.put place ((w.content? place).getD [] ++ content)

end Workspace
end TextKit.Command
