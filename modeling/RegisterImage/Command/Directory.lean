import RegisterImage.Command.Path
import RegisterImage.Error

/-!
# Directories

The files below one directory, which is the present one. Paths may lead out of it: the directory
above and the root directory are there, and nothing is in them.

A file is written in two moves. A temporary file in the directory of the target takes the
content, and then takes the place of the target. The temporary file is named by its path from
the root, which is why a directory knows its own path.

## Main definitions

* `Files` — the content of each file, or why it cannot be read.
* `Directory` — the files below a directory.
* `Directory.read`, `Directory.write` — a file read and written.
* `WriteFault` — why a file is not written.
-/

namespace RegisterImage

/-- The content of each file, or why it cannot be read. -/
abbrev Files := String → Except SystemFault Bytes

inductive WriteFault where
  /-- There is no place for the temporary file. -/
  | noTemporary (directory : String) (fault : SystemFault)
  /-- The temporary file cannot take the place of the target. -/
  | notReplaced (path : String) (fault : SystemFault)
  deriving DecidableEq, Repr

/-- The steps from the present directory to a file. Places outside begin with a step that is no
name of a file: two dots, or a slash. -/
abbrev Place := List String

def Place.above : Place := [".."]

def Place.root : Place := ["/"]

def Place.isOutside (place : Place) : Bool :=
  place.head? = some ".." || place.head? = some "/"

/-- The directory that holds a place. -/
def Place.up (place : Place) : Place :=
  if place = [] ∨ place = above then above
  else if place = root then root
  else place.dropLast

structure Directory where
  /-- The path of the directory, from the root. -/
  path : String
  files : List (Place × Bytes)
  deriving DecidableEq, Repr

namespace Directory

def ofFiles (path : String) (files : List (String × Bytes)) : Directory :=
  ⟨path, files.map fun f => (Path.steps f.1, f.2)⟩

def file? (d : Directory) (place : Place) : Option Bytes :=
  d.files.lookup place

/-- Whether there is a directory at a place. -/
def hasDirectory (d : Directory) (place : Place) : Bool :=
  place = [] || place = .above || place = .root ||
    d.files.any fun f => decide (place.length < f.1.length) && place.isPrefixOf f.1

/-- The longest name of a file in bytes. -/
def maxName : Nat := 255

/-- The longest path in bytes. -/
def maxPath : Nat := 4095

/-- The place that steps lead to. There has to be a directory before every step. -/
def walk (d : Directory) : Place → List String → Except SystemFault Place
  | place, [] => .ok place
  | place, step :: steps =>
    if d.hasDirectory place then
      if step = "" ∨ step = "." then d.walk place steps
      else if step = ".." then d.walk place.up steps
      else if maxName < step.utf8ByteSize then .error .nameTooLong
      else d.walk (place ++ [step]) steps
    else if (d.file? place).isSome then .error .notDirectory
    else .error .notFound

/-- What a path has to be before its steps are looked at. -/
def checkPath (path : String) : Except SystemFault Unit :=
  if path.toList.contains '\x00' then .error .nulInName
  else if path.isEmpty then .error .notFound
  else if maxPath < path.utf8ByteSize then .error .nameTooLong
  else .ok ()

/-- The place of a path. Nothing needs to be there. -/
def locate (d : Directory) (path : String) : Except SystemFault Place := do
  checkPath path
  d.walk (if Path.isAbsolute path then .root else []) (Path.steps path)

def read (d : Directory) : Files := fun path => do
  let place ← d.locate path
  match d.file? place with
  | some content => return content
  | none => throw (if d.hasDirectory place then .isDirectory else .notFound)

/-- The last step of a path, one in place when there is none. -/
def lastStep (path : String) : String :=
  ((Path.steps path).reverse.find? (· ≠ "")).getD "."

/-- The place that a file takes over. Directories do not give way. -/
def target (d : Directory) (path : String) : Except SystemFault Place := do
  checkPath path
  let place ← d.locate (Path.withoutSlashes path)
  if lastStep path = "." ∨ lastStep path = ".." then throw .busy
  if Path.endsInSlash path then throw .notDirectory
  if d.hasDirectory place then throw .isDirectory
  return place

/-- The name of a temporary file. Names are equally long for all stamps. -/
def temporaryName (stamp : Nat) : String :=
  ".image-" ++ String.ofList (paddedNumeral 10 8 (stamp % 100000000)) ++ ".tmp"

/-- The place of a temporary file, which is created under its path from the root. -/
def temporary (d : Directory) (directory : String) : Except SystemFault Place := do
  let path := Path.join directory (temporaryName 0)
  checkPath (Path.join d.path path)
  d.locate path

def put (d : Directory) (place : Place) (content : Bytes) : Directory :=
  { d with files := d.files.filter (·.1 ≠ place) ++ [(place, content)] }

def write (d : Directory) (path : String) (content : Bytes) : Except WriteFault Directory := do
  let directory := Path.directory path
  let _ ← (d.temporary directory).mapError (.noTemporary directory)
  let place ← (d.target path).mapError (.notReplaced path)
  return d.put place content

end Directory

end RegisterImage
