/-!
# Paths

A path is a list of steps with slashes between them. At the end of a path, slashes and steps
that stay in place do not matter.

## Main definitions

* `Path.parent` — the path of the directory that holds a file.
* `Path.join` — the path of a file in a directory.
* `Path.steps` — the steps of a path.
-/

namespace RegisterImage.Path

/-- A reversed path without the slashes and the steps in place at its end. -/
def dropIdle : List Char → List Char
  | ['/'] => ['/']
  | '/' :: s => dropIdle s
  | '.' :: '/' :: s => dropIdle ('/' :: s)
  | s => s
termination_by s => s.length

/-- The path of the directory that holds a file; empty when the path has no slash before its
last step. -/
def parent (path : String) : String :=
  match dropIdle path.toList.reverse with
  | ['/'] => ""
  | s => String.ofList (dropIdle (s.dropWhile (· ≠ '/'))).reverse

def isAbsolute (path : String) : Bool :=
  path.toList.head? = some '/'

def endsInSlash (path : String) : Bool :=
  path.toList.getLast? = some '/'

/-- A path without slashes at its end, one slash when there is nothing else. -/
def withoutSlashes (path : String) : String :=
  match path.toList.reverse.dropWhile (· = '/') with
  | [] => if path.isEmpty then "" else "/"
  | s => String.ofList s.reverse

/-- The path of a file in a directory. The name stands alone when it begins with a slash. -/
def join (directory name : String) : String :=
  if isAbsolute name || directory.isEmpty || endsInSlash directory then
    if isAbsolute name then name else directory ++ name
  else directory ++ "/" ++ name

/-- The directory that holds a file, the present one when the path names none. -/
def directory (path : String) : String :=
  if (parent path).isEmpty then "." else parent path

def steps (path : String) : List String :=
  path.splitOn "/"

end RegisterImage.Path
