/-!
# Files

A tree of files as a program sees it from its working directory. Paths are looked up part by part;
a path that leads through a file, or that ends in a slash after one, leads nowhere.
-/

namespace BuildQueue

/-- What a path may lead to. -/
inductive FileEntry where
  | file (bytes : ByteArray)
  | directory

/-- Why a path or a file cannot be read. -/
inductive FileFault where
  | missing
  | notDirectory
  | directory
  | notUtf8
  deriving DecidableEq, Repr

def FileFault.message : FileFault → String
  | .missing => "No such file or directory (os error 2)"
  | .notDirectory => "Not a directory (os error 20)"
  | .directory => "Is a directory (os error 21)"
  | .notUtf8 => "stream did not contain valid UTF-8"

/-- The parts of a path. -/
abbrev PathParts := List String

/-- The files below the working directory, by their paths; every path to one has its directories. -/
structure FileTree where
  files : List (PathParts × ByteArray)

namespace FileTree

def empty : FileTree := ⟨[]⟩

/-- The parts of a path that says anything; a dot stands for its directory itself. -/
def parts (path : String) : PathParts :=
  (path.splitToList (· = '/')).filter fun part ↦ part ≠ "" ∧ part ≠ "."

def ofFiles (files : List (String × ByteArray)) : FileTree :=
  ⟨files.map fun (path, bytes) ↦ (parts path, bytes)⟩

def find? (tree : FileTree) (path : PathParts) : Option ByteArray :=
  (tree.files.find? (·.1 = path)).map (·.2)

/-- Some file lies below the path. -/
def isDirectory (tree : FileTree) (path : PathParts) : Bool :=
  path.isEmpty || tree.files.any fun file ↦ path.isPrefixOf file.1 && path.length < file.1.length

/-- Follows a path from a directory. -/
def follow (tree : FileTree) (base : PathParts) : PathParts → Except FileFault FileEntry
  | [] => .ok .directory
  | ".." :: rest => follow tree base.dropLast rest
  | part :: rest =>
    let here := base ++ [part]
    if tree.isDirectory here then follow tree here rest
    else
      match tree.find? here with
      | none => .error .missing
      | some bytes => if rest.isEmpty then .ok (.file bytes) else .error .notDirectory

/-- A path that has to lead to a directory. -/
def namesDirectory (path : String) : Bool := path.endsWith "/" || path.endsWith "/."

/-- What a relative path leads to. -/
def lookUp (tree : FileTree) (path : String) : Except FileFault FileEntry :=
  if path = "" || path.startsWith "/" then .error .missing
  else
    match tree.follow [] (parts path) with
    | .ok (.file bytes) =>
      if namesDirectory path then .error .notDirectory else .ok (.file bytes)
    | found => found

def exists? (tree : FileTree) (path : String) : Bool := (tree.lookUp path).isOk

/-- The text of a file. -/
def readText (tree : FileTree) (path : String) : Except FileFault String :=
  match tree.lookUp path with
  | .error fault => .error fault
  | .ok .directory => .error .directory
  | .ok (.file bytes) =>
    match String.fromUTF8? bytes with
    | some text => .ok text
    | none => .error .notUtf8

end FileTree

end BuildQueue
