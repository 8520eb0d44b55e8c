/-!
# A directory of files

Files and folders by their paths inside a directory. A path is followed name by name; what lies
outside of the directory is not there.
-/

namespace Lox.CommandLine

/-- The names that lead from a directory to a place inside it. -/
abbrev Path := List String

/-- Why a file cannot be opened. -/
inductive OpenError
  | notFound
  | notFolder
  | isFolder
  deriving DecidableEq

/-- The wording of an error. -/
def OpenError.text : OpenError → String
  | notFound => "No such file or directory"
  | notFolder => "Not a directory"
  | isFolder => "Is a directory"

/-- The number of an error. -/
def OpenError.number : OpenError → Nat
  | notFound => 2
  | notFolder => 20
  | isFolder => 21

/-- The files in a directory with their bytes, and its folders. -/
structure Directory where
  files : List (Path × List UInt8)
  folders : List Path

namespace Directory

/-- The bytes of a file. -/
def file? (d : Directory) (path : Path) : Option (List UInt8) := d.files.lookup path

/-- Whether a folder is at a place, be it only for the files in it. -/
def hasFolder (d : Directory) (path : Path) : Bool :=
  path.isEmpty || d.folders.any path.isPrefixOf || d.files.any fun (p, _) => path.isPrefixOf p && p != path

/-- Puts a file in place of any other at its path. -/
def insert (d : Directory) (path : Path) (bytes : List UInt8) : Directory :=
  { d with files := (path, bytes) :: d.files.filter (·.1 != path) }

/-- What is at a place. -/
inductive Place
  | file (path : Path) (bytes : List UInt8)
  | folder (path : Path)
  /-- Nothing, in a folder where a file can be made. -/
  | vacant (path : Path)
  deriving DecidableEq

/-- The place that names lead to from a folder. -/
def follow (d : Directory) (folder : Path) : List String → Except OpenError Place
  | [] => .ok (.folder folder)
  | "" :: rest => d.follow folder rest
  | "." :: rest => d.follow folder rest
  | ".." :: rest => if folder.isEmpty then .error .notFound else d.follow folder.dropLast rest
  | name :: rest =>
    let path := folder ++ [name]
    match d.file? path with
    | some bytes => if rest.isEmpty then .ok (.file path bytes) else .error .notFolder
    | none =>
      if d.hasFolder path then d.follow path rest
      else match rest with
        | [] => .ok (.vacant path)
        | [""] => .ok (.vacant path)
        | _ => .error .notFound

/-- The names in a text, with slashes between them. -/
def names (text : String) : List String := (text.toList.splitOn '/').map String.ofList

/-- The place that a text names; one that starts with a slash lies outside. -/
def place (d : Directory) (text : String) : Except OpenError Place :=
  if text.startsWith "/" || text.isEmpty then .error .notFound else d.follow [] (names text)

/-- The bytes of the file that a text names. -/
def read (d : Directory) (text : String) : Except OpenError (List UInt8) :=
  match d.place text with
  | .ok (.file _ bytes) => .ok bytes
  | .ok (.folder _) => .error .isFolder
  | .ok (.vacant _) => .error .notFound
  | .error e => .error e

/-- The path of the file that is to be written under a name. -/
def writable (d : Directory) (text : String) : Except OpenError Path :=
  match d.place text with
  | .ok (.file path _) => .ok path
  | .ok (.folder _) => .error .isFolder
  | .ok (.vacant path) => if text.endsWith "/" then .error .isFolder else .ok path
  | .error e => .error e

end Directory

end Lox.CommandLine
