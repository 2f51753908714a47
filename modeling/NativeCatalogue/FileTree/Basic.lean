import NativeCatalogue.Calendar.Basic
import NativeCatalogue.FileTree.Path

/-!
Trees of files and directories, seen from a working directory. The steps of a path are taken one by
one, and each needs a directory to start from. A file is written in a directory that is there, in
place of the file of that name. Outside the working directory there are directories of which nothing
is known.
-/

set_option autoImplicit false

namespace NativeCatalogue

/-- A file, or a directory with its entries in the order in which it lists them. -/
inductive FileTree where
  | file (bytes : ByteArray) (modified : Calendar.Instant)
  | directory (entries : List (String × FileTree))
  deriving Inhabited

inductive FileError where
  | notFound
  | notDirectory
  | isDirectory
  | notText
  | nameTooLong
  | badName
  deriving DecidableEq, Repr

def FileError.message : FileError → String
  | .notFound => "No such file or directory (os error 2)"
  | .notDirectory => "Not a directory (os error 20)"
  | .isDirectory => "Is a directory (os error 21)"
  | .notText => "stream did not contain valid UTF-8"
  | .nameTooLong => "File name too long (os error 36)"
  | .badName => "file name contained an unexpected NUL byte"

namespace FileTree

def empty : FileTree :=
  .directory []

def setEntry (name : String) (node : FileTree) : List (String × FileTree) → List (String × FileTree)
  | [] => [(name, node)]
  | (n, t) :: rest => if n = name then (name, node) :: rest else (n, t) :: setEntry name node rest

def at? (t : FileTree) : List String → Option FileTree
  | [] => some t
  | name :: rest =>
    match t with
    | .file .. => none
    | .directory entries => (entries.lookup name).bind (at? · rest)

/-- Puts a node at the end of a row of names. Directories that are missing are made; a file on the way
    stays as it is. -/
def setAt (t : FileTree) (node : FileTree) : List String → FileTree
  | [] => node
  | name :: rest =>
    match t with
    | .file bytes modified => .file bytes modified
    | .directory entries =>
      .directory (setEntry name (setAt ((entries.lookup name).getD empty) node rest) entries)

def eraseAt (t : FileTree) : List String → FileTree
  | [] => t
  | name :: rest =>
    match t with
    | .file bytes modified => .file bytes modified
    | .directory entries =>
      match rest, entries.lookup name with
      | [], _ => .directory (entries.filter (·.1 ≠ name))
      | _ :: _, none => .directory entries
      | _ :: _, some child => .directory (setEntry name (eraseAt child rest) entries)

mutual

def filesUnder (names : List String) : FileTree → List (List String × ByteArray)
  | .file bytes _ => [(names, bytes)]
  | .directory entries => filesAmong names entries

def filesAmong (names : List String) : List (String × FileTree) → List (List String × ByteArray)
  | [] => []
  | (name, node) :: rest => node.filesUnder (names ++ [name]) ++ filesAmong names rest

end

def files (t : FileTree) : List (List String × ByteArray) :=
  t.filesUnder []

inductive Place where
  | outside
  /-- The end of a row of names. -/
  | inside (names : List String)
  deriving DecidableEq, Repr

def nodeAt? (t : FileTree) : Place → Option FileTree
  | .outside => some .empty
  | .inside names => t.at? names

def nameLimit : Nat := 255

def pathLimit : Nat := 4095

def Place.entry (place : Place) (entries : List (String × FileTree)) (name : String) :
    Except FileError Place :=
  if nameLimit < name.utf8ByteSize then .error .nameTooLong
  else
    match place, entries.lookup name with
    | .inside names, some _ => .ok (.inside (names ++ [name]))
    | _, _ => .error .notFound

def step (t : FileTree) (place : Place) (s : PathStep) : Except FileError Place :=
  match t.nodeAt? place with
  | some (.directory entries) =>
    match s with
    | .root => .ok .outside
    | .current => .ok place
    | .parent =>
      match place with
      | .inside (name :: rest) => .ok (.inside (name :: rest).dropLast)
      | _ => .ok .outside
    | .name name => place.entry entries name
  | _ => .error .notDirectory

def resolve (t : FileTree) (steps : List PathStep) : Except FileError Place :=
  steps.foldlM t.step (.inside [])

def checkPath (p : Path) : Except FileError Unit :=
  if p.text.toList.contains '\x00' then .error .badName
  else if p.text = "" then .error .notFound
  else if pathLimit < p.text.utf8ByteSize then .error .nameTooLong
  else .ok ()

def find (t : FileTree) (p : Path) : Except FileError FileTree := do
  checkPath p
  match t.nodeAt? (← t.resolve p.steps) with
  | some node => .ok node
  | none => .error .notFound

def hasPath (t : FileTree) (p : Path) : Bool :=
  (t.find p).isOk

def list (t : FileTree) (p : Path) : Except FileError (List (String × FileTree)) := do
  match ← t.find p with
  | .directory entries => .ok entries
  | .file .. => .error .notDirectory

def bytesOf : FileTree → Except FileError ByteArray
  | .directory _ => .error .isDirectory
  | .file bytes _ => .ok bytes

def readBytes (t : FileTree) (p : Path) : Except FileError ByteArray := do
  bytesOf (← t.find p)

def readText (t : FileTree) (p : Path) : Except FileError String := do
  match String.fromUTF8? (← t.readBytes p) with
  | some text => .ok text
  | none => .error .notText

def modifiedAt? (t : FileTree) (p : Path) : Option Calendar.Instant :=
  match t.find p with
  | .ok (.file _ modified) => some modified
  | _ => none

def Place.file (place : Place) (entries : List (String × FileTree)) (name : String) :
    Except FileError (List String) :=
  if nameLimit < name.utf8ByteSize then .error .nameTooLong
  else
    match place, entries.lookup name with
    | .outside, _ => .error .notFound
    | .inside _, some (.directory _) => .error .isDirectory
    | .inside names, _ => .ok (names ++ [name])

/-- The row of names of the file to write at a path: its directory is there, and the path ends in a
    name, without a slash behind it, that is no directory's. -/
def target (t : FileTree) (p : Path) : Except FileError (List String) := do
  checkPath p
  match p.withoutEndSlashes.steps.getLast? with
  | none => .error .isDirectory
  | some last =>
    let place ← t.resolve p.withoutEndSlashes.steps.dropLast
    match t.nodeAt? place, last.name? with
    | some (.directory entries), some name =>
      if p.withoutEndSlashes = p then place.file entries name else .error .isDirectory
    | some (.directory _), none => .error .isDirectory
    | _, _ => .error .notDirectory

def write (t : FileTree) (p : Path) (text : String) (now : Calendar.Instant) :
    Except FileError FileTree := do
  return t.setAt (.file text.toUTF8 now) (← t.target p)

end FileTree

end NativeCatalogue
