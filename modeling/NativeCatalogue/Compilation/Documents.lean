import NativeCatalogue.Document.Basic
import NativeCatalogue.FileTree.Basic

set_option autoImplicit false

namespace NativeCatalogue

def isHidden (name : String) : Bool :=
  name.toList.head? = some '.'

/-- Whether a file with a name is the document of a native: a Markdown file that is neither hidden nor
    a read-me. -/
def isDocumentName (name : String) : Bool :=
  !isHidden name && !sameIgnoringCase name "README.md" && ".md".toList.isSuffixOf name.toList

namespace Path

def isNativeDocument (p : Path) : Bool :=
  p.fileName?.any isDocumentName

/-- The namespace that follows from the directory, in upper case as far as ASCII goes. -/
def impliedNamespace? (p : Path) : Option String :=
  p.directoryName?.map fun name => .ofList (name.toList.map Char.toUpper)

end Path

structure DocumentListing where
  documents : List Path := []
  skipped : Nat := 0
  deriving DecidableEq, Repr

namespace DocumentListing

instance : Append DocumentListing where
  append a b := ⟨a.documents ++ b.documents, a.skipped + b.skipped⟩

def ofFile (path : Path) (name : String) : DocumentListing :=
  if isDocumentName name then ⟨[path], 0⟩ else ⟨[], 1⟩

mutual

def ofEntry (path : Path) (name : String) : FileTree → DocumentListing
  | .file .. => ofFile path name
  | .directory entries => if isHidden name then {} else ofEntries path entries

def ofEntries (directory : Path) : List (String × FileTree) → DocumentListing
  | [] => {}
  | (name, node) :: rest => ofEntry (directory.join name) name node ++ ofEntries directory rest

end

def sorted (l : DocumentListing) : DocumentListing :=
  { l with documents := l.documents.mergeSort Path.le }

def ofTree (t : FileTree) (root : Path) : Except FileError DocumentListing := do
  return (ofEntries root (← t.list root)).sorted

end DocumentListing

end NativeCatalogue
