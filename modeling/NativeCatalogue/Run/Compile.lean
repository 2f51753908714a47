import NativeCatalogue.Binary.Basic
import NativeCatalogue.Compilation.Basic
import NativeCatalogue.Compilation.Documents
import NativeCatalogue.Record.Catalogue
import NativeCatalogue.SiteMap.Basic

/-!
Compiling all documents under a directory. A document that fails is kept apart; the natives of the
others go into one catalogue, where a later native takes the place of an earlier one with its
namespace and hash.
-/

set_option autoImplicit false

namespace NativeCatalogue

open Arithmetic

inductive DocumentFileError where
  | unreadable (cause : FileError)
  | rejected (cause : DocumentError)
  deriving DecidableEq, Repr

def DocumentFileError.message : DocumentFileError → String
  | .unreadable cause => s!"Failed to read: {cause.message}"
  | .rejected cause => cause.message

structure DocumentFailure where
  path : Path
  cause : DocumentFileError
  deriving DecidableEq, Repr

structure CompiledDocument where
  path : Path
  ns : String
  native : CompiledNative
  modified : Option Calendar.Instant

namespace CompiledDocument

def defaultNamespace : String := "UNKNOWN"

/-- The namespace that the front matter names, or else the one that follows from the path. -/
def namespaceOf (path : Path) (m : FrontMatter) : String :=
  (m.ns <|> path.impliedNamespace?).getD defaultNamespace

def putNamespace (ns : String) (r : NativeRecord) : NativeRecord :=
  { r with frontMatter := { r.frontMatter with ns := some ns } }

def ofNative (path : Path) (modified : Option Calendar.Instant) (c : CompiledNative) :
    CompiledDocument :=
  let ns := namespaceOf path c.record.frontMatter
  ⟨path, ns, { c with record := putNamespace ns c.record }, modified⟩

def ofPath (t : FileTree) (path : Path) : Except DocumentFailure CompiledDocument :=
  match t.readText path with
  | .error e => .error ⟨path, .unreadable e⟩
  | .ok text =>
    match CompiledNative.ofText text with
    | .error e => .error ⟨path, .rejected e⟩
    | .ok c => .ok (ofNative path (t.modifiedAt? path) c)

def page (base : String) (d : CompiledDocument) : SitePage :=
  ⟨SitePage.addressOf base d.native.record.hash, d.modified⟩

end CompiledDocument

structure CompileRun where
  catalogue : Catalogue := ∅
  documents : List CompiledDocument := []
  failures : List DocumentFailure := []
  skipped : Nat := 0
  duplicates : Nat := 0

namespace CompileRun

def add (r : CompileRun) (result : Except DocumentFailure CompiledDocument) : CompileRun :=
  match result with
  | .error e => { r with failures := r.failures ++ [e] }
  | .ok d =>
    let taken := (r.catalogue.get? d.ns d.native.record.hash).isSome
    { r with
      catalogue := r.catalogue.insert d.ns d.native.record
      documents := r.documents ++ [d]
      duplicates := if taken then r.duplicates + 1 else r.duplicates }

def ofResults (skipped : Nat) (results : List (Except DocumentFailure CompiledDocument)) :
    CompileRun :=
  results.foldl add { skipped }

def ofTree (t : FileTree) (root : Path) : Except FileError CompileRun := do
  let found ← DocumentListing.ofTree t root
  return ofResults found.skipped (found.documents.map (CompiledDocument.ofPath t))

def isClean (r : CompileRun) : Bool :=
  r.failures.isEmpty

def annotatedSymbols (r : CompileRun) : Nat :=
  (r.documents.map fun d => d.native.annotations.size).sum

def pages (base : String) (r : CompileRun) : List SitePage :=
  r.documents.map (CompiledDocument.page base)

end CompileRun

namespace FileTree

def readCatalogue (t : FileTree) (p : Path) : Option Catalogue :=
  match t.readBytes p with
  | .ok bytes => Catalogue.ofBytes? bytes
  | .error _ => none

end FileTree

end NativeCatalogue
