import NativeCatalogue.Calendar.Basic
import NativeCatalogue.Run.Compile
import NativeCatalogue.Run.Error
import NativeCatalogue.Signature.File

set_option autoImplicit false

namespace NativeCatalogue

namespace SignatureTable

/-- Adds the signature of a native if its hash is given, and counts it if it is new. -/
def collectNative (t : SignatureTable × Nat) (c : CompiledNative) :
    Except Hash.BadHash (SignatureTable × Nat) :=
  if c.record.manualHash then
    match Hash.parse c.record.hash with
    | .error e => .error e
    | .ok hash =>
      let (table, added) := t.1.insert hash (.ofPrototype c.prototype)
      .ok (table, if added then t.2 + 1 else t.2)
  else .ok t

def collect (t : SignatureTable) (natives : List CompiledNative) :
    Except Hash.BadHash (SignatureTable × Nat) :=
  natives.foldlM collectNative (t, 0)

end SignatureTable

structure UpdateOptions where
  input : Option Path
  output : Option Path
  force : Bool := false
  ignoreMissing : Bool := false
  version : VersionRequest
  start : Calendar.Date
  today : Calendar.Date

structure SignatureUpdate where
  previous : Nat
  changes : Nat
  version : Version
  table : SignatureTable
  written : Option Path

namespace SignatureUpdate

def readPrevious (t : FileTree) (input : Option Path) (ignoreMissing : Bool) :
    Except RunError SignatureFile :=
  match input with
  | none => .ok {}
  | some file =>
    if t.hasPath file then
      match t.readText file with
      | .error e => .error (.unreadable file e)
      | .ok text => (SignatureFile.parse text).mapError .badSignatureFile
    else if ignoreMissing then .ok {}
    else .error (.missingInput file)

/-- The update of a file that was read. The output is yet to be written. -/
def ofFile (o : UpdateOptions) (file : SignatureFile) (natives : List CompiledNative) :
    Except RunError SignatureUpdate := do
  let (table, changes) ← (file.table.collect natives).mapError .badHash
  return {
    previous := file.table.size
    changes
    version := o.version.next file.version (o.start.daysSince o.today)
    table
    written := if o.force || changes > 0 then o.output else none }

def text (u : SignatureUpdate) : String :=
  SignatureFile.render u.table u.version

def run (t : FileTree) (now : Calendar.Instant) (o : UpdateOptions) (natives : List CompiledNative) :
    Except RunError (FileTree × SignatureUpdate) := do
  let file ← readPrevious t o.input o.ignoreMissing
  let u ← ofFile o file natives
  match u.written with
  | none => return (t, u)
  | some output =>
    let next ← (t.write output u.text now).mapError (.unwritable output)
    return (next, u)

end SignatureUpdate

end NativeCatalogue
