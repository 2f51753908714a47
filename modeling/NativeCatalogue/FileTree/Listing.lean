import NativeCatalogue.Binary.Decimal
import NativeCatalogue.FileTree.Basic
import NativeCatalogue.Text.Basic

set_option autoImplicit false

namespace NativeCatalogue

structure ListingEntry where
  isDirectory : Bool
  modified : Calendar.Instant
  path : Path
  deriving DecidableEq, Repr

namespace ListingEntry

/-- Reads a time, of which the fraction counts down to nanoseconds. -/
def timeOf (cs : List Char) : Calendar.Instant :=
  let whole := cs.takeWhile (· ≠ '.')
  let fraction := ((cs.dropWhile (· ≠ '.')).drop 1).take 9
  let nanoseconds := Binary.naturalOf (fraction ++ List.replicate (9 - fraction.length) '0')
  match whole with
  | '-' :: digits => ⟨-Binary.naturalOf digits, nanoseconds⟩
  | digits => ⟨Binary.naturalOf digits, nanoseconds⟩

def ofLine? (line : List Char) : Option ListingEntry :=
  match Text.cutAt (· = ' ') line with
  | ['d'] :: time :: path => some ⟨true, timeOf time, ⟨.ofList (Text.join [' '] path)⟩⟩
  | ['f'] :: time :: path => some ⟨false, timeOf time, ⟨.ofList (Text.join [' '] path)⟩⟩
  | _ => none

def names (e : ListingEntry) : List String :=
  e.path.steps.filterMap PathStep.name?

def all (text : String) : List ListingEntry :=
  (Text.linesOf text.toList).filterMap ofLine?

def addTo (t : FileTree) (e : ListingEntry) (bytes : ByteArray) : FileTree :=
  if e.isDirectory then (if t.hasPath e.path then t else t.setAt .empty e.names)
  else t.setAt (.file bytes e.modified) e.names

end ListingEntry

end NativeCatalogue
