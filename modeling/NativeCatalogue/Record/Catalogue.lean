import NativeCatalogue.Binary.Basic
import NativeCatalogue.Record.Basic

set_option autoImplicit false

namespace NativeCatalogue

open Arithmetic

structure Catalogue where
  namespaces : SortedMap String (SortedMap String NativeRecord) := ∅

namespace Catalogue

instance : EmptyCollection Catalogue := ⟨{}⟩

def inNamespace (c : Catalogue) (ns : String) : SortedMap String NativeRecord :=
  (c.namespaces.get? ns).getD ∅

def get? (c : Catalogue) (ns hash : String) : Option NativeRecord :=
  (c.inNamespace ns).get? hash

def insert (c : Catalogue) (ns : String) (r : NativeRecord) : Catalogue :=
  ⟨c.namespaces.insert ns ((c.inNamespace ns).insert r.hash r)⟩

def counts (c : Catalogue) : List (String × Nat) :=
  c.namespaces.toList.map fun (ns, records) => (ns, records.size)

def size (c : Catalogue) : Nat :=
  (c.counts.map Prod.snd).sum

def isEmpty (c : Catalogue) : Bool :=
  c.size = 0

def toList (c : Catalogue) : List (String × NativeRecord) :=
  c.namespaces.toList.flatMap fun (ns, records) => records.values.map (ns, ·)

def toJson (c : Catalogue) : Json :=
  .object (c.namespaces.toList.map fun (ns, records) =>
    (ns, .object (records.toList.map fun (hash, r) => (hash, r.toJson))))

def recordsOfJson? (limit : Nat) (text : JsonText) : Option (SortedMap String NativeRecord) := do
  let entries ← (← text.members?).mapM fun (hash, value) =>
    return (hash, ← NativeRecord.ofJson? (limit - 1) value)
  return .ofList entries

/-- Reads a whole catalogue. Of entries with one key the last counts. -/
def ofJson? (limit : Nat) (text : JsonText) : Option Catalogue := do
  let entries ← (← text.members?).mapM fun (ns, value) =>
    return (ns, ← recordsOfJson? (limit - 1) value)
  return ⟨.ofList entries⟩

def ofString? (text : String) : Option Catalogue := do
  ofJson? JsonText.nestingLimit (← JsonText.ofString? text)

def ofBytes? (bytes : ByteArray) : Option Catalogue := do
  ofJson? JsonText.nestingLimit (← JsonText.ofBytes? bytes)

def write (layout : JsonText.Layout) (c : Catalogue) : String :=
  c.toJson.write layout

def sameRecords (xs ys : List (String × NativeRecord)) : Bool :=
  xs.length = ys.length && (xs.zip ys).all fun (x, y) => x.1 = y.1 && x.2.same y.2

def same (a b : Catalogue) : Bool :=
  let xs := a.namespaces.toList
  let ys := b.namespaces.toList
  xs.length = ys.length &&
    (xs.zip ys).all fun (x, y) => x.1 = y.1 && sameRecords x.2.toList y.2.toList

end Catalogue

end NativeCatalogue
