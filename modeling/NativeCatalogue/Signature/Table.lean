import Std.Data.HashMap
import NativeCatalogue.Binary.Basic
import NativeCatalogue.Signature.Basic

set_option autoImplicit false

namespace NativeCatalogue

open Arithmetic

structure SignatureTable where
  groups : Array (UInt64 × List Signature) := #[]
  index : Std.HashMap UInt64 Nat := ∅

namespace SignatureTable

instance : EmptyCollection SignatureTable := ⟨{}⟩

instance : Inhabited SignatureTable := ⟨∅⟩

def append (t : SignatureTable) (hash : UInt64) : SignatureTable :=
  ⟨t.groups.push (hash, []), t.index.insert hash t.groups.size⟩

def modifyAt (t : SignatureTable) (place : Nat) (f : List Signature → List Signature) :
    SignatureTable :=
  { t with groups := t.groups.modify place fun (hash, signatures) => (hash, f signatures) }

def reset (t : SignatureTable) (hash : UInt64) : SignatureTable :=
  match t.index[hash]? with
  | some place => t.modifyAt place fun _ => []
  | none => t.append hash

def get? (t : SignatureTable) (hash : UInt64) : Option (List Signature) := do
  let place ← t.index[hash]?
  let (_, signatures) ← t.groups[place]?
  return signatures

def has (t : SignatureTable) (hash : UInt64) (s : Signature) : Bool :=
  (t.get? hash).any (·.contains s)

def insert (t : SignatureTable) (hash : UInt64) (s : Signature) : SignatureTable × Bool :=
  if t.has hash s then (t, false)
  else
    let opened := if t.index.contains hash then t else t.append hash
    match opened.index[hash]? with
    | some place => (opened.modifyAt place (· ++ [s]), true)
    | none => (opened, true)

def toList (t : SignatureTable) : List (UInt64 × List Signature) :=
  t.groups.toList

def size (t : SignatureTable) : Nat :=
  t.groups.size

def isEmpty (t : SignatureTable) : Bool :=
  t.groups.isEmpty

def signatureCount (t : SignatureTable) : Nat :=
  (t.toList.map fun (_, signatures) => signatures.length).sum

end SignatureTable

end NativeCatalogue
