import NativeCatalogue.Annotation.Set
import NativeCatalogue.Prototype.Basic
import NativeCatalogue.SortedMap

/-!
The annotations of many symbols. A symbol is a function or one parameter of a function; a symbol
without annotations has no entry, so that a table is determined by the set it gives for each symbol.
-/

set_option autoImplicit false

namespace NativeCatalogue

structure Symbol where
  function : String
  parameter : Option String := none
  deriving DecidableEq, Repr

namespace Symbol

def order : Symbol → Symbol → Ordering :=
  compareLex (compareOn Symbol.function) (compareOn Symbol.parameter)

instance : Ord Symbol := ⟨order⟩

instance : Std.TransOrd Symbol :=
  inferInstanceAs (Std.TransCmp (compareLex (compareOn Symbol.function) (compareOn Symbol.parameter)))

instance : Std.LawfulEqOrd Symbol where
  eq_of_compare {a b} h := by
    have h : compareLex (compareOn Symbol.function) (compareOn Symbol.parameter) a b = .eq := h
    rw [compareLex, Ordering.then_eq_eq] at h
    obtain ⟨f, p⟩ := a
    obtain ⟨g, q⟩ := b
    have h1 : f = g := Std.LawfulEqCmp.eq_of_compare h.1
    have h2 : p = q := Std.LawfulEqCmp.eq_of_compare h.2
    rw [h1, h2]

def text (s : Symbol) : String :=
  match s.parameter with
  | some p => s.function ++ "." ++ p
  | none => s.function

end Symbol

structure AnnotationTable where
  entries : SortedMap Symbol AnnotationSet := ∅

namespace AnnotationTable

instance : EmptyCollection AnnotationTable := ⟨{}⟩

def get (t : AnnotationTable) (symbol : Symbol) : AnnotationSet :=
  (t.entries.get? symbol).getD ∅

def annotate (t : AnnotationTable) (symbol : Symbol) (a : Annotation) : AnnotationTable :=
  ⟨t.entries.insert symbol ((t.get symbol).insert a)⟩

def annotateAll (t : AnnotationTable) (symbol : Symbol) (xs : List Annotation) : AnnotationTable :=
  xs.foldl (fun t a => t.annotate symbol a) t

def set (t : AnnotationTable) (symbol : Symbol) (s : AnnotationSet) : AnnotationTable :=
  if s.isEmpty then ⟨t.entries.erase symbol⟩ else ⟨t.entries.insert symbol s⟩

def mergeParameter (function : String) (t : AnnotationTable) (p : Parameter) : AnnotationTable :=
  t.annotateAll ⟨function, some p.name⟩ p.annotations.items

def merge (t : AnnotationTable) (p : Prototype) : AnnotationTable :=
  p.parameters.foldl (mergeParameter p.name) (t.annotateAll ⟨p.name, none⟩ p.annotations.items)

def ofPrototype (p : Prototype) : AnnotationTable :=
  merge ∅ p

def size (t : AnnotationTable) : Nat :=
  t.entries.size

def isEmpty (t : AnnotationTable) : Bool :=
  t.entries.isEmpty

def symbolsWith (t : AnnotationTable) (kind : AnnotationKind) : List Symbol :=
  (t.entries.filter fun _ s => s.has kind).keys

end AnnotationTable

end NativeCatalogue
