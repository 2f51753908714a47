import NativeCatalogue.Annotation.Basic

set_option autoImplicit false

namespace NativeCatalogue

structure AnnotationSet where
  items : List Annotation := []
  deriving DecidableEq, Repr

namespace AnnotationSet

instance : EmptyCollection AnnotationSet := ⟨{}⟩

instance : Inhabited AnnotationSet := ⟨∅⟩

def contains (s : AnnotationSet) (a : Annotation) : Bool :=
  s.items.contains a

def insert (s : AnnotationSet) (a : Annotation) : AnnotationSet :=
  if s.contains a then s else ⟨s.items ++ [a]⟩

def insertAll (s : AnnotationSet) (xs : List Annotation) : AnnotationSet :=
  xs.foldl insert s

def ofList (xs : List Annotation) : AnnotationSet :=
  insertAll ∅ xs

def isEmpty (s : AnnotationSet) : Bool :=
  s.items.isEmpty

def size (s : AnnotationSet) : Nat :=
  s.items.length

def has (s : AnnotationSet) (kind : AnnotationKind) : Bool :=
  s.items.any fun a => a.kind = kind

def firstPayload? (s : AnnotationSet) (kind : AnnotationKind) : Option String :=
  (s.items.find? fun a => a.kind = kind).bind Annotation.payload?

def since? (s : AnnotationSet) : Option String :=
  s.firstPayload? .since

def until? (s : AnnotationSet) : Option String :=
  s.firstPayload? .until

def displayType? (s : AnnotationSet) : Option String :=
  s.firstPayload? .displayType

def isSplit (s : AnnotationSet) : Bool :=
  s.has .split

def isOmitted (s : AnnotationSet) : Bool :=
  s.has .omitted

def toJson (s : AnnotationSet) : Json :=
  .array (s.items.map Annotation.toJson)

def ofJson? (text : JsonText) : Option AnnotationSet := do
  let items ← text.items?
  return ⟨← items.mapM Annotation.ofJson?⟩

end AnnotationSet

end NativeCatalogue
