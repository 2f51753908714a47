import NativeCatalogue.Json.Fields
import NativeCatalogue.Text.Basic

set_option autoImplicit false

namespace NativeCatalogue

inductive AnnotationKind where
  | since
  | until
  | displayType
  | split
  | omitted
  deriving DecidableEq, Repr

namespace AnnotationKind

def all : List AnnotationKind :=
  [.since, .until, .displayType, .split, .omitted]

def keyword : AnnotationKind → String
  | .since => "since"
  | .until => "until"
  | .displayType => "cs_type"
  | .split => "cs_split"
  | .omitted => "cs_omit"

def ofKeyword? (word : String) : Option AnnotationKind :=
  all.find? fun k => k.keyword = word

def takesPayload : AnnotationKind → Bool
  | .since | .until | .displayType => true
  | .split | .omitted => false

end AnnotationKind

inductive Annotation where
  | since (version : String)
  | until (version : String)
  | displayType (name : String)
  | split
  | omitted
  deriving DecidableEq, Repr

inductive AnnotationError where
  | unknownKind (word : String)
  | missingPayload (kind : AnnotationKind)
  | unexpectedPayload (kind : AnnotationKind)
  deriving DecidableEq, Repr

def AnnotationError.message : AnnotationError → String
  | .unknownKind word => s!"unknown annotation '{word}'"
  | .missingPayload kind => s!"annotation '{kind.keyword}' requires a payload"
  | .unexpectedPayload kind => s!"annotation '{kind.keyword}' does not take a payload"

def AnnotationKind.ofJson? : JsonText → Option AnnotationKind
  | .object [(key, .null)] => do AnnotationKind.ofKeyword? (← key)
  | text => do AnnotationKind.ofKeyword? (← text.text?)

namespace Annotation

def normalizePayload (raw : String) : String :=
  .ofList (Text.collapse raw.toList)

/-- The annotation of a kind with a raw payload; a blank payload counts as none. -/
def make (kind : AnnotationKind) (payload : Option String) : Except AnnotationError Annotation :=
  match kind, (payload.map normalizePayload).filter (· ≠ "") with
  | .since, some p => .ok (.since p)
  | .until, some p => .ok (.until p)
  | .displayType, some p => .ok (.displayType p)
  | .split, none => .ok .split
  | .omitted, none => .ok .omitted
  | k, none => .error (.missingPayload k)
  | k, some _ => .error (.unexpectedPayload k)

def kind : Annotation → AnnotationKind
  | .since _ => .since
  | .until _ => .until
  | .displayType _ => .displayType
  | .split => .split
  | .omitted => .omitted

def payload? : Annotation → Option String
  | .since p | .until p | .displayType p => some p
  | .split | .omitted => none

def attributeText (a : Annotation) : String :=
  match a.payload? with
  | some p => a.kind.keyword ++ ":" ++ p
  | none => a.kind.keyword

def spelling (a : Annotation) : String :=
  match a.payload? with
  | some p => a.kind.keyword ++ "(" ++ p ++ ")"
  | none => a.kind.keyword

def cutAtColon (s : String) : String × Option String :=
  let cs := s.toList
  match cs.dropWhile (· ≠ ':') with
  | [] => (s, none)
  | _ :: rest => (.ofList (cs.takeWhile (· ≠ ':')), some (.ofList rest))

def ofAttributeText (s : String) : Except AnnotationError Annotation :=
  let (word, payload) := cutAtColon s
  match AnnotationKind.ofKeyword? word.trimBlanks with
  | some kind => make kind payload
  | none => .error (.unknownKind word.trimBlanks)

def toJson (a : Annotation) : Json :=
  match a.payload? with
  | some p => .object [("kind", .string a.kind.keyword), ("value", .string p)]
  | none => .object [("kind", .string a.kind.keyword)]

def ofParts? (kind : AnnotationKind) (value : Option JsonText) : Option Annotation :=
  match kind, value with
  | .since, some v => v.text?.map .since
  | .until, some v => v.text?.map .until
  | .displayType, some v => v.text?.map .displayType
  | .split, none | .split, some .null => some .split
  | .omitted, none | .omitted, some .null => some .omitted
  | _, _ => none

/-- Reads the JSON form, or a list of its two fields. Payloads are taken as they are. -/
def ofJson? : JsonText → Option Annotation
  | .array [kind, value] => do
    let word ← kind.text?
    ofParts? (← AnnotationKind.ofKeyword? word) (some value)
  | text => do
    let fields ← text.fields? ["kind", "value"]
    ofParts? (← AnnotationKind.ofJson? (← fields.lookup "kind")) (fields.lookup "value")

end Annotation

end NativeCatalogue
