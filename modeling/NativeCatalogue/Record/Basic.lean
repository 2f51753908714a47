import NativeCatalogue.Annotation.Set
import NativeCatalogue.Record.FrontMatter

set_option autoImplicit false

namespace NativeCatalogue

structure ParameterRecord where
  name : String
  type : String
  description : Option String := none
  annotations : AnnotationSet := ∅
  deriving DecidableEq, Repr

structure ExampleRecord where
  language : Option String
  code : String
  deriving DecidableEq, Repr

structure NativeRecord where
  name : Option String := none
  parameters : List ParameterRecord
  results : String
  description : String
  examples : List ExampleRecord
  hash : String
  jhash : Option String := none
  /-- Whether the hash is given and not computed from the name. -/
  manualHash : Bool := false
  resultsDescription : Option String := none
  annotations : AnnotationSet := ∅
  frontMatter : FrontMatter := {}

def AnnotationSet.toMember (s : AnnotationSet) : List (String × Json) :=
  if s.isEmpty then [] else [("annotations", s.toJson)]

namespace ParameterRecord

def toJson (p : ParameterRecord) : Json :=
  .object ([("name", .string p.name), ("type", .string p.type)] ++
    FrontMatter.textMember "description" p.description ++ p.annotations.toMember)

def ofFields? (name type : JsonText) (description annotations : Option JsonText) :
    Option ParameterRecord := do
  return {
    name := ← name.text?
    type := ← type.text?
    description := ← (description.map JsonText.optionalText?).getD (some none)
    annotations := ← (annotations.map AnnotationSet.ofJson?).getD (some ∅) }

def ofJson? : JsonText → Option ParameterRecord
  | .array [name, type] => ofFields? name type none none
  | .array [name, type, description] => ofFields? name type description none
  | .array [name, type, description, annotations] => ofFields? name type description annotations
  | text => do
    let fields ← text.fields? ["name", "type", "description", "annotations"]
    ofFields? (← fields.lookup "name") (← fields.lookup "type") (fields.lookup "description")
      (fields.lookup "annotations")

end ParameterRecord

namespace ExampleRecord

def toJson (e : ExampleRecord) : Json :=
  .object [("lang", (e.language.map Json.string).getD .null), ("code", .string e.code)]

def ofJson? : JsonText → Option ExampleRecord
  | .array [language, code] => do return ⟨← language.optionalText?, ← code.text?⟩
  | text => do
    let fields ← text.fields? ["lang", "code"]
    return ⟨← JsonText.fieldOr fields "lang" none JsonText.optionalText?,
      ← JsonText.field? fields "code" JsonText.text?⟩

end ExampleRecord

namespace NativeRecord

def label (r : NativeRecord) : String :=
  r.name.getD r.hash

def parameter? (r : NativeRecord) (name : String) : Option ParameterRecord :=
  r.parameters.find? fun p => p.name = name

def toOwnMembers (r : NativeRecord) : List (String × Json) :=
  FrontMatter.textMember "name" r.name ++
    [("params", .array (r.parameters.map ParameterRecord.toJson)),
      ("results", .string r.results), ("description", .string r.description),
      ("examples", .array (r.examples.map ExampleRecord.toJson)), ("hash", .string r.hash)] ++
    FrontMatter.textMember "jhash" r.jhash ++
    (if r.manualHash then [("manualHash", .bool true)] else []) ++
    FrontMatter.textMember "resultsDescription" r.resultsDescription ++ r.annotations.toMember

def toJson (r : NativeRecord) : Json :=
  .object (r.toOwnMembers ++ r.frontMatter.toMembers)

/-- Reads an object in which arrays and objects are nested at most `limit` deep. What is no field of
    the record belongs to its front matter. -/
def ofJson? (limit : Nat) (text : JsonText) : Option NativeRecord := do
  let fields ← text.fields? FrontMatter.reservedKeys
  let optional (key : String) := JsonText.fieldOr fields key none JsonText.optionalText?
  return {
    name := ← optional "name"
    parameters := ← JsonText.field? fields "params" fun value => do
      (← value.items?).mapM ParameterRecord.ofJson?
    results := ← JsonText.field? fields "results" JsonText.text?
    description := ← JsonText.field? fields "description" JsonText.text?
    examples := ← JsonText.field? fields "examples" fun value => do
      (← value.items?).mapM ExampleRecord.ofJson?
    hash := ← JsonText.field? fields "hash" JsonText.text?
    jhash := ← optional "jhash"
    manualHash := ← JsonText.fieldOr fields "manualHash" false JsonText.bool?
    resultsDescription := ← optional "resultsDescription"
    annotations := ← JsonText.fieldOr fields "annotations" ∅ AnnotationSet.ofJson?
    frontMatter := ← FrontMatter.ofMembers? (limit - 1)
      (fields.filter (!FrontMatter.reservedKeys.contains ·.1)) }

def ofValue? (value : Json) : Option NativeRecord :=
  ofJson? value.depth (.ofJson value)

def ofString? (text : String) : Option NativeRecord := do
  ofJson? JsonText.nestingLimit (← JsonText.ofString? text)

def same (a b : NativeRecord) : Bool :=
  a.name = b.name && a.parameters = b.parameters && a.results = b.results &&
    a.description = b.description && a.examples = b.examples && a.hash = b.hash &&
    a.jhash = b.jhash && a.manualHash = b.manualHash &&
    a.resultsDescription = b.resultsDescription && a.annotations = b.annotations &&
    a.frontMatter.same b.frontMatter

end NativeRecord

end NativeCatalogue
