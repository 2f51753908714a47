import NativeCatalogue.Annotation.Set
import NativeCatalogue.Vocabulary.BuiltinKind

set_option autoImplicit false

namespace NativeCatalogue

structure TypeSpec where
  name : String
  isConst : Bool := false
  pointerDepth : UInt8 := 0
  deriving DecidableEq, Repr

namespace TypeSpec

def named (name : String) : TypeSpec :=
  { name }

def pointerTo (name : String) : TypeSpec :=
  { name, pointerDepth := 1 }

def isPointer (t : TypeSpec) : Bool :=
  0 < t.pointerDepth

def spelling (t : TypeSpec) : String :=
  (if t.isConst then "const " else "") ++ t.name ++
    .ofList (List.replicate t.pointerDepth.toNat '*')

def recordSpelling (t : TypeSpec) : String :=
  if t.isPointer then t.spelling else (builtinKind? t.name).getD t.spelling

def ofParts? (name isConst depth : JsonText) : Option TypeSpec := do
  let depth ← depth.int?
  if 0 ≤ depth && depth ≤ 255 then
    return ⟨← name.text?, ← isConst.bool?, .ofNat depth.toNat⟩
  else none

def ofJson? : JsonText → Option TypeSpec
  | .array [name, isConst, depth] => ofParts? name isConst depth
  | text => do
    let fields ← text.fields? ["name", "is_const", "pointer_depth"]
    ofParts? (← fields.lookup "name") (← fields.lookup "is_const") (← fields.lookup "pointer_depth")

end TypeSpec

/-- A parameter; its name is empty if it has none. -/
structure Parameter where
  name : String
  type : TypeSpec
  annotations : AnnotationSet
  deriving DecidableEq, Repr

structure Prototype where
  name : String
  result : TypeSpec
  parameters : List Parameter
  annotations : AnnotationSet
  deriving DecidableEq, Repr

namespace Prototype

def parameter? (p : Prototype) (name : String) : Option Parameter :=
  p.parameters.find? fun q => q.name = name

end Prototype

inductive Expectation where
  | functionName
  | openParameters
  | closeParameters
  | parameterName
  | typeName
  | openPayload
  | closePayload
  deriving DecidableEq, Repr

def Expectation.describe : Expectation → String
  | .functionName => "function name"
  | .openParameters => "'('"
  | .closeParameters => "')'"
  | .parameterName => "parameter name"
  | .typeName => "type name"
  | .openPayload => "'(' after annotation"
  | .closePayload => "')' closing annotation"

/-- Why a text declares nothing. Offsets count bytes of the text. -/
inductive DeclarationError where
  | unexpectedChar (char : Char) (offset : Nat)
  | unterminatedComment (offset : Nat)
  | unexpectedToken (expected : Expectation) (found : String) (offset : Nat)
  | unexpectedEnd (expected : Expectation)
  | unknownType (name : String) (offset : Nat)
  | badPayload (cause : AnnotationError) (offset : Nat)
  | functionCount (found : Nat)
  deriving DecidableEq, Repr

def DeclarationError.message : DeclarationError → String
  | .unexpectedChar char offset => s!"unexpected character '{char}' at offset {offset}"
  | .unterminatedComment offset => s!"unterminated block comment starting at offset {offset}"
  | .unexpectedToken expected found offset =>
    s!"expected {expected.describe}, found '{found}' at offset {offset}"
  | .unexpectedEnd expected => s!"expected {expected.describe}, found end of input"
  | .unknownType name offset => s!"unknown type '{name}' at offset {offset}"
  | .badPayload cause offset => s!"{cause.message} at offset {offset}"
  | .functionCount _ => "C code snippet contained wrong amount of functions."

end NativeCatalogue
