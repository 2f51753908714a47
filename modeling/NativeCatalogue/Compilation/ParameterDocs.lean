import NativeCatalogue.Document.Basic
import NativeCatalogue.Document.Strong
import NativeCatalogue.Prototype.Basic
import NativeCatalogue.Record.Basic

set_option autoImplicit false

namespace NativeCatalogue

inductive DocumentError where
  | badFrontMatter
  | noCode
  | functionCount (found : Nat)
  | badDeclaration (cause : DeclarationError)
  | noParameterList
  | parameterParagraphs
  | unnamedParameter
  | unknownParameter (name : String)
  | noHash
  deriving DecidableEq, Repr

namespace DocumentError

def message : DocumentError → String
  | .badFrontMatter => "Invalid front matter"
  | .noCode => "No C code definition."
  | .functionCount _ => "C code snippet contained wrong amount of functions."
  | .badDeclaration cause => s!"Invalid C code definition: {cause.message}"
  | .noParameterList => "No parameter list in \"Parameters\" heading."
  | .parameterParagraphs => "A parameter can only have one paragraph."
  | .unnamedParameter => "A parameter must have a name."
  | .unknownParameter name =>
    "A parameter definition was found for a parameter that does not exist. Parameter name: " ++ name
  | .noHash => "No native hash was specified."

def ofDeclarationError : DeclarationError → DocumentError
  | .functionCount found => .functionCount found
  | cause => .badDeclaration cause

end DocumentError

structure ParameterDoc where
  name : String
  text : String
  deriving DecidableEq, Repr

namespace ParameterDoc

def descriptionOf (rest : String) : String :=
  match rest.toList with
  | ':' :: ' ' :: text => (String.ofList text).trimBlanks
  | _ => rest.trimBlanks

def ofItem (item : ListItem) : Except DocumentError ParameterDoc :=
  match item.paragraphs with
  | [paragraph] =>
    match splitStrong paragraph with
    | some (name, rest) =>
      if name.trimBlanks = "" then .error .unnamedParameter
      else .ok ⟨name.trimBlanks, descriptionOf rest⟩
    | none => .error .unnamedParameter
  | _ => .error .parameterParagraphs

/-- Describes the first parameter of a name; an empty text changes nothing. -/
def describe (doc : ParameterDoc) : List ParameterRecord → Option (List ParameterRecord)
  | [] => none
  | p :: rest =>
    if p.name = doc.name then
      some ((if doc.text = "" then p else { p with description := some doc.text }) :: rest)
    else (doc.describe rest).map (p :: ·)

def apply (parameters : List ParameterRecord) (item : ListItem) :
    Except DocumentError (List ParameterRecord) :=
  match ofItem item with
  | .error e => .error e
  | .ok doc =>
    match doc.describe parameters with
    | some described => .ok described
    | none => .error (.unknownParameter doc.name)

end ParameterDoc

def firstList? (blocks : List Block) : Option (List ListItem) :=
  blocks.findSome? fun
    | .list items => some items
    | _ => none

def NativeRecord.documentParameters (r : NativeRecord) (sectionBlocks : List Block) :
    Except DocumentError NativeRecord :=
  match firstList? sectionBlocks with
  | none => .error .noParameterList
  | some items => do
    return { r with parameters := ← items.foldlM ParameterDoc.apply r.parameters }

end NativeCatalogue
