import NativeCatalogue.Annotation.Table
import NativeCatalogue.Compilation.ParameterDocs
import NativeCatalogue.Hash.Basic
import NativeCatalogue.Prototype.Parser
import NativeCatalogue.Text.Basic

set_option autoImplicit false

namespace NativeCatalogue

/-- The digits of a hash behind the slashes of a line comment, and perhaps of an older one behind it. -/
structure HashComment where
  hash : List Char
  jhash : Option (List Char)
  deriving DecidableEq, Repr

namespace HashComment

def literal? (limit : Nat) : List Char → Option (List Char × List Char)
  | '0' :: x :: rest =>
    let digits := (rest.takeWhile Hash.isDigit).take limit
    if (x = 'x' || x = 'X') && digits ≠ [] then some (digits, rest.drop digits.length) else none
  | _ => none

def spacedLiteral? (limit : Nat) (cs : List Char) : Option (List Char × List Char) :=
  if cs.head?.any Text.isBlank then literal? limit (cs.dropWhile Text.isBlank) else none

def startOf? : List Char → Option HashComment
  | '/' :: '/' :: rest => do
    let (hash, after) ← spacedLiteral? 16 rest
    return ⟨hash, (spacedLiteral? 8 after).map Prod.fst⟩
  | _ => none

def find? : List Char → Option HashComment
  | [] => none
  | c :: rest => (startOf? (c :: rest)).or (find? rest)

def hashText (digits : List Char) : String :=
  .ofList ('0' :: 'x' :: digits)

end HashComment

structure CompiledNative where
  record : NativeRecord
  prototype : Prototype

namespace CompiledNative

def annotations (c : CompiledNative) : AnnotationTable :=
  .ofPrototype c.prototype

def frontMatterOf (doc : Document) : Except DocumentError FrontMatter :=
  match doc.frontMatter with
  | none => .ok {}
  | some text =>
    if text.allBlank then .ok {}
    else
      match FrontMatter.ofYaml? text with
      | some m => .ok m.withoutReserved
      | none => .error .badFrontMatter

def codeOf (doc : Document) : Except DocumentError String :=
  match ((codeBlocks doc.blocks).filter (·.1 = some "c")).getLast? with
  | some (_, code) => .ok code
  | none => .error .noCode

def recordOf (p : Prototype) (frontMatter : FrontMatter) : NativeRecord where
  name := if p.name.startsWith "_0x" then none else some p.name
  parameters := p.parameters.map fun q =>
    { name := q.name, type := q.type.recordSpelling, annotations := q.annotations }
  results := p.result.spelling
  description := ""
  examples := []
  hash := Hash.text (Hash.ofName p.name).toUInt64
  annotations := p.annotations
  frontMatter

def withHashComment (r : NativeRecord) (code : String) : NativeRecord :=
  match HashComment.find? code.toList with
  | none => r
  | some comment =>
    { r with
      hash := HashComment.hashText comment.hash
      jhash := comment.jhash.map HashComment.hashText
      manualHash := true }

def isProse : Block → Bool
  | .code (some "c") _ => false
  | _ => true

def withSections (r : NativeRecord) (doc : Document) (name : String) : NativeRecord :=
  let result := (doc.sectionOf? "return value").map renderBlocks
  let description := (doc.sectionOf? name).map fun blocks => renderBlocks (blocks.filter isProse)
  let examples := (doc.sectionOf? "examples").map fun blocks =>
    (codeBlocks blocks).map fun (language, code) => (⟨language, code⟩ : ExampleRecord)
  { r with
    resultsDescription := result.filter (· ≠ "")
    description := description.getD ""
    examples := examples.getD [] }

def ofDocument (doc : Document) : Except DocumentError CompiledNative := do
  let frontMatter ← frontMatterOf doc
  let code ← codeOf doc
  let prototype ← (Prototype.parse code).mapError DocumentError.ofDeclarationError
  let record := withHashComment (recordOf prototype frontMatter) code
  let record ←
    match doc.sectionOf? "parameters" with
    | some blocks => record.documentParameters blocks
    | none => .ok record
  return ⟨withSections record doc prototype.name, prototype⟩

def ofText (source : String) : Except DocumentError CompiledNative :=
  ofDocument (.parse source)

end CompiledNative

end NativeCatalogue
