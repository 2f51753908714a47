import NativeCatalogue.Prototype.Lexer
import NativeCatalogue.Prototype.Token
import NativeCatalogue.Vocabulary.Basic

set_option autoImplicit false

namespace NativeCatalogue

def isIdentifier (word : String) : Bool :=
  match word.toList with
  | [] => false
  | c :: rest => isIdentStart c && rest.all isIdentRest

def isDeclarableName (word : String) : Bool :=
  isIdentifier word && (AnnotationKind.ofKeyword? word).isNone

def parenthesesPair : Nat → List Token → Bool
  | depth, [] => depth = 0
  | depth, t :: rest =>
    match t.kind, depth with
    | .openParen, depth => parenthesesPair (depth + 1) rest
    | .closeParen, 0 => false
    | .closeParen, depth + 1 => parenthesesPair depth rest
    | _, depth => parenthesesPair depth rest

def tokenChars (tokens : List Token) : List Char :=
  tokens.flatMap fun t => t.gap ++ t.kind.text

/-- Whether a text is made of tokens with paired parentheses and nothing but blanks between them. -/
def isTokenSequence (text : String) : Bool :=
  match tokenize text with
  | .ok tokens =>
    tokenChars tokens = text.toList && tokens.all (fun t => t.gap.all Text.isBlank) &&
      parenthesesPair 0 tokens
  | .error _ => false

/-- Whether a payload is what is kept of some payload: not empty, and its blanks collapsed. -/
def Annotation.hasKeptPayload (a : Annotation) : Bool :=
  a.payload?.all fun p => p ≠ "" && Annotation.normalizePayload p = p

def Annotation.hasReadablePayload (a : Annotation) : Bool :=
  a.hasKeptPayload && a.payload?.all isTokenSequence

def AnnotationSet.isNormal (s : AnnotationSet) : Bool :=
  s.items.all Annotation.hasReadablePayload && decide s.items.Nodup

namespace TypeSpec

def words (t : TypeSpec) : List String :=
  (Text.cutAt (· = ' ') t.name.toList).map .ofList

def lastWord (t : TypeSpec) : String :=
  t.words.getLast?.getD ""

/-- Whether a type name is modifiers and one word of the vocabulary, a builtin one behind a
    modifier. -/
def isNormal (t : TypeSpec) : Bool :=
  t.words.dropLast.all Vocabulary.modifiers.contains && (Vocabulary.find? t.lastWord).isSome &&
    (t.words.dropLast.isEmpty || Vocabulary.isBuiltin t.lastWord)

def absorbs (t : TypeSpec) (word : String) : Bool :=
  !t.isPointer && Vocabulary.modifiers.contains t.lastWord && Vocabulary.isBuiltin word

def allowsName (t : TypeSpec) (word : String) : Bool :=
  isDeclarableName word && word ≠ "const" && !t.absorbs word

end TypeSpec

def Parameter.isNormal (p : Parameter) : Bool :=
  p.annotations.isNormal && p.type.isNormal && (p.name = "" || p.type.allowsName p.name)

def Parameter.void : Parameter :=
  ⟨"", .named "void", ∅⟩

def Prototype.isNormal (p : Prototype) : Bool :=
  p.annotations.isNormal && p.result.isNormal && p.result.allowsName p.name &&
    p.parameters.all Parameter.isNormal && p.parameters ≠ [Parameter.void]

def AnnotationSet.chars (s : AnnotationSet) : List Char :=
  s.items.flatMap fun a => a.spelling.toList ++ [' ']

def Parameter.chars (p : Parameter) : List Char :=
  p.annotations.chars ++ p.type.spelling.toList ++
    if p.name = "" then [] else ' ' :: p.name.toList

namespace Prototype

def chars (p : Prototype) : List Char :=
  p.annotations.chars ++ p.result.spelling.toList ++ ' ' :: p.name.toList ++
    '(' :: Text.join [',', ' '] (p.parameters.map Parameter.chars) ++ [')', ';']

def print (ps : List Prototype) : String :=
  .ofList (ps.flatMap chars)

end Prototype

end NativeCatalogue
