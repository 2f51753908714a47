import NativeCatalogue.Prototype.Basic
import NativeCatalogue.Vocabulary.Vector

set_option autoImplicit false

namespace NativeCatalogue

inductive Wrapper where
  | void
  | object
  | vector
  | string
  | vectorReference
  | word
  | reference
  deriving DecidableEq, Repr

namespace Wrapper

def name : Wrapper → String
  | .void => "void"
  | .object => "object"
  | .vector => "Vector3"
  | .string => "string"
  | .vectorReference => "Vector3*"
  | .word => "ulong"
  | .reference => "ulong*"

def ofName (base : String) (isPointer : Bool) : Wrapper :=
  if isPointer then
    if base = "char" then .string
    else if base = "Vector3" then .vectorReference
    else .reference
  else
    if base = "void" then .void
    else if base = "object" then .object
    else if base = "Vector3" then .vector
    else .word

def lastWord (name : String) : String :=
  .ofList (name.toList.reverse.takeWhile (· ≠ ' ')).reverse

def ofType (t : TypeSpec) : Wrapper :=
  ofName (lastWord t.name) t.isPointer

def ofParameter (p : Parameter) : List Wrapper :=
  if ofType p.type = .vector then List.replicate Vector3.slotCount .word else [ofType p.type]

end Wrapper

structure Signature where
  types : List String
  deriving DecidableEq, Repr

namespace Signature

def ofPrototype (p : Prototype) : Signature :=
  ⟨(Wrapper.ofType p.result :: p.parameters.flatMap Wrapper.ofParameter).map Wrapper.name⟩

def textChars (s : Signature) : List Char :=
  "\x7b ".toList ++
    Text.join ", ".toList (s.types.map fun t => '"' :: t.toList ++ ['"']) ++ " \x7d".toList

def text (s : Signature) : String :=
  .ofList s.textChars

end Signature

end NativeCatalogue
