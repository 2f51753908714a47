import NativeCatalogue.SortedMap
import NativeCatalogue.Text.Basic
import NativeCatalogue.Vocabulary.Handle
import NativeCatalogue.Vocabulary.Vector

set_option autoImplicit false

namespace NativeCatalogue

inductive TypeCategory where
  | builtin
  | integerAlias
  | handle (kind : Handle)
  | vector
  deriving DecidableEq, Repr

structure TypeEntry where
  name : String
  category : TypeCategory
  size : Option Nat
  deriving DecidableEq, Repr

namespace Vocabulary

def builtins : List TypeEntry :=
  [("void", none), ("bool", some 1), ("char", some 1), ("short", some 2), ("int", some 4),
    ("long", some 4), ("float", some 4), ("double", some 8), ("unsigned", some 4),
    ("signed", some 4), ("int8_t", some 1), ("int16_t", some 2), ("int32_t", some 4),
    ("int64_t", some 8), ("uint8_t", some 1), ("uint16_t", some 2), ("uint32_t", some 4),
    ("uint64_t", some 8), ("size_t", some 8)].map fun (name, size) => ⟨name, .builtin, size⟩

def aliases : List TypeEntry :=
  ["DWORD", "BOOL", "func", "object"].map fun name => ⟨name, .integerAlias, some 4⟩

def handles : List TypeEntry :=
  Handle.all.map fun kind => ⟨kind.name, .handle kind, some 4⟩

def entries : List TypeEntry :=
  builtins ++ aliases ++ handles ++ [⟨"Vector3", .vector, some Vector3.size⟩]

def listing : List TypeEntry :=
  (SortedMap.ofList (entries.map fun e => (e.name, e))).values

def find? (name : String) : Option TypeEntry :=
  entries.find? fun e => e.name = name

def modifiers : List String :=
  ["unsigned", "signed", "short", "long"]

def isBuiltin (word : String) : Bool :=
  match find? word with
  | some e => e.category = .builtin
  | none => false

def resolve? (spelling : String) : Option TypeEntry :=
  ((Text.words spelling.toList).getLast?).bind fun word => find? (.ofList word)

end Vocabulary

end NativeCatalogue
