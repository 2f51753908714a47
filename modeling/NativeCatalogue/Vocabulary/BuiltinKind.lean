import NativeCatalogue.Text.Basic

/-!
The kind of a builtin type, from the words it is spelled with. What counts is which words there
are, not their order: the words are tallied first, and the tally names the kind.
-/

set_option autoImplicit false

namespace NativeCatalogue

inductive BaseWord where
  | void
  | bool
  | char
  | int
  | float
  | double
  deriving DecidableEq, Repr

structure BuiltinTally where
  base : Option BaseWord := none
  unsigned : Bool := false
  signed : Bool := false
  short : Bool := false
  /-- Counted in a byte. -/
  longs : UInt8 := 0
  deriving DecidableEq, Repr

namespace BuiltinTally

def withBase (t : BuiltinTally) (word : BaseWord) : Option BuiltinTally :=
  if t.base.isNone then some { t with base := some word } else none

def add (t : BuiltinTally) (word : String) : Option BuiltinTally :=
  match word with
  | "unsigned" => some { t with unsigned := true }
  | "signed" => some { t with signed := true }
  | "short" => some { t with short := true }
  | "long" => some { t with longs := t.longs + 1 }
  | "void" => t.withBase .void
  | "bool" => t.withBase .bool
  | "char" => t.withBase .char
  | "int" => t.withBase .int
  | "float" => t.withBase .float
  | "double" => t.withBase .double
  | _ => none

def ofWords? (words : List String) : Option BuiltinTally :=
  words.foldlM add {}

/-- The name of an integer kind: the words of its size, then whether it is unsigned. -/
def integerName? (t : BuiltinTally) : Option String :=
  match t.short, t.longs with
  | true, 0 => some (if t.unsigned then "ushort" else "short")
  | false, 0 => some (if t.unsigned then "uint" else "int")
  | false, 1 => some (if t.unsigned then "ulong" else "long")
  | false, 2 => some (if t.unsigned then "ulonglong" else "longlong")
  | _, _ => none

def isBare (t : BuiltinTally) : Bool :=
  !t.unsigned && !t.signed && !t.short && t.longs == 0

def name? (t : BuiltinTally) : Option String :=
  if t.unsigned && t.signed then none
  else match t.base with
    | some .void => if t.isBare then some "void" else none
    | some .bool => if t.isBare then some "bool" else none
    | some .float => if t.isBare then some "float" else none
    | some .double =>
      if t.unsigned || t.signed || t.short then none
      else match t.longs with
        | 0 => some "double"
        | 1 => some "longdouble"
        | _ => none
    | some .char =>
      if t.short || t.longs ≠ 0 then none
      else if t.unsigned then some "uchar_t"
      else if t.signed then some "SChar"
      else some "char"
    | some .int => t.integerName?
    | none => if t.isBare then none else t.integerName?

end BuiltinTally

def builtinKind? (spelling : String) : Option String :=
  (BuiltinTally.ofWords? ((Text.words spelling.toList).map .ofList)).bind BuiltinTally.name?

end NativeCatalogue
