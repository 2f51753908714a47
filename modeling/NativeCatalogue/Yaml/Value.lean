import NativeCatalogue.Binary.Basic
import NativeCatalogue.Binary.Decimal
import NativeCatalogue.Json.Basic
import NativeCatalogue.Yaml.Node

/-!
What the nodes of a YAML text stand for: the values of scalars, by the rules of YAML 1.2 with a few
more ways to write an integer, and the values of whole trees, in which aliases are followed. How often
aliases are followed and how deep collections are nested is limited.
-/

set_option autoImplicit false

namespace NativeCatalogue.Yaml

open Arithmetic

def isNullWord (s : String) : Bool :=
  ["null", "Null", "NULL", "~"].contains s

def bool? (s : String) : Option Bool :=
  if ["true", "True", "TRUE"].contains s then some true
  else if ["false", "False", "FALSE"].contains s then some false
  else none

/-- Whether digits alone, perhaps after a sign, start with a zero too many: such a text is no number. -/
def isPadded (cs : List Char) : Bool :=
  let digits := match cs with
    | '+' :: rest | '-' :: rest => rest
    | _ => cs
  match digits with
  | '0' :: d :: rest => (d :: rest).all Char.isDigit
  | _ => false

def natural? (base : Nat) (digits : List Char) : Option Nat :=
  if digits = [] then none
  else digits.foldl (fun n c => do
    let n ← n
    let d ← Hash.digit? c
    if d < base then some (n * base + d) else none) (some 0)

def unsigned? (cs : List Char) : Option Nat :=
  match cs with
  | '0' :: 'x' :: digits => natural? 16 digits
  | '0' :: 'o' :: digits => natural? 8 digits
  | '0' :: 'b' :: digits => natural? 2 digits
  | digits => if isPadded digits then none else natural? 10 digits

def int? (cs : List Char) : Option Int :=
  match cs with
  | '-' :: rest => (unsigned? rest).map fun n => -(n : Int)
  | '+' :: rest => (unsigned? rest).map fun n => (n : Int)
  | rest => (unsigned? rest).map fun n => (n : Int)

/-- The value of an integer: `some none` if it fits words of 128 bits but not of 64, so that it has
    no value, and `none` if it is even larger, so that it is no integer at all. -/
def intValue? (i : Int) : Option (Option Json) :=
  if -(2 ^ (63 : Nat) : Nat) ≤ i && i < (2 ^ (64 : Nat) : Nat) then some (some (.int i))
  else if -(2 ^ (127 : Nat) : Nat) ≤ i && i < (2 ^ (128 : Nat) : Nat) then some none
  else none

def exponent? (cs : List Char) : Option Int :=
  match cs with
  | [] => some 0
  | c :: rest =>
    if c = 'e' || c = 'E' then
      let (negative, digits) := match rest with
        | '-' :: digits => (true, digits)
        | '+' :: digits => (false, digits)
        | digits => (false, digits)
      if digits = [] || !digits.all Char.isDigit then none
      else
        let e : Int := Binary.naturalOf digits
        some (if negative then -e else e)
    else none

def magnitude? (cs : List Char) : Option Nat := do
  let whole := cs.takeWhile Char.isDigit
  let rest := cs.dropWhile Char.isDigit
  let (fraction, rest) := match rest with
    | '.' :: more => (more.takeWhile Char.isDigit, more.dropWhile Char.isDigit)
    | _ => ([], rest)
  if whole = [] && fraction = [] then none
  else
    let e ← exponent? rest
    let bits := Binary.double.ofDecimal (Binary.naturalOf (whole ++ fraction)) (e - fraction.length)
    if bits = Binary.double.infinity then none else some bits

def isInfiniteWord (s : String) : Bool :=
  [".inf", ".Inf", ".INF", "+.inf", "+.Inf", "+.INF", "-.inf", "-.Inf", "-.INF",
    ".nan", ".NaN", ".NAN"].contains s

def float? (s : String) : Option Json :=
  if isInfiniteWord s then some .null
  else
    let (negative, digits) := match s.toList with
      | '-' :: digits => (true, digits)
      | '+' :: digits => (false, digits)
      | digits => (false, digits)
    (magnitude? digits).map fun bits => .float (Binary.double.withSign negative bits)

def plainValue? (s : String) : Option Json :=
  if s = "" || isNullWord s then some .null
  else
    match bool? s with
    | some b => some (.bool b)
    | none =>
      match (int? s.toList).bind intValue? with
      | some value => value
      | none =>
        if isPadded s.toList then some (.string s) else some ((float? s).getD (.string s))

def localName? : TagText → Option TagText
  | 0x21 :: name => some name
  | _ => none

/-- Whether a tag belongs to the text itself and its name is text. No value has such a tag. -/
def isNamedTag (tag : TagText) : Bool :=
  (localName? tag).any fun name => (String.fromUTF8? ⟨name.toArray⟩).isSome

/-- Whether a tag belongs to the text itself and its name is no text. Such a tag says nothing. -/
def isNamelessTag (tag : TagText) : Bool :=
  (localName? tag).any fun name => (String.fromUTF8? ⟨name.toArray⟩).isNone

/-- The value of a scalar. A tag of truth values, numbers or nothing must fit the text; any other tag
    that says something makes it a string. -/
def scalarValue? (tag : Option TagText) (text : String) (plain : Bool) : Option Json :=
  match tag.filter (!isNamelessTag ·) with
  | none => if plain then plainValue? text else some (.string text)
  | some tag =>
    if isNamedTag tag then none
    else if tag = coreTag "bool" then (bool? text).map .bool
    else if tag = coreTag "int" then ((int? text.toList).bind intValue?).join
    else if tag = coreTag "float" then float? text
    else if tag = coreTag "null" then if isNullWord text then some .null else none
    else some (.string text)

abbrev Following := StateT Nat Option

def nestingLimit : Nat := 128

namespace Document

def aliasLimit (d : Document) : Nat :=
  100 * d.root.weight

def follow (d : Document) : Node → Following Node
  | .alias anchor => do
    let left ← get
    if left = 0 then failure
    else
      set (left - 1)
      d.anchored.lookup anchor
  | node => return node

/-- The value of a node with collections nested at most so deep. Keys must be strings; of members
    with one key the last counts. -/
def value (d : Document) : Nat → Node → Following Json
  | depth, node => do
    match ← d.follow node with
    | .alias _ => failure
    | .scalar p text plain => scalarValue? p.tag text plain
    | .sequence p items =>
      match depth with
      | 0 => failure
      | depth + 1 =>
        if p.tag.any isNamedTag then failure
        else return .array (← items.mapM (d.value depth))
    | .mapping p members =>
      match depth with
      | 0 => failure
      | depth + 1 =>
        if p.tag.any isNamedTag then failure
        else
          let members ← members.mapM fun (key, value) => do
            match ← d.value depth key with
            | .string key => return (key, ← d.value depth value)
            | _ => failure
          return .object (Json.ofMembers members)

def text (d : Document) (node : Node) : Following String := do
  match ← d.follow node with
  | .scalar _ text _ => return text
  | _ => failure

def optionalText (d : Document) (node : Node) : Following (Option String) := do
  match ← d.follow node with
  | .scalar _ text false => return some text
  | .scalar p text true =>
    if p.tag = none then return if text = "" || isNullWord text then none else some text
    else if p.tag = some (coreTag "null") then
      if isNullWord text then return none else failure
    else return some text
  | _ => failure

def texts (d : Document) (node : Node) : Following (List String) := do
  match ← d.follow node with
  | .sequence _ items => items.mapM d.text
  | .scalar _ "" true => return []
  | _ => failure

def members (d : Document) : Following (List (Node × Node)) := do
  match ← d.follow d.root with
  | .mapping _ members => return members
  | .scalar _ "" true => return []
  | _ => failure

end Document

end NativeCatalogue.Yaml
