import NativeCatalogue.Json.Reader

set_option autoImplicit false

namespace NativeCatalogue.JsonText

def nestingLimit : Nat := 127

def members? : JsonText → Option (List (String × JsonText))
  | .object members => members.mapM fun (key, value) => key.map (·, value)
  | _ => none

def knownOnce {α : Type} (known : List String) (members : List (String × α)) : Bool :=
  known.all fun key => (members.map Prod.fst).count key ≤ 1

def fields? (known : List String) (text : JsonText) : Option (List (String × JsonText)) := do
  let members ← text.members?
  if knownOnce known members then some members else none

def text? : JsonText → Option String
  | .string s => s
  | _ => none

def bool? : JsonText → Option Bool
  | .bool b => some b
  | _ => none

def items? : JsonText → Option (List JsonText)
  | .array items => some items
  | _ => none

def int? : JsonText → Option Int
  | .number n => n.integer?
  | _ => none

def optionalText? : JsonText → Option (Option String)
  | .null => some none
  | .string s => s.map some
  | _ => none

def fieldOr {α : Type} (members : List (String × JsonText)) (key : String) (default : α)
    (read : JsonText → Option α) : Option α :=
  match members.lookup key with
  | none => some default
  | some value => read value

def field? {α : Type} (members : List (String × JsonText)) (key : String)
    (read : JsonText → Option α) : Option α := do
  read (← members.lookup key)

end NativeCatalogue.JsonText
