import NativeCatalogue.Json.Fields
import NativeCatalogue.Yaml.Value

set_option autoImplicit false

namespace NativeCatalogue

structure FrontMatter where
  ns : Option String := none
  apiset : Option String := none
  game : Option String := none
  aliases : List String := []
  extra : SortedMap String Json := ∅
  deriving Inhabited

namespace FrontMatter

def knownKeys : List String :=
  ["ns", "apiset", "game", "aliases"]

def reservedKeys : List String :=
  ["name", "params", "results", "description", "examples", "hash", "jhash", "manualHash",
    "resultsDescription", "annotations"]

def reserved (m : FrontMatter) : List String :=
  (m.extra.filter fun key _ => reservedKeys.contains key).keys

def withoutReserved (m : FrontMatter) : FrontMatter :=
  { m with extra := m.extra.filter fun key _ => !reservedKeys.contains key }

def textMember (key : String) (value : Option String) : List (String × Json) :=
  value.toList.map fun s => (key, .string s)

def toMembers (m : FrontMatter) : List (String × Json) :=
  textMember "ns" m.ns ++ textMember "apiset" m.apiset ++ textMember "game" m.game ++
    (if m.aliases = [] then [] else [("aliases", .array (m.aliases.map .string))]) ++
    m.extra.toList

def toJson (m : FrontMatter) : Json :=
  .object m.toMembers

/-- Reads members of a JSON object. Values of extra keys may be nested so deep. -/
def ofMembers? (limit : Nat) (members : List (String × JsonText)) : Option FrontMatter := do
  if !JsonText.knownOnce knownKeys members then none
  else
    let text (key : String) := JsonText.fieldOr members key none JsonText.optionalText?
    let aliases ← JsonText.fieldOr members "aliases" [] fun value => do
      (← value.items?).mapM JsonText.text?
    let extra ← (members.filter (!knownKeys.contains ·.1)).mapM fun (key, value) =>
      return (key, ← value.value? limit)
    return {
      ns := ← text "ns"
      apiset := ← text "apiset"
      game := ← text "game"
      aliases
      extra := .ofList extra }

def ofDocument (d : Yaml.Document) : Yaml.Following FrontMatter := do
  let members ← (← d.members).mapM fun (key, value) => return (← d.text key, value)
  if !JsonText.knownOnce knownKeys members then failure
  else
    let text (key : String) : Yaml.Following (Option String) :=
      match members.lookup key with
      | none => return none
      | some node => d.optionalText node
    let ns ← text "ns"
    let apiset ← text "apiset"
    let game ← text "game"
    let aliases ←
      match members.lookup "aliases" with
      | none => pure []
      | some node => d.texts node
    let extra ← (members.filter (!knownKeys.contains ·.1)).mapM fun (key, node) =>
      return (key, ← d.value (Yaml.nestingLimit - 1) node)
    return { ns, apiset, game, aliases, extra := .ofList extra }

def ofYaml? (text : String) : Option FrontMatter := do
  match ← Yaml.Document.ofString? text with
  | none => some {}
  | some d => (ofDocument d).run' d.aliasLimit

def same (a b : FrontMatter) : Bool :=
  a.ns = b.ns && a.apiset = b.apiset && a.game = b.game && a.aliases = b.aliases &&
    Json.sameMembers a.extra.toList b.extra.toList

end FrontMatter

end NativeCatalogue
