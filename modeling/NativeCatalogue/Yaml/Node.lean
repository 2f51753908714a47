import NativeCatalogue.Binary.Basic
import NativeCatalogue.Yaml.Lexer

set_option autoImplicit false

namespace NativeCatalogue.Yaml

open Arithmetic

def coreTag (name : String) : TagText :=
  ("tag:yaml.org,2002:" ++ name).toUTF8.toList

structure Properties where
  anchor : Option Nat := none
  tag : Option TagText := none
  deriving DecidableEq, Repr

/-- A node. Anchors are numbers here; a name may come to stand for another number further down. -/
inductive Node where
  | alias (anchor : Nat)
  | scalar (properties : Properties) (text : String) (plain : Bool)
  | sequence (properties : Properties) (items : List Node)
  | mapping (properties : Properties) (members : List (Node × Node))
  deriving Repr, Inhabited

namespace Node

def empty : Node :=
  .scalar {} "" true

def properties : Node → Properties
  | .alias _ => {}
  | .scalar properties _ _ | .sequence properties _ | .mapping properties _ => properties

mutual

def nodes : Node → List Node
  | .alias a => [.alias a]
  | .scalar p t q => [.scalar p t q]
  | .sequence p items => .sequence p items :: nodesOfItems items
  | .mapping p members => .mapping p members :: nodesOfMembers members

def nodesOfItems : List Node → List Node
  | [] => []
  | n :: rest => n.nodes ++ nodesOfItems rest

def nodesOfMembers : List (Node × Node) → List Node
  | [] => []
  | (k, v) :: rest => k.nodes ++ v.nodes ++ nodesOfMembers rest

end

/-- The nodes that aliases stand for: of several with one number, the one that starts last. -/
def anchored (n : Node) : List (Nat × Node) :=
  (n.nodes.filterMap fun m => m.properties.anchor.map (·, m)).reverse

def weight (n : Node) : Nat :=
  (n.nodes.map fun
    | .sequence .. | .mapping .. => 2
    | _ => 1).sum

end Node

structure NodeReader where
  tokens : List Token
  handles : List (String × TagText) := [("!", "!".toUTF8.toList), ("!!", coreTag "")]
  /-- The anchor names, each once, with their latest numbers. -/
  anchors : List (String × Nat) := []

namespace NodeReader

def skip (r : NodeReader) : NodeReader :=
  { r with tokens := r.tokens.tail }

def sees (r : NodeReader) (ts : List Token) : Bool :=
  r.tokens.head?.any ts.contains

/-- Declares an anchor. Its number is how many names there were before. -/
def declare (r : NodeReader) (name : String) : Nat × NodeReader :=
  let number := r.anchors.length
  (number, { r with anchors := (name, number) :: r.anchors.filter (·.1 ≠ name) })

def tag? (r : NodeReader) (handle : String) (suffix : TagText) : Option TagText :=
  if handle = "" then some suffix else (r.handles.lookup handle).map (· ++ suffix)

def properties? (r : NodeReader) : Option (Option String × Option TagText × NodeReader) := do
  match r.tokens with
  | .anchor name :: .tag handle suffix :: rest
  | .tag handle suffix :: .anchor name :: rest =>
    return (some name, some (← r.tag? handle suffix), { r with tokens := rest })
  | .anchor name :: rest => return (some name, none, { r with tokens := rest })
  | .tag handle suffix :: rest =>
    return (none, some (← r.tag? handle suffix), { r with tokens := rest })
  | _ => return (none, none, r)

inductive Context where
  | flow
  | block
  /-- As a key or value of a block mapping, where the entries of a sequence need no indentation. -/
  | member

mutual

def node? : Nat → Context → NodeReader → Option (Node × NodeReader)
  | 0, _, _ => none
  | fuel + 1, context, r =>
    match r.tokens with
    | .alias name :: _ => do return (.alias (← r.anchors.lookup name), r.skip)
    | _ => do
      let (name, tag, r) ← r.properties?
      let (anchor, r) := match name with
        | some name => let (number, r) := r.declare name; (some number, r)
        | none => (none, r)
      let properties : Properties := { anchor, tag }
      match context, r.tokens with
      | .member, .blockEntry :: _ => do
        let (items, r) ← entries? fuel true r
        return (.sequence properties items, r)
      | _, .scalar text plain :: _ => return (.scalar properties text plain, r.skip)
      | _, .flowSequenceStart :: _ => do
        let (items, r) ← items? fuel true r.skip
        return (.sequence properties items, r)
      | _, .flowMappingStart :: _ => do
        let (members, r) ← flowMembers? fuel true r.skip
        return (.mapping properties members, r)
      | .block, .blockSequenceStart :: _ | .member, .blockSequenceStart :: _ => do
        let (items, r) ← entries? fuel false r.skip
        return (.sequence properties items, r)
      | .block, .blockMappingStart :: _ | .member, .blockMappingStart :: _ => do
        let (members, r) ← members? fuel r.skip
        return (.mapping properties members, r)
      | _, _ =>
        if anchor.isSome || tag.isSome then return (.scalar properties "" true, r) else none

def nodeUnless? : Nat → Context → List Token → NodeReader → Option (Node × NodeReader)
  | 0, _, _, _ => none
  | fuel + 1, context, ends, r =>
    if r.sees ends then some (.empty, r) else node? fuel context r

/-- Reads the entries of a block sequence; `open_` says that its end is not marked. -/
def entries? : Nat → Bool → NodeReader → Option (List Node × NodeReader)
  | 0, _, _ => none
  | fuel + 1, unmarked, r =>
    if r.sees [.blockEntry] then do
      let ends := if unmarked then [.blockEntry, .key, .value, .blockEnd] else [.blockEntry, .blockEnd]
      let (item, r) ← nodeUnless? fuel .block ends r.skip
      let (rest, r) ← entries? fuel unmarked r
      return (item :: rest, r)
    else if unmarked then some ([], r)
    else if r.sees [.blockEnd] then some ([], r.skip)
    else none

def members? : Nat → NodeReader → Option (List (Node × Node) × NodeReader)
  | 0, _ => none
  | fuel + 1, r =>
    if r.sees [.key] then do
      let ends := [.key, .value, .blockEnd]
      let (key, r) ← nodeUnless? fuel .member ends r.skip
      let (value, r) ←
        if r.sees [.value] then nodeUnless? fuel .member ends r.skip else some (.empty, r)
      let (rest, r) ← members? fuel r
      return ((key, value) :: rest, r)
    else if r.sees [.blockEnd] then some ([], r.skip)
    else none

/-- Reads the items of a flow sequence, the first of which needs no comma. An item may be a mapping
    with one member, whose key must not be empty. -/
def items? : Nat → Bool → NodeReader → Option (List Node × NodeReader)
  | 0, _, _ => none
  | fuel + 1, first, r =>
    if r.sees [.flowSequenceEnd] then some ([], r.skip)
    else if !first && !r.sees [.flowEntry] then none
    else do
      let r := if first then r else r.skip
      if r.sees [.flowSequenceEnd] then some ([], r.skip)
      else if r.sees [.key] then do
        let (key, r) ← node? fuel .flow r.skip
        let (value, r) ←
          if r.sees [.value] then nodeUnless? fuel .flow [.flowEntry, .flowSequenceEnd] r.skip
          else some (.empty, r)
        let (rest, r) ← items? fuel false r
        return (.mapping {} [(key, value)] :: rest, r)
      else do
        let (item, r) ← node? fuel .flow r
        let (rest, r) ← items? fuel false r
        return (item :: rest, r)

def flowMembers? : Nat → Bool → NodeReader → Option (List (Node × Node) × NodeReader)
  | 0, _, _ => none
  | fuel + 1, first, r =>
    if r.sees [.flowMappingEnd] then some ([], r.skip)
    else if !first && !r.sees [.flowEntry] then none
    else do
      let r := if first then r else r.skip
      if r.sees [.flowMappingEnd] then some ([], r.skip)
      else if r.sees [.key] then do
        let (key, r) ← nodeUnless? fuel .flow [.value, .flowEntry, .flowMappingEnd] r.skip
        let (value, r) ←
          if r.sees [.value] then nodeUnless? fuel .flow [.flowEntry, .flowMappingEnd] r.skip
          else some (.empty, r)
        let (rest, r) ← flowMembers? fuel false r
        return ((key, value) :: rest, r)
      else do
        let (key, r) ← node? fuel .flow r
        let (rest, r) ← flowMembers? fuel false r
        return ((key, .empty) :: rest, r)

end

/-- Reads the directives of a document. At most one may give a version, which must be 1.1 or 1.2, and
    no handle may be declared twice. -/
def directives? : List (String × TagText) → Bool → List Token →
    Option (List (String × TagText) × List Token)
  | declared, versioned, .versionDirective major minor :: rest =>
    if versioned || major ≠ 1 || (minor ≠ 1 && minor ≠ 2) then none
    else directives? declared true rest
  | declared, versioned, .tagDirective handle lead :: rest =>
    if (declared.lookup handle).isSome then none
    else directives? ((handle, lead) :: declared) versioned rest
  | declared, _, rest => some (declared, rest)

/-- The only document of a text: none if the text has none, else its root. A document has an explicit
    start if it has directives, and nothing but its end may follow it. -/
def document? (tokens : List Token) : Option (Option Node) := do
  let r : NodeReader := { tokens }
  if tokens = [] then return none
  let explicit := tokens.head?.any fun
    | .versionDirective .. | .tagDirective .. | .documentStart => true
    | _ => false
  let r ←
    if explicit then do
      let (declared, rest) ← directives? [] false tokens
      match rest with
      | .documentStart :: rest =>
        some { r with tokens := rest, handles := declared ++ r.handles }
      | _ => none
    else some r
  -- a node takes a token, or an empty node ends at one
  let fuel := 4 * tokens.length + 4
  let (root, r) ←
    if explicit && (r.tokens = [] || r.tokens.head?.any fun
        | .versionDirective .. | .tagDirective .. | .documentStart | .documentEnd => true
        | _ => false) then some (.empty, r)
    else node? fuel .block r
  if r.tokens.all (· = .documentEnd) then return some root else none

end NodeReader

structure Document where
  root : Node
  anchored : List (Nat × Node)

/-- Reads a text with at most one document; `some none` if it has none. -/
def Document.ofString? (text : String) : Option (Option Document) := do
  let root ← NodeReader.document? (← tokenize? text)
  return root.map fun root => ⟨root, root.anchored⟩

end NativeCatalogue.Yaml
