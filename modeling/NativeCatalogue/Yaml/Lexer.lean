import NativeCatalogue.Yaml.Scalar

/-!
Cutting a YAML text into tokens. Indentation is made visible: a block collection opens where content
stands further right than what is around it, and closes where it no longer does. A key is seen only
at its colon; until then its place is kept open by a token that is settled when all is read.
-/

set_option autoImplicit false

namespace NativeCatalogue.Yaml

structure PendingKey where
  id : Nat
  place : Place
  /-- Whether the block around it has no other reading. -/
  required : Bool

/-- What is known of a possible key once its colon is found: whether a block mapping opens with it. -/
structure FoundKey where
  id : Nat
  opensMapping : Bool

structure Lexer where
  cursor : Cursor
  tokens : List Token := []
  /-- The key that may be pending in each open flow collection, innermost first, and in the block
      around them. -/
  pending : List (Option PendingKey) := [none]
  found : List FoundKey := []
  indents : List Nat := []
  keyAllowed : Bool := true
  nextId : Nat := 0

namespace Lexer

def inFlow (s : Lexer) : Bool :=
  1 < s.pending.length

def indent (s : Lexer) : Int :=
  match s.indents with
  | [] => -1
  | column :: _ => column

def emit (s : Lexer) (t : Token) : Lexer :=
  { s with tokens := t :: s.tokens }

def skip (s : Lexer) (n : Nat) : Lexer :=
  { s with cursor := s.cursor.skip n }

def allowKey (s : Lexer) (allowed : Bool) : Lexer :=
  { s with keyAllowed := allowed }

def keyLimit : Nat := 1024

/-- Whether a pending key can no longer have its colon here: it is on another line or too far away. -/
def isStale (s : Lexer) (k : PendingKey) : Bool :=
  k.place.line < s.cursor.place.line || k.place.offset + keyLimit < s.cursor.place.offset

def dropKey (s : Lexer) : Option Lexer :=
  match s.pending with
  | some k :: rest => if k.required then none else some { s with pending := none :: rest }
  | _ => some s

def markKey (s : Lexer) : Option Lexer :=
  if s.keyAllowed then do
    let s ← s.dropKey
    let required := !s.inFlow && s.indent = (s.cursor.place.column : Int)
    let k : PendingKey := ⟨s.nextId, s.cursor.place, required⟩
    return { s with
      tokens := .possibleKey s.nextId :: s.tokens
      pending := some k :: s.pending.drop 1
      nextId := s.nextId + 1 }
  else some s

def openBlock (s : Lexer) (column : Nat) (t : Token) : Lexer :=
  if !s.inFlow && s.indent < (column : Int) then
    { s with indents := column :: s.indents, tokens := t :: s.tokens }
  else s

def closeBlocks (s : Lexer) (column : Int) : Lexer :=
  if s.inFlow then s
  else
    let closed := s.indents.takeWhile fun (c : Nat) => decide (column < (c : Int))
    { s with
      indents := s.indents.drop closed.length
      tokens := List.replicate closed.length .blockEnd ++ s.tokens }

/-- Skips blanks, breaks and comments. A tab counts as a blank only where no key may start. A byte order
    mark at the start of a line is skipped, but takes a column. -/
def skipGap (flow : Bool) : Bool → Bool → Place → List Char → Bool × Cursor
  | allowed, _, p, [] => (allowed, ⟨p, []⟩)
  | allowed, true, p, c :: rest =>
    if isBreak c then skipGap flow (allowed || !flow) false (p.after c) rest
    else skipGap flow allowed true (p.after c) rest
  | allowed, false, p, c :: rest =>
    if c = ' ' || ((flow || !allowed) && c = '\t') then
      skipGap flow allowed false (p.after c) rest
    else if c = '#' then skipGap flow allowed true (p.after c) rest
    else if isBreak c then skipGap flow (allowed || !flow) false (p.after c) rest
    else if p.column = 0 && c = '\ufeff' then skipGap flow allowed false (p.after c) rest
    else (allowed, ⟨p, c :: rest⟩)

def toToken (s : Lexer) : Lexer :=
  let (allowed, cursor) := skipGap s.inFlow s.keyAllowed false s.cursor.place s.cursor.rest
  { s with keyAllowed := allowed, cursor }

def dropStale (s : Lexer) : Option Lexer := do
  let pending ← s.pending.mapM fun k =>
    match k with
    | some k => if s.isStale k then if k.required then none else some none else some (some k)
    | none => some none
  return { s with pending }

def scanHandle (c : Cursor) : Option (String × Cursor) :=
  match c.rest with
  | '!' :: _ =>
    let (name, after) := (c.skip 1).span isNameChar
    match after.rest with
    | '!' :: _ => some (.ofList ('!' :: name ++ ['!']), after.skip 1)
    | _ => some (.ofList ('!' :: name), after)
  | _ => none

def isTagChar (full : Bool) (c : Char) : Bool :=
  isNameChar c || ";/?:@&=+$.!~*'()".toList.contains c || (full && ",[]".toList.contains c)

def continuation? (byte : UInt8) : Option Nat :=
  if byte < 0x80 then some 0
  else if 0xC0 ≤ byte && byte < 0xE0 then some 1
  else if 0xE0 ≤ byte && byte < 0xF0 then some 2
  else if 0xF0 ≤ byte && byte < 0xF8 then some 3
  else none

/-- How many bytes of a character are still to come after a byte, if `missing` were to come before. -/
def missingAfter? (missing : Nat) (byte : UInt8) : Option Nat :=
  match missing with
  | 0 => continuation? byte
  | n + 1 => if 0x80 ≤ byte && byte < 0xC0 then some n else none

/-- Reads the text of a tag, in which a percent sign and two digits stand for a byte; `missing` bytes
    of the current character are still to come. Gives the bytes and how many characters they take. -/
def scanTagText (full : Bool) : Nat → List Char → Option (TagText × Nat)
  | missing, '%' :: a :: b :: rest => do
    let byte : UInt8 := .ofNat ((← Hash.digit? a) * 16 + (← Hash.digit? b))
    let (text, n) ← scanTagText full (← missingAfter? missing byte) rest
    return (byte :: text, n + 3)
  | 0, c :: rest =>
    if c = '%' then none
    else if isTagChar full c then do
      let (text, n) ← scanTagText full 0 rest
      return (.ofNat c.toNat :: text, n + 1)
    else some ([], 0)
  | 0, [] => some ([], 0)
  | _ + 1, _ => none

/-- The bytes of a text up to the first null byte, which ends it. -/
def tagText (bytes : List UInt8) : TagText :=
  bytes.takeWhile (· ≠ 0)

def scanTagTextAt (full : Bool) (head : String) (c : Cursor) : Option (TagText × Cursor) := do
  let (text, n) ← scanTagText full 0 c.rest
  if n = 0 && head.isEmpty then none
  else return (tagText (head.toUTF8.toList.drop 1 ++ text), c.skip n)

def scanTag (s : Lexer) : Option Lexer := do
  let c := s.cursor
  let (handle, suffix, after) ←
    match c.rest with
    | '!' :: '<' :: _ => do
      let (text, after) ← scanTagTextAt true "" (c.skip 2)
      match after.rest with
      | '>' :: _ => some ("", text, after.skip 1)
      | _ => none
    | _ => do
      let (handle, after) ← scanHandle c
      if 2 ≤ handle.length && handle.endsWith "!" then
        let (text, after) ← scanTagTextAt false "" after
        some (handle, text, after)
      else
        let (text, after) ← scanTagTextAt false handle after
        if text = [] then some ("", "!".toUTF8.toList, after) else some ("!", text, after)
  if (s.inFlow && after.rest.head? = some ',') || atGap after.rest then
    return { (s.emit (.tag handle suffix)) with cursor := after }
  else none

def scanName (s : Lexer) (make : String → Token) : Option Lexer :=
  let (name, after) := (s.cursor.skip 1).span isNameChar
  let ends := atGap after.rest || after.rest.head?.any fun c => "?:,]\x7d%@`".toList.contains c
  if name = [] || !ends then none
  else some { (s.emit (make (.ofList name))) with cursor := after }

def scanLineEnd (c : Cursor) : Option Cursor :=
  let (_, c) := c.span isBlank
  let (_, c) := if c.rest.head? = some '#' then c.span (!isBreak ·) else ([], c)
  match c.rest with
  | [] => some c
  | b :: rest => if isBreak b then some ⟨c.place.after b, rest⟩ else none

def scanVersionNumber (c : Cursor) : Option (Nat × Cursor) :=
  let (digits, after) := c.span Char.isDigit
  if digits = [] || 9 < digits.length then none
  else some ((String.ofList digits).toNat?.getD 0, after)

def scanDirective (s : Lexer) : Option Lexer := do
  let (name, c) := (s.cursor.skip 1).span isNameChar
  if name = [] || !atGap c.rest then none
  else
    let (_, c) := c.span isBlank
    let (token, c) ←
      if String.ofList name = "YAML" then do
        let (major, c) ← scanVersionNumber c
        match c.rest with
        | '.' :: _ => do
          let (minor, c) ← scanVersionNumber (c.skip 1)
          some (Token.versionDirective major minor, c)
        | _ => none
      else if String.ofList name = "TAG" then do
        let (handle, c) ← scanHandle c
        if handle ≠ "!" && !(2 ≤ handle.length && handle.endsWith "!") then none
        else if !(c.rest.head?.any isBlank) then none
        else
          let (_, c) := c.span isBlank
          let (lead, c) ← scanTagTextAt true "" c
          if atGap c.rest then some (.tagDirective handle lead, c) else none
      else none
    return { (s.emit token) with cursor := ← scanLineEnd c }

def scanBlockScalar (s : Lexer) (literal : Bool) : Option Lexer := do
  let (chomping, increment, rest) ← blockHeader (s.cursor.rest.drop 1)
  let start : Cursor := s.cursor.skip (s.cursor.rest.length - rest.length)
  let body ← scanLineEnd start
  let indent := if increment = 0 then 0 else (max s.indent 0).toNat + increment
  let (b, after) ←
    scanBlock { literal, indent, least := (s.indent + 1).toNat } false body.place body.rest
  return { (s.emit (.scalar (b.result chomping) false)) with cursor := after }

def scanQuotedScalar (s : Lexer) (single : Bool) : Option Lexer := do
  let c := s.cursor.skip 1
  let (f, after) ← scanQuoted single {} .start c.place c.rest
  return { (s.emit (.scalar f.result false)) with cursor := after }

/-- Reads a plain scalar. A break behind it lets a key start. -/
def scanPlainScalar (s : Lexer) : Option Lexer := do
  let (f, after) ← scanPlain s.inFlow (s.indent + 1) {} false s.cursor.place s.cursor.rest
  return { (s.emit (.scalar f.result true)) with
    cursor := after, keyAllowed := s.keyAllowed || f.broken }

def closeDocument (s : Lexer) : Option Lexer := do
  return (← (s.closeBlocks (-1)).dropKey).allowKey false

def openFlow (s : Lexer) (t : Token) : Option Lexer := do
  let s ← s.markKey
  return ({ s with pending := none :: s.pending, keyAllowed := true }.emit t).skip 1

def closeFlow (s : Lexer) (t : Token) : Option Lexer := do
  let s ← s.dropKey
  let pending := if s.inFlow then s.pending.drop 1 else s.pending
  return ({ s with pending, keyAllowed := false }.emit t).skip 1

def blockIndicator (s : Lexer) (opener t : Token) (keyAfter : Bool) : Option Lexer :=
  if !s.inFlow && !s.keyAllowed then none
  else do
    let s ← (s.openBlock s.cursor.place.column opener).dropKey
    return ((s.allowKey keyAfter).emit t).skip 1

def colon (s : Lexer) : Option Lexer :=
  match s.pending with
  | some k :: rest =>
    let opensMapping := !s.inFlow && s.indent < (k.place.column : Int)
    some (({ s with
      pending := none :: rest
      found := ⟨k.id, opensMapping⟩ :: s.found
      indents := if opensMapping then k.place.column :: s.indents else s.indents
      keyAllowed := false }.emit .value).skip 1)
  | _ =>
    if !s.inFlow && !s.keyAllowed then none
    else
      let s := s.openBlock s.cursor.place.column .blockMappingStart
      some (((s.allowKey !s.inFlow).emit .value).skip 1)

def indicators : List Char :=
  "-?:,[]\x7b\x7d#&*!|>'\"%@`".toList

def tokenAt (s : Lexer) (c : Char) (next : List Char) : Option Lexer :=
  let text := c :: next
  let atStart := s.cursor.place.column = 0
  let spaced := atGap next
  if atStart && c = '%' then do (← s.closeDocument).scanDirective
  else if atStart && atDocumentStart text then do
    return ((← s.closeDocument).emit .documentStart).skip 3
  else if atStart && atDocumentEnd text then do
    return ((← s.closeDocument).emit .documentEnd).skip 3
  else if c = '[' then s.openFlow .flowSequenceStart
  else if c = '\x7b' then s.openFlow .flowMappingStart
  else if c = ']' then s.closeFlow .flowSequenceEnd
  else if c = '\x7d' then s.closeFlow .flowMappingEnd
  else if c = ',' then do return (((← s.dropKey).allowKey true).emit .flowEntry).skip 1
  else if c = '-' && spaced then s.blockIndicator .blockSequenceStart .blockEntry true
  else if c = '?' && (s.inFlow || spaced) then
    s.blockIndicator .blockMappingStart .key !s.inFlow
  else if c = ':' && (s.inFlow || spaced) then s.colon
  else if c = '*' then do ((← s.markKey).allowKey false).scanName .alias
  else if c = '&' then do ((← s.markKey).allowKey false).scanName .anchor
  else if c = '!' then do ((← s.markKey).allowKey false).scanTag
  else if !s.inFlow && (c = '|' || c = '>') then do
    ((← s.dropKey).allowKey true).scanBlockScalar (c = '|')
  else if c = '\'' || c = '"' then do ((← s.markKey).allowKey false).scanQuotedScalar (c = '\'')
  else if c = '\t' then none
  else if !indicators.contains c || c = '-' || (!s.inFlow && (c = '?' || c = ':') && !spaced) then do
    ((← s.markKey).allowKey false).scanPlainScalar
  else none

def step (s : Lexer) : Option Lexer := do
  let s ← s.toToken.dropStale
  match s.cursor.rest with
  | [] => (s.closeBlocks (-1)).dropKey
  | c :: next => (s.closeBlocks s.cursor.place.column).tokenAt c next

def run (s : Lexer) : Option Lexer :=
  match s.step with
  | none => none
  | some after =>
    if after.cursor.rest = [] then after.step
    else if after.cursor.rest.length < s.cursor.rest.length then run after
    else none
termination_by s.cursor.rest.length

def settle (s : Lexer) : List Token :=
  s.tokens.reverse.flatMap fun
    | .possibleKey id =>
      match s.found.find? (·.id = id) with
      | some k => if k.opensMapping then [.blockMappingStart, .key] else [.key]
      | none => []
    | t => [t]

end Lexer

def tokenize? (text : String) : Option (List Token) :=
  if text.toList.all isAllowed then
    (Lexer.run { cursor := ⟨.start, normalizeBreaks text.toList⟩ }).map Lexer.settle
  else none

end NativeCatalogue.Yaml
