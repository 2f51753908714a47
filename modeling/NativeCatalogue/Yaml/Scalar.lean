import NativeCatalogue.Yaml.Token

set_option autoImplicit false

namespace NativeCatalogue.Yaml

/-- The text of a scalar so far, last character first, and the blanks or breaks since. -/
structure Folding where
  text : List Char := []
  blanks : List Char := []
  /-- Whether a break has come since the last character of the text. -/
  broken : Bool := false
  firstBreak : Option Char := none
  moreBreaks : List Char := []

namespace Folding

def blank (f : Folding) (c : Char) : Folding :=
  if f.broken then f else { f with blanks := c :: f.blanks }

def lineBreak (f : Folding) (c : Char) : Folding :=
  if f.broken then { f with moreBreaks := c :: f.moreBreaks }
  else { f with blanks := [], broken := true, firstBreak := some c }

def settle (f : Folding) : Folding :=
  if f.broken then
    match f.firstBreak with
    | some '\n' =>
      { text := (if f.moreBreaks = [] then [' '] else f.moreBreaks) ++ f.text }
    | some c => { text := f.moreBreaks ++ c :: f.text }
    | none => { text := f.moreBreaks ++ f.text }
  else { text := f.blanks ++ f.text }

def push (f : Folding) (c : Char) : Folding :=
  { f.settle with text := c :: f.settle.text }

def result (f : Folding) : String :=
  .ofList f.text.reverse

end Folding

def endsFlowScalar (c : Char) : Bool :=
  c = ',' || c = '[' || c = ']' || c = '\x7b' || c = '\x7d'

/-- Reads a plain scalar on from a place; `atStart` says that blanks or breaks came last. Gives the
    folding and the cursor after the scalar and the blanks behind it. -/
def scanPlain (flow : Bool) (indent : Int) :
    Folding → Bool → Place → List Char → Option (Folding × Cursor)
  | f, _, p, [] => some (f, ⟨p, []⟩)
  | f, atStart, p, c :: rest =>
    if isBlank c then
      if f.broken && (p.column : Int) < indent && c = '\t' then none
      else scanPlain flow indent (f.blank c) true (p.after c) rest
    else if isBreak c then scanPlain flow indent (f.lineBreak c) true (p.after c) rest
    else
      let here := (f, (⟨p, c :: rest⟩ : Cursor))
      let marker := p.column = 0 && (atDocumentStart (c :: rest) || atDocumentEnd (c :: rest))
      if atStart && ((!flow && (p.column : Int) < indent) || marker || c = '#') then some here
      else if flow && c = ':' && rest.head?.any (fun d => endsFlowScalar d || d = '?') then none
      else if (c = ':' && atGap rest) || (flow && endsFlowScalar c) then some here
      else scanPlain flow indent (f.push c) false (p.after c) rest

def escaped? (c : Char) : Option Char :=
  match c with
  | '0' => some (.ofNat 0)
  | 'a' => some (.ofNat 7)
  | 'b' => some (.ofNat 8)
  | 't' | '\t' => some '\t'
  | 'n' => some '\n'
  | 'v' => some (.ofNat 11)
  | 'f' => some (.ofNat 12)
  | 'r' => some '\r'
  | 'e' => some (.ofNat 27)
  | ' ' => some ' '
  | '"' => some '"'
  | '/' => some '/'
  | '\\' => some '\\'
  | 'N' => some (.ofNat 0x85)
  | '_' => some (.ofNat 0xA0)
  | 'L' => some (.ofNat 0x2028)
  | 'P' => some (.ofNat 0x2029)
  | _ => none

def escapeDigits? (c : Char) : Option Nat :=
  match c with
  | 'x' => some 2
  | 'u' => some 4
  | 'U' => some 8
  | _ => none

def charOf? (n : Nat) : Option Char :=
  if h : n.isValidChar then some (.ofNatAux n h) else none

inductive QuotedMode where
  | start
  | run
  | doubled
  | escape
  | digits (missing value : Nat)

def scanQuoted (single : Bool) :
    Folding → QuotedMode → Place → List Char → Option (Folding × Cursor)
  | _, _, _, [] => none
  | f, mode, p, c :: rest =>
    match mode with
    | .doubled => scanQuoted single (f.push c) .run (p.after c) rest
    | .escape =>
      if isBreak c then scanQuoted single { f with broken := true } .start (p.after c) rest
      else
        match escapeDigits? c with
        | some n => scanQuoted single f (.digits n 0) (p.after c) rest
        | none =>
          match escaped? c with
          | some d => scanQuoted single (f.push d) .run (p.after c) rest
          | none => none
    | .digits missing value =>
      match Hash.digit? c with
      | none => none
      | some d =>
        let value := value * 16 + d
        if missing ≤ 1 then
          match charOf? value with
          | some char => scanQuoted single (f.push char) .run (p.after c) rest
          | none => none
        else scanQuoted single f (.digits (missing - 1) value) (p.after c) rest
    | mode =>
      if isBlank c then scanQuoted single (f.blank c) .start (p.after c) rest
      else if isBreak c then scanQuoted single (f.lineBreak c) .start (p.after c) rest
      else
        let atStart := match mode with
          | .start => true
          | _ => false
        let marker := p.column = 0 && (atDocumentStart (c :: rest) || atDocumentEnd (c :: rest))
        if atStart && marker then none
        else if single && c = '\'' && rest.head? = some '\'' then
          scanQuoted single f .doubled (p.after c) rest
        else if c = (if single then '\'' else '"') then some (f.settle, ⟨p.after c, rest⟩)
        else if !single && c = '\\' then scanQuoted single f.settle .escape (p.after c) rest
        else scanQuoted single (f.push c) .run (p.after c) rest

inductive Chomping where
  | strip
  | clip
  | keep
  deriving DecidableEq

/-- The header of a block scalar: chomping and an explicit indentation, in either order. -/
def blockHeader (cs : List Char) : Option (Chomping × Nat × List Char) :=
  let chomp (cs : List Char) : Option (Chomping × List Char) :=
    match cs with
    | '+' :: rest => some (.keep, rest)
    | '-' :: rest => some (.strip, rest)
    | _ => none
  let digit (cs : List Char) : Option (Nat × List Char) :=
    match cs with
    | c :: rest =>
      if c.isDigit then if c = '0' then none else some (c.toNat - '0'.toNat, rest) else some (0, cs)
    | [] => some (0, [])
  match chomp cs with
  | some (c, rest) => (digit rest).map fun (n, after) => (c, n, after)
  | none => do
    let (n, rest) ← digit cs
    match if n = 0 then none else chomp rest with
    | some (c, after) => some (c, n, after)
    | none => some (.clip, n, rest)

structure Block where
  literal : Bool
  /-- The indentation of its lines; zero until the first line shows it. -/
  indent : Nat
  least : Nat
  text : List Char := []
  leadingBreak : Option Char := none
  breaks : List Char := []
  leadingBlank : Bool := false
  widest : Nat := 0

/-- Starts a line of content: adds the breaks before it, of which one is folded between two lines
    that do not start with a blank. -/
def Block.startLine (b : Block) (c : Char) : Block :=
  let folded := !b.literal && b.leadingBreak = some '\n' && !b.leadingBlank && !isBlank c
  let text :=
    if folded then (if b.breaks = [] then [' '] else []) ++ b.text
    else b.leadingBreak.toList ++ b.text
  { b with text := b.breaks ++ text, leadingBreak := none, breaks := [], leadingBlank := isBlank c }

def Block.settleIndent (b : Block) : Block :=
  if b.indent = 0 then { b with indent := max (max b.widest b.least) 1 } else b

/-- Reads a block scalar on from a place; `inLine` says that a line of content has begun. -/
def scanBlock : Block → Bool → Place → List Char → Option (Block × Cursor)
  | b, _, p, [] => some (b.settleIndent, ⟨p, []⟩)
  | b, true, p, c :: rest =>
    if isBreak c then scanBlock { b with leadingBreak := some c } false (p.after c) rest
    else scanBlock { b with text := c :: b.text } true (p.after c) rest
  | b, false, p, c :: rest =>
    let eats := b.indent = 0 || p.column < b.indent
    if eats && c = ' ' then
      scanBlock { b with widest := max b.widest (p.column + 1) } false (p.after c) rest
    else if eats && c = '\t' then none
    else if isBreak c then scanBlock { b with breaks := c :: b.breaks } false (p.after c) rest
    else
      let b := { b with widest := max b.widest p.column }.settleIndent
      if p.column = b.indent then
        let b := b.startLine c
        scanBlock { b with text := c :: b.text } true (p.after c) rest
      else some (b, ⟨p, c :: rest⟩)

def Block.result (b : Block) (chomping : Chomping) : String :=
  let tail := match chomping with
    | .strip => []
    | .clip => b.leadingBreak.toList
    | .keep => b.breaks ++ b.leadingBreak.toList
  .ofList (tail ++ b.text).reverse

end NativeCatalogue.Yaml
