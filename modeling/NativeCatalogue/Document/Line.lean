import NativeCatalogue.Text.Basic
import NativeCatalogue.Text.Word

set_option autoImplicit false

namespace NativeCatalogue

inductive LineKind where
  | blank
  | heading (depth : Nat) (text : String)
  | fence (marker : List Char) (language : Option String)
  | item (text : String)
  | plain
  deriving DecidableEq, Repr

namespace LineKind

def isGap (c : Char) : Bool :=
  c = ' ' || c = '\t'

def dropEndWhile (p : Char → Bool) (cs : List Char) : List Char :=
  (cs.reverse.dropWhile p).reverse

def unindent? (cs : List Char) : Option (List Char) :=
  if (cs.takeWhile (· = ' ')).length ≤ 3 then some (cs.dropWhile (· = ' ')) else none

/-- The text of a heading: closing number signs behind a gap do not belong to it. -/
def headingText (cs : List Char) : List Char :=
  let body := dropEndWhile isGap cs
  let opened := dropEndWhile (· = '#') body
  if opened.length < body.length && opened.getLast?.any isGap then dropEndWhile isGap opened
  else body

def heading? (cs : List Char) : Option LineKind :=
  let depth := (cs.takeWhile (· = '#')).length
  let rest := cs.dropWhile (· = '#')
  if depth = 0 || 6 < depth then none
  else if rest = [] then some (.heading depth "")
  else if rest.head?.any isGap then
    some (.heading depth (.ofList (Text.trim (headingText (rest.dropWhile isGap)))))
  else none

def isFenceChar (c : Char) : Bool :=
  c = '\x60' || c = '~'

def fenceLanguage (cs : List Char) : Option String :=
  let word := (cs.dropWhile isGap).takeWhile fun c => !Text.isBlank c && c ≠ '\x60'
  if word = [] then none else some (.ofList word)

def fence? (cs : List Char) : Option LineKind :=
  match cs with
  | [] => none
  | c :: _ =>
    let marker := cs.takeWhile (· = c)
    if isFenceChar c && 3 ≤ marker.length then
      some (.fence marker (fenceLanguage (cs.dropWhile (· = c))))
    else none

/-- What follows the marker of an item: a bullet, or up to nine digits and a point or parenthesis. -/
def afterMarker? (cs : List Char) : Option (List Char) :=
  match cs with
  | [] => none
  | c :: rest =>
    if c = '*' || c = '+' || c = '-' then some rest
    else
      let digits := cs.takeWhile Text.isDecimalDigit
      match cs.dropWhile Text.isDecimalDigit with
      | d :: more =>
        if digits ≠ [] && digits.length ≤ 9 && (d = '.' || d = ')') then some more else none
      | [] => none

def item? (cs : List Char) : Option LineKind := do
  let rest ← afterMarker? cs
  if rest.head?.any isGap then
    some (.item (.ofList (Text.trim (rest.dropWhile isGap))))
  else none

def ofLine (line : String) : LineKind :=
  let cs := line.toList
  if cs.all Text.isBlank then .blank
  else
    ((unindent? cs).bind fun body => (fence? body).or ((heading? body).or (item? body))).getD .plain

end LineKind

def isBlankLine (line : String) : Bool :=
  LineKind.ofLine line = .blank

def isIndented (line : String) : Bool :=
  match line.toList with
  | ' ' :: ' ' :: _ => true
  | '\t' :: _ => true
  | _ => false

def isItemLine (line : String) : Bool :=
  match LineKind.ofLine line with
  | .item _ => true
  | _ => false

def isPlainLine (line : String) : Bool :=
  LineKind.ofLine line = .plain

/-- Whether a line closes fenced code with a marker: it starts with the marker and has no other
    character. -/
def closesFence (marker : List Char) (line : String) : Bool :=
  let body := Text.trimStart line.toList
  marker.isPrefixOf body && (Text.trimEnd body).all fun c => some c = marker.head?

end NativeCatalogue
