import NativeCatalogue.Document.Block

/-!
What a document says, without its markup: once as its lines say it, and once as its blocks do. Fences cut
the lines before any other markup counts, so `openFence?` is all that lines need to know of those before
them. The text of blocks has no escapes: lines stand in it without their indentation, code stands between
three backticks whatever is in it, and the blanks at its end are gone. So a line of a block can turn into a
line of another kind, and `rereadable` says when none does.
-/

set_option autoImplicit false

namespace NativeCatalogue

def fenceStep (fence : Option (List Char)) (line : String) : Option (List Char) :=
  match fence with
  | some marker => if closesFence marker line then none else some marker
  | none =>
    match LineKind.ofLine line with
    | .fence marker _ => some marker
    | _ => none

def openFence? (lines : List String) : Option (List Char) :=
  lines.foldl fenceStep none

/-- What lines say: headings and items without their marks, the lines of text without the blanks at
    their ends, and what stands between two fences as it is. -/
def lineContents (lines : List String) : List String :=
  match lines with
  | [] => []
  | line :: rest =>
    match LineKind.ofLine line with
    | .blank => lineContents rest
    | .heading _ text => text :: lineContents rest
    | .item text => text :: lineContents rest
    | .plain => line.trimBlanks :: lineContents rest
    | .fence marker _ => joinLines (fencedLines marker rest) :: lineContents (afterFence marker rest)
termination_by lines.length
decreasing_by
  · simp
  · simp
  · simp
  · simp
  · have := (List.dropWhile_sublist (fun line => !closesFence marker line) (l := rest)).length_le
    simp only [afterFence, List.length_drop, List.length_cons]
    omega

def paragraphLines (text : String) : List String :=
  (Text.cutAt (· = '\n') text.toList).map .ofList

def Block.contents : Block → List String
  | .heading _ text => [text]
  | .code _ body => [body]
  | .paragraph text => paragraphLines text
  | .list items => items.flatMap fun item => item.paragraphs.flatMap paragraphLines

def codeMarker : List Char :=
  ['\x60', '\x60', '\x60']

/-- Whether a line stands for itself between two markers: it does not close the code, and has no
    carriage return that would go with its newline. -/
def staysInCode (line : String) : Bool :=
  !closesFence codeMarker line && line.toList.getLast? ≠ some '\r'

def ListItem.isRereadable (item : ListItem) : Bool :=
  item.paragraphs.all fun text => (paragraphLines text).tail.all isPlainLine

namespace Block

/-- Whether no line of a block is read as something else when the block is read from its text. -/
def isRereadable : Block → Bool
  | .heading _ text => LineKind.headingText text.toList = text.toList
  | .code _ body => (paragraphLines body).all staysInCode
  | .paragraph text => (paragraphLines text).all isPlainLine
  | .list items => items.all ListItem.isRereadable

def endsBare : Block → Bool
  | .list items => items.getLast?.any fun item => item.paragraphs = [""]
  | _ => false

end Block

def rereadable (blocks : List Block) : Bool :=
  blocks.all Block.isRereadable && !blocks.getLast?.any Block.endsBare

end NativeCatalogue
