import NativeCatalogue.Document.Block

set_option autoImplicit false

namespace NativeCatalogue

structure Document where
  frontMatter : Option String
  blocks : List Block
  deriving DecidableEq, Repr

def sameIgnoringCase (a b : String) : Bool :=
  a.toList.map Char.toLower = b.toList.map Char.toLower

namespace Document

def opensFrontMatter (line : String) : Bool :=
  Text.trimEnd line.toList = ['-', '-', '-']

def closesFrontMatter (line : String) : Bool :=
  Text.trimEnd line.toList = ['-', '-', '-'] || Text.trimEnd line.toList = ['.', '.', '.']

/-- The front matter and the number of the lines it takes, its fences included; without front
    matter that is zero. -/
def splitFrontMatter (lines : List String) : Option String × Nat :=
  match lines with
  | [] => (none, 0)
  | first :: rest =>
    if opensFrontMatter first && rest.any closesFrontMatter then
      let inside := rest.takeWhile (!closesFrontMatter ·)
      (some (joinLines inside), inside.length + 2)
    else (none, 0)

def dropMarks (source : String) : String :=
  .ofList (source.toList.dropWhile (· = '\ufeff'))

def ofLines (lines : List String) : Document :=
  let (frontMatter, start) := splitFrontMatter lines
  ⟨frontMatter, parseBlocks (lines.drop start)⟩

def parse (source : String) : Document :=
  ofLines (Text.lines (dropMarks source))

def afterHeading? (title : String) : List Block → Option (Nat × List Block)
  | [] => none
  | .heading depth text :: rest =>
    if sameIgnoringCase text title then some (depth, rest) else afterHeading? title rest
  | _ :: rest => afterHeading? title rest

def isBelow (depth : Nat) : Block → Bool
  | .heading d _ => depth < d
  | _ => true

def sectionOf? (doc : Document) (title : String) : Option (List Block) :=
  (afterHeading? title doc.blocks).map fun (depth, rest) => rest.takeWhile (isBelow depth)

end Document

end NativeCatalogue
