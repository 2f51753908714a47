import NativeCatalogue.Text.Basic

set_option autoImplicit false

namespace NativeCatalogue

inductive PathStep where
  | root
  /-- Stays in the directory: `.` or nothing at all. -/
  | current
  | parent
  | name (text : String)
  deriving DecidableEq, Repr

namespace PathStep

def ofPiece (piece : List Char) : PathStep :=
  if piece = [] || piece = ['.'] then .current
  else if piece = ['.', '.'] then .parent
  else .name (.ofList piece)

def isCurrent : PathStep → Bool
  | .current => true
  | _ => false

def name? : PathStep → Option String
  | .name text => some text
  | _ => none

def rank : PathStep → Nat
  | .root => 0
  | .current => 1
  | .parent => 2
  | .name _ => 3

def nameText (s : PathStep) : String :=
  s.name?.getD ""

instance : Ord PathStep where
  compare := compareLex (compareOn rank) (compareOn nameText)

end PathStep

structure Path where
  text : String
  deriving DecidableEq, Repr, Inhabited

namespace Path

def pieces (p : Path) : List (List Char) :=
  Text.cutAt (· = '/') p.text.toList

def steps (p : Path) : List PathStep :=
  if p.text = "" then []
  else
    match p.pieces with
    | [] :: rest => .root :: rest.map PathStep.ofPiece
    | rest => rest.map PathStep.ofPiece

/-- The steps that matter: those that stay where they are count only at the start. -/
def components (p : Path) : List PathStep :=
  match p.steps with
  | [] => []
  | first :: rest => first :: rest.filter (!·.isCurrent)

def fileName? (p : Path) : Option String :=
  p.components.getLast?.bind PathStep.name?

def directoryName? (p : Path) : Option String :=
  p.components.dropLast.getLast?.bind PathStep.name?

def join (p : Path) (name : String) : Path :=
  if p.text.toList.getLast? = some '/' then ⟨p.text ++ name⟩ else ⟨p.text ++ "/" ++ name⟩

def withoutEndSlashes (p : Path) : Path :=
  ⟨.ofList (p.text.toList.reverse.dropWhile (· = '/')).reverse⟩

def le (a b : Path) : Bool :=
  (compare a.components b.components).isLE

end Path

end NativeCatalogue
