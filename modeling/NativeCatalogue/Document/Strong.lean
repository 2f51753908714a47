set_option autoImplicit false

namespace NativeCatalogue

/-- The shortest text, not empty and without a newline, that a pair of marks follows, and what
    comes after the marks. -/
def strongInner (mark : Char) : List Char → Option (List Char × List Char)
  | c :: a :: b :: rest =>
    if c = '\n' then none
    else if a = mark && b = mark then some ([c], rest)
    else (strongInner mark (a :: b :: rest)).map fun (inner, after) => (c :: inner, after)
  | _ => none

def strongAt (mark : Char) : List Char → Option (List Char × List Char)
  | a :: b :: rest => if a = mark && b = mark then strongInner mark rest else none
  | _ => none

def splitStrongChars : List Char → Option (List Char × List Char)
  | [] => none
  | c :: rest =>
    ((strongAt '*' (c :: rest)).or (strongAt '_' (c :: rest))).or (splitStrongChars rest)

def splitStrong (text : String) : Option (String × String) :=
  (splitStrongChars text.toList).map fun (inner, after) => (.ofList inner, .ofList after)

end NativeCatalogue
