import NativeCatalogue.Document.Line

set_option autoImplicit false

namespace NativeCatalogue

structure ListItem where
  paragraphs : List String
  deriving DecidableEq, Repr

inductive Block where
  | heading (depth : Nat) (text : String)
  | code (language : Option String) (body : String)
  | paragraph (text : String)
  | list (items : List ListItem)
  deriving DecidableEq, Repr

def joinLines (lines : List String) : String :=
  "\n".intercalate lines

def paragraphOf (lines : List String) : List String :=
  if lines = [] then [] else [joinLines lines]

/-- The paragraphs of an item whose current paragraph has some lines already, and the lines after
    the item. A blank line goes on with the item only if an indented line follows that starts no
    item of its own. -/
def itemParagraphs (current : List String) (lines : List String) : List String × List String :=
  match lines with
  | [] => (paragraphOf current, [])
  | line :: rest =>
    match LineKind.ofLine line with
    | .blank =>
      match _h : rest.dropWhile isBlankLine with
      | [] => (paragraphOf current, line :: rest)
      | next :: more =>
        if isIndented next && !isItemLine next then
          let (paragraphs, after) := itemParagraphs [] (next :: more)
          (joinLines current :: paragraphs, after)
        else (paragraphOf current, line :: rest)
    | .plain => itemParagraphs (current ++ [line.trimBlanks]) rest
    | _ => (paragraphOf current, line :: rest)
termination_by lines.length
decreasing_by
  · have := (List.dropWhile_sublist isBlankLine (l := rest)).length_le
    rw [_h] at this
    simp only [List.length_cons] at this ⊢
    omega
  · simp

theorem itemParagraphs_length (current lines : List String) :
    (itemParagraphs current lines).2.length ≤ lines.length := by
  fun_induction itemParagraphs current lines with
  | case1 => simp
  | case2 => simp
  | case3 current line rest _ next more _ h1 paragraphs after h ih =>
    have := (List.dropWhile_sublist isBlankLine (l := rest)).length_le
    rw [h] at ih
    simp_all
    omega
  | case4 => simp
  | case5 current line rest _ ih => simp; omega
  | case6 => simp

/-- The items of a list whose first item starts with a text, and the lines after the list. Blank
    lines between items belong to the list. -/
def listItems (text : String) (lines : List String) : List ListItem × List String :=
  let item : ListItem := ⟨(itemParagraphs [text] lines).1⟩
  let after := (itemParagraphs [text] lines).2
  match _h : after.dropWhile isBlankLine with
  | [] => ([item], after)
  | next :: more =>
    match LineKind.ofLine next with
    | .item nextText =>
      let (items, rest) := listItems nextText more
      (item :: items, rest)
    | _ => ([item], after)
termination_by lines.length
decreasing_by
  have h1 := (List.dropWhile_sublist isBlankLine (l := (itemParagraphs [text] lines).2)).length_le
  have h2 := itemParagraphs_length [text] lines
  rw [_h] at h1
  simp only [List.length_cons] at h1
  omega

theorem listItems_length (text : String) (lines : List String) :
    (listItems text lines).2.length ≤ lines.length := by
  fun_induction listItems text lines with
  | case1 text lines => exact itemParagraphs_length _ _
  | case2 text lines item after next more h nextText _ items rest hr ih =>
    have h1 := (List.dropWhile_sublist isBlankLine (l := after)).length_le
    have h2 : after.length ≤ lines.length := itemParagraphs_length [text] lines
    rw [hr] at ih
    rw [h] at h1
    simp only [List.length_cons] at h1 ih ⊢
    omega
  | case3 text lines => exact itemParagraphs_length _ _

def fencedLines (marker : List Char) (lines : List String) : List String :=
  lines.takeWhile fun line => !closesFence marker line

/-- The lines after fenced code; without a closing line there are none. -/
def afterFence (marker : List Char) (lines : List String) : List String :=
  (lines.dropWhile fun line => !closesFence marker line).drop 1

def parseBlocks (lines : List String) : List Block :=
  match lines with
  | [] => []
  | line :: rest =>
    match LineKind.ofLine line with
    | .blank => parseBlocks rest
    | .fence marker language =>
      .code language (joinLines (fencedLines marker rest)) :: parseBlocks (afterFence marker rest)
    | .heading depth text => .heading depth text :: parseBlocks rest
    | .item text => .list (listItems text rest).1 :: parseBlocks (listItems text rest).2
    | .plain =>
      .paragraph (joinLines ((line :: rest.takeWhile isPlainLine).map String.trimBlanks)) ::
        parseBlocks (rest.dropWhile isPlainLine)
termination_by lines.length
decreasing_by
  · simp
  · have := (List.dropWhile_sublist (fun line => !closesFence marker line) (l := rest)).length_le
    simp only [afterFence, List.length_drop, List.length_cons]
    omega
  · simp
  · have := listItems_length text rest
    simp only [List.length_cons]
    omega
  · have := (List.dropWhile_sublist isPlainLine (l := rest)).length_le
    simp only [List.length_cons]
    omega

namespace Block

def render : Block → String
  | .heading depth text => .ofList (List.replicate depth '#') ++ " " ++ text
  | .code language body => "```" ++ language.getD "" ++ "\n" ++ body ++ "\n```"
  | .paragraph text => text
  | .list items =>
    "\n".intercalate (items.map fun item => "*   " ++ "\n\n    ".intercalate item.paragraphs)

end Block

def renderBlocks (blocks : List Block) : String :=
  ("\n\n".intercalate (blocks.map Block.render)).trimBlanks

def codeBlocks (blocks : List Block) : List (Option String × String) :=
  blocks.filterMap fun
    | .code language body => some (language, body)
    | _ => none

end NativeCatalogue
