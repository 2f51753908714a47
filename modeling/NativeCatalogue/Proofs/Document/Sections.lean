import NativeCatalogue.Document.Basic
import NativeCatalogue.Proofs.Document.Cuts
import NativeCatalogue.Proofs.Text.Pieces

set_option autoImplicit false

namespace NativeCatalogue.Document

open LineKind

theorem afterHeading?_append {title : String} {blocks : List Block}
    (h : ∀ depth text, Block.heading depth text ∈ blocks → sameIgnoringCase text title = false)
    (rest : List Block) : afterHeading? title (blocks ++ rest) = afterHeading? title rest := by
  induction blocks with
  | nil => rfl
  | cons block blocks ih =>
    have ih := ih fun depth text hmem => h depth text (List.mem_cons_of_mem block hmem)
    cases block with
    | heading depth text =>
      rw [List.cons_append, afterHeading?, h depth text List.mem_cons_self]
      exact ih
    | code language body => exact ih
    | paragraph text => exact ih
    | list items => exact ih

theorem sectionOf?_of_heading {title text : String} (htitle : sameIgnoringCase text title = true)
    {before : List Block}
    (hbefore : ∀ depth text, Block.heading depth text ∈ before → sameIgnoringCase text title = false)
    (frontMatter : Option String) (depth : Nat) (behind : List Block) :
    sectionOf? ⟨frontMatter, before ++ .heading depth text :: behind⟩ title =
      some (behind.takeWhile (isBelow depth)) := by
  rw [sectionOf?, afterHeading?_append hbefore, afterHeading?, if_pos htitle, Option.map_some]

theorem takeWhile_isBelow {depth : Nat} {body rest : List Block}
    (hbody : ∀ d text, Block.heading d text ∈ body → depth < d)
    (hrest : ∀ block ∈ rest.head?, isBelow depth block = false) :
    (body ++ rest).takeWhile (isBelow depth) = body := by
  refine (List.takeWhile_append_of_head (List.all_eq_true.2 fun block hblock => ?_) hrest).1
  cases block with
  | heading d text => exact decide_eq_true (hbody d text hblock)
  | code language body => rfl
  | paragraph text => rfl
  | list items => rfl

/-- Lines at which a section of a rank ends: none, or a heading of the same or a higher rank first. -/
def endsSection (depth : Nat) (rest : List String) : Prop :=
  rest = [] ∨ ∃ line more d text, rest = line :: more ∧ ofLine line = .heading d text ∧ d ≤ depth

theorem parseBlocks_endsSection {depth : Nat} {body rest : List String}
    (hbody : openFence? body = none) (hrest : endsSection depth rest) :
    parseBlocks (body ++ rest) = parseBlocks body ++ parseBlocks rest ∧
      ∀ block ∈ (parseBlocks rest).head?, isBelow depth block = false := by
  rcases hrest with rfl | ⟨line, more, d, text, rfl, hline, hd⟩
  · rw [parseBlocks_nil, List.append_nil, List.append_nil]
    exact ⟨rfl, by simp⟩
  · refine ⟨parseBlocks_append_cut (by rw [hline]; rfl) more hbody, fun block hblock => ?_⟩
    rw [parseBlocks_heading hline, List.head?_cons, Option.mem_some_iff] at hblock
    rw [← hblock]
    exact decide_eq_false (Nat.not_lt.2 hd)

/-- A section has the blocks of its own lines, whatever stands before its heading and behind it. -/
theorem sectionOf?_parseBlocks {before body rest : List String} {line title text : String}
    {depth : Nat} (hline : ofLine line = .heading depth text)
    (htitle : sameIgnoringCase text title = true)
    (hfirst : ∀ d t, Block.heading d t ∈ parseBlocks before → sameIgnoringCase t title = false)
    (hbefore : openFence? before = none) (hbody : openFence? body = none)
    (hdeeper : ∀ d t, Block.heading d t ∈ parseBlocks body → depth < d)
    (hrest : endsSection depth rest) (frontMatter : Option String) :
    sectionOf? ⟨frontMatter, parseBlocks (before ++ line :: (body ++ rest))⟩ title =
      some (parseBlocks body) := by
  obtain ⟨hblocks, hbehind⟩ := parseBlocks_endsSection hbody hrest
  rw [parseBlocks_append_cut (by rw [hline]; rfl) _ hbefore, parseBlocks_heading hline,
    sectionOf?_of_heading htitle hfirst, hblocks, takeWhile_isBelow hdeeper hbehind]

theorem sectionOf?_parseBlocks_sample :
    sectionOf? ⟨none, parseBlocks (["* a", ""] ++ "  ## Notes ##" ::
        (["- b", "", "~~~", "# Notes", "~~~", "### c"] ++ ["# Notes", "d"]))⟩ "NOTES" =
      some (parseBlocks ["- b", "", "~~~", "# Notes", "~~~", "### c"]) := by
  have hbefore : parseBlocks ["* a", ""] = [.list [⟨["a"]⟩]] := by decide +kernel
  have hbody : parseBlocks ["- b", "", "~~~", "# Notes", "~~~", "### c"] =
      [.list [⟨["b"]⟩], .code none "# Notes", .heading 3 "c"] := by decide +kernel
  have hline : ofLine "  ## Notes ##" = .heading 2 "Notes" := by decide
  refine sectionOf?_parseBlocks hline (by decide) ?_ (by decide) (by decide) ?_
    (.inr ⟨"# Notes", ["d"], 1, "Notes", rfl, by decide, by decide⟩) none
  · rw [hbefore]
    simp
  · rw [hbody]
    simp

end NativeCatalogue.Document
