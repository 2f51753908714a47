import NativeCatalogue.Proofs.Document.Items

/-!
Lines that start an item. No block goes over such a line but a list, and a list goes over it by taking it
for its next item; so the items before the line are those of the lines before it.
-/

set_option autoImplicit false

namespace NativeCatalogue

open LineKind

def lastItems : List Block → List Block × List ListItem
  | [] => ([], [])
  | [.list items] => ([], items)
  | block :: blocks => (block :: (lastItems blocks).1, (lastItems blocks).2)

theorem lastItems_cons {block : Block} {blocks : List Block}
    (h : block.isList = true → blocks ≠ []) :
    lastItems (block :: blocks) = (block :: (lastItems blocks).1, (lastItems blocks).2) := by
  rw [lastItems]
  rintro items rfl rfl
  exact h rfl rfl

theorem mem_of_mem_lastItems {block : Block} {blocks : List Block} (h : block ∈ (lastItems blocks).1) :
    block ∈ blocks := by
  fun_induction lastItems blocks with
  | case1 => cases h
  | case2 => cases h
  | case3 first blocks hnot ih =>
    rcases List.mem_cons.1 h with rfl | h
    · exact List.mem_cons_self
    · exact List.mem_cons_of_mem first (ih h)

theorem list_not_mem_lastItems {blocks : List Block} (h : ∀ items, Block.list items ∉ blocks.dropLast)
    (items : List ListItem) : Block.list items ∉ (lastItems blocks).1 := by
  fun_induction lastItems blocks with
  | case1 => exact List.not_mem_nil
  | case2 => exact List.not_mem_nil
  | case3 first blocks hnot ih =>
    by_cases hblocks : blocks = []
    · rw [hblocks, lastItems, List.mem_singleton]
      exact fun hfirst => hnot items hfirst.symm hblocks
    · rw [List.dropLast_cons_of_ne_nil hblocks] at h
      refine fun hmem => (List.mem_cons.1 hmem).elim (fun hfirst => ?_) fun hmem => ?_
      · exact h items (hfirst ▸ List.mem_cons_self)
      · exact ih (fun others hothers => h others (List.mem_cons_of_mem first hothers)) hmem

theorem parseBlocks_eq_nil_iff {lines : List String} :
    parseBlocks lines = [] ↔ lines.dropWhile isBlankLine = [] := by
  rw [← parseBlocks_dropWhile]
  have hhead := List.head?_dropWhile_not isBlankLine lines
  cases hlines : lines.dropWhile isBlankLine with
  | nil => exact iff_of_true parseBlocks_nil rfl
  | cons line rest =>
    rw [hlines] at hhead
    have hblank : isBlankLine line = false := by simpa using hhead
    refine iff_of_false (fun hnone => ?_) (List.cons_ne_nil line rest)
    cases hline : ofLine line with
    | blank =>
      rw [isBlankLine_iff.2 hline] at hblank
      cases hblank
    | heading depth text => rw [parseBlocks_heading hline] at hnone; cases hnone
    | fence marker language => rw [parseBlocks_fence hline] at hnone; cases hnone
    | item text => rw [parseBlocks_item hline] at hnone; cases hnone
    | plain => rw [parseBlocks_plain hline] at hnone; cases hnone

section Item

variable {line text : String} (hline : ofLine line = .item text) (rest : List String)

include hline

theorem itemParagraphs_append_item (current lines : List String) :
    itemParagraphs current (lines ++ line :: rest) =
      ((itemParagraphs current lines).1, (itemParagraphs current lines).2 ++ line :: rest) := by
  have hblank : isBlankLine line = false := by
    rw [isBlankLine, hline]
    rfl
  have hitem : isItemLine line = true := isItemLine_iff.2 ⟨text, hline⟩
  fun_induction itemParagraphs current lines with
  | case1 current => exact endsItem_item hline rest current
  | case2 current first more hfirst hmore =>
    rw [List.cons_append, itemParagraphs_gap_stop hfirst]
    intro next after he
    rw [List.dropWhile_append_of_stop more rest hblank, hmore] at he
    cases he
    rw [hitem, Bool.not_true, Bool.and_false]
  | case3 current first more hfirst next after hnext h paragraphs behind hbehind ih =>
    have hdrop : (more ++ line :: rest).dropWhile isBlankLine = next :: (after ++ line :: rest) := by
      rw [List.dropWhile_append_of_stop more rest hblank, hnext, List.cons_append]
    rw [List.cons_append, itemParagraphs_gap hfirst hdrop h, ← List.cons_append, ih, hbehind]
  | case4 current first more hfirst next after hnext h =>
    rw [List.cons_append, itemParagraphs_gap_stop hfirst]
    intro next' after' he
    rw [List.dropWhile_append_of_stop more rest hblank, hnext, List.cons_append] at he
    cases he
    simpa using h
  | case5 current first more hfirst ih => rw [List.cons_append, itemParagraphs_plain hfirst, ih]
  | case6 current first more hnotBlank hnotPlain =>
    rw [List.cons_append, itemParagraphs_stop]
    · rw [← Bool.not_eq_true, isBlankLine_iff]
      exact hnotBlank
    · rw [← Bool.not_eq_true, isPlainLine_iff]
      exact hnotPlain

theorem listItems_append_item (first : String) (lines : List String) :
    listItems first (lines ++ line :: rest) =
      if (listItems first lines).2.dropWhile isBlankLine = [] then
        ((listItems first lines).1 ++ (listItems text rest).1, (listItems text rest).2)
      else ((listItems first lines).1, (listItems first lines).2 ++ line :: rest) := by
  have hblank : isBlankLine line = false := by
    rw [isBlankLine, hline]
    rfl
  have hdrop : ∀ lines : List String, (lines ++ line :: rest).dropWhile isBlankLine =
      lines.dropWhile isBlankLine ++ line :: rest :=
    fun lines => List.dropWhile_append_of_stop lines rest hblank
  fun_induction listItems first lines with
  | case1 first lines item after hafter =>
    have hread := itemParagraphs_append_item hline rest [first] lines
    have hnext : (itemParagraphs [first] (lines ++ line :: rest)).2.dropWhile isBlankLine =
        line :: rest := by
      rw [hread, hdrop, hafter, List.nil_append]
    rw [if_pos hafter, listItems_next hnext hline, hread]
    rfl
  | case2 first lines item after next more hafter nextText hnext items behind hitems ih =>
    have hread := itemParagraphs_append_item hline rest [first] lines
    have hmore : (itemParagraphs [first] (lines ++ line :: rest)).2.dropWhile isBlankLine =
        next :: (more ++ line :: rest) := by
      rw [hread, hdrop, hafter, List.cons_append]
    rw [listItems_next hmore hnext, ih, hread, hitems]
    split <;> rfl
  | case3 first lines item after next more hafter hnext =>
    have hread := itemParagraphs_append_item hline rest [first] lines
    rw [if_neg (by rw [hafter]; exact List.cons_ne_nil next more), listItems_last, hread]
    intro next' more' he
    rw [hread, hdrop, hafter, List.cons_append] at he
    cases he
    rw [← Bool.not_eq_true, isItemLine_iff]
    rintro ⟨nextText, he⟩
    exact hnext nextText he

/-- A line that starts an item stands in the list that the lines before it end in, or starts a list of its
    own, unless a fence is open there. -/
theorem parseBlocks_append_item {lines : List String} (hopen : openFence? lines = none) :
    parseBlocks (lines ++ line :: rest) =
      (lastItems (parseBlocks lines)).1 ++
        .list ((lastItems (parseBlocks lines)).2 ++ (listItems text rest).1) ::
          parseBlocks (listItems text rest).2 := by
  have hplain : isPlainLine line = false := by
    rw [isPlainLine, hline]
    rfl
  fun_induction parseBlocks lines with
  | case1 => exact parseBlocks_item hline rest
  | case2 first lines hfirst ih =>
    rw [openFence?_cons (by simp [hfirst])] at hopen
    rw [List.cons_append, parseBlocks_blank hfirst, ih hopen]
  | case3 first lines marker language hfirst ih =>
    rw [openFence?_fence hfirst] at hopen
    split at hopen
    · rename_i hclosed
      obtain ⟨hinside, hbehind⟩ := fencedLines_append hclosed (line :: rest)
      rw [List.cons_append, parseBlocks_fence hfirst, hinside, hbehind, ih hopen,
        lastItems_cons (by simp [Block.isList]), List.cons_append]
    · cases hopen
  | case4 first lines depth title hfirst ih =>
    rw [openFence?_cons (by simp [hfirst])] at hopen
    rw [List.cons_append, parseBlocks_heading hfirst, ih hopen,
      lastItems_cons (by simp [Block.isList]), List.cons_append]
  | case5 first lines title hfirst ih =>
    rw [openFence?_cons (by simp [hfirst]), ← openFence?_listItems title lines] at hopen
    rw [List.cons_append, parseBlocks_item hfirst, listItems_append_item hline]
    split
    · rename_i hend
      rw [parseBlocks_eq_nil_iff.2 hend]
      rfl
    · rename_i hend
      rw [ih hopen, lastItems_cons fun _ => mt parseBlocks_eq_nil_iff.1 hend, List.cons_append]
  | case6 first lines hfirst ih =>
    rw [openFence?_cons (by simp [hfirst]), ← openFence?_dropPlain lines] at hopen
    rw [List.cons_append, parseBlocks_plain hfirst, List.takeWhile_append_of_stop lines rest hplain,
      List.dropWhile_append_of_stop lines rest hplain, ih hopen, lastItems_cons (by simp [Block.isList]),
      List.cons_append]

end Item

/-- Whether lines go on with an item: text right behind it, or indented text behind a gap. -/
def continuesItem : List String → Bool
  | [] => false
  | line :: rest => isPlainLine line || isBlankLine line &&
      (rest.dropWhile isBlankLine).head?.any fun next => isIndented next && isPlainLine next

theorem itemParagraphs_of_not_continuesItem {lines : List String} (h : continuesItem lines = false)
    (text : String) : (itemParagraphs [text] lines).1 = [text] := by
  cases lines with
  | nil => rw [itemParagraphs_nil]; rfl
  | cons line rest =>
    rw [continuesItem, Bool.or_eq_false_iff] at h
    obtain ⟨hplain, hgap⟩ := h
    cases hblank : isBlankLine line with
    | false => rw [itemParagraphs_stop hblank hplain]; rfl
    | true =>
      have hline := isBlankLine_iff.1 hblank
      rw [hblank, Bool.true_and] at hgap
      by_cases hnext : ∃ next more, rest.dropWhile isBlankLine = next :: more ∧
          (isIndented next && !isItemLine next) = true
      · -- What goes on behind the gap is a heading or a fence, and no text.
        obtain ⟨next, more, hrest, hon⟩ := hnext
        rw [hrest, List.head?_cons, Option.any_some, (Bool.and_eq_true_iff.1 hon).1,
          Bool.true_and] at hgap
        have hhead := List.head?_dropWhile_not isBlankLine rest
        rw [hrest] at hhead
        rw [itemParagraphs_gap hline hrest hon, itemParagraphs_stop (by simpa using hhead) hgap]
        rfl
      · rw [itemParagraphs_gap_stop hline fun next more hrest =>
          Bool.eq_false_iff.2 fun hon => hnext ⟨next, more, hrest, hon⟩]
        rfl

end NativeCatalogue
