import NativeCatalogue.Proofs.Document.Shape
import NativeCatalogue.Proofs.Document.Views

set_option autoImplicit false

namespace NativeCatalogue

def indentedParagraphs (texts : List String) : List String :=
  texts.flatMap fun text => "" :: paragraphLines ("    " ++ text)

def ListItem.lines (item : ListItem) : List String :=
  paragraphLines ("*   " ++ item.paragraphs.headD "") ++ indentedParagraphs item.paragraphs.tail

def Block.lines : Block → List String
  | .heading depth text => [.ofList (List.replicate depth '#') ++ " " ++ text]
  | .code language body =>
    ("```" ++ language.getD "") :: (paragraphLines body).map endedLine ++ ["```"]
  | .paragraph text => paragraphLines text
  | .list items => items.flatMap ListItem.lines

def EndsInText (text : String) : Prop :=
  ∃ c, text.toList.getLast? = some c ∧ Text.isBlank c = false

theorem EndsInText.append {b : String} (h : EndsInText b) (a : String) : EndsInText (a ++ b) := by
  obtain ⟨c, hc, hblank⟩ := h
  refine ⟨c, ?_, hblank⟩
  rw [String.toList_append, List.getLast?_append, hc]
  rfl

theorem IsTextLine.endsInText {line : String} (h : IsTextLine line) : EndsInText line := by
  have hne : line.toList ≠ [] := fun he => h.nonempty (String.toList_eq_nil_iff.1 he)
  exact ⟨_, List.getLast?_eq_some_getLast hne, h.trimmed.last _ (List.getLast?_eq_some_getLast hne)⟩

theorem EndsInText.endedLine_eq {line : String} (h : EndsInText line) (hfree : '\n' ∉ line.toList) :
    endedLine line = line := by
  obtain ⟨c, hc, hblank⟩ := h
  refine endedLine_of_isLine ⟨hfree, ?_⟩
  rw [hc]
  rintro he
  cases he
  cases hblank

theorem IsParagraph.lines_eq {text : String} (h : IsParagraph text) :
    ∃ line lines, paragraphLines text = line :: lines ∧ IsTextLine line ∧
      ∀ l ∈ lines, IsTextLine l := by
  obtain ⟨line, lines, htext⟩ := List.exists_cons_of_ne_nil (paragraphLines_ne_nil text)
  rw [IsParagraph, htext, List.forall_mem_cons] at h
  exact ⟨line, lines, htext, h⟩

theorem IsParagraph.isItemText {text : String} (h : IsParagraph text) : IsItemText text := by
  obtain ⟨line, lines, htext, hline, hlines⟩ := h.lines_eq
  exact ⟨line, lines, htext, hline.trimmed, hlines⟩

theorem endsInText_intercalate (separator : String) (texts : List String) {last : String}
    (h : EndsInText last) : EndsInText (separator.intercalate (texts ++ [last])) := by
  cases texts with
  | nil => exact h
  | cons text texts =>
    rw [String.intercalate_append_of_ne_nil (List.cons_ne_nil _ _) (List.cons_ne_nil _ _),
      String.intercalate_singleton]
    exact h.append _

theorem IsItemText.endsInText {text : String} (h : IsItemText text) (hne : text ≠ "") :
    EndsInText text := by
  obtain ⟨line, lines, htext, hline, hlines⟩ := h
  rw [← joinLines_paragraphLines text, htext]
  rcases List.eq_nil_or_concat lines with rfl | ⟨start, last, rfl⟩
  · refine endsInText_intercalate _ [] (IsTextLine.endsInText ⟨hline, ?_⟩)
    rintro rfl
    exact hne (paragraphLines_eq_singleton_iff.1 htext)
  · rw [List.concat_eq_append, ← List.cons_append]
    exact endsInText_intercalate _ _ (hlines last (by simp)).endsInText

theorem endedLine_mark {mark line : String} (hmark : mark.toList.getLast? = some ' ')
    (hfree : '\n' ∉ (mark ++ line).toList) (hline : Text.IsTrimmed line.toList) :
    endedLine (mark ++ line) = mark ++ line := by
  by_cases hne : line = ""
  · refine endedLine_of_isLine ⟨hfree, ?_⟩
    rw [hne, String.append_empty, hmark]
    decide
  · exact ((IsTextLine.endsInText ⟨hline, hne⟩).append mark).endedLine_eq hfree

theorem map_endedLine_mark {mark text : String} (hmark : mark.toList.getLast? = some ' ')
    (hfree : '\n' ∉ mark.toList) (h : IsItemText text) :
    (paragraphLines (mark ++ text)).map endedLine = paragraphLines (mark ++ text) := by
  have hlines := newlineFree_paragraphLines (mark ++ text)
  obtain ⟨line, lines, htext, hline, hmore⟩ := h
  rw [paragraphLines_mark hfree htext] at hlines ⊢
  rw [List.map_cons, endedLine_mark hmark (hlines _ List.mem_cons_self) hline]
  refine congrArg _ (List.map_eq_self_iff.2 fun l hl => ?_)
  exact (hmore l hl).endsInText.endedLine_eq (hlines l (List.mem_cons_of_mem _ hl))

theorem paragraphLines_intercalate (mark first : String) (more : List String) :
    paragraphLines (mark ++ "\n\n    ".intercalate (first :: more)) =
      paragraphLines (mark ++ first) ++ indentedParagraphs more := by
  induction more generalizing mark first with
  | nil => rw [String.intercalate_singleton, indentedParagraphs, List.flatMap_nil, List.append_nil]
  | cons next more ih =>
    have hgap : "\n\n    " = "\n" ++ ("\n" ++ "    ") := by decide
    have hsplit : mark ++ "\n\n    ".intercalate (first :: next :: more) =
        mark ++ first ++ "\n" ++ ("" ++ "\n" ++ ("    " ++ "\n\n    ".intercalate (next :: more))) := by
      rw [String.intercalate_cons_of_ne_nil (List.cons_ne_nil next more)]
      generalize "\n\n    ".intercalate (next :: more) = rest
      rw [hgap]
      simp only [String.append_assoc, String.empty_append]
    rw [hsplit, paragraphLines_newline, paragraphLines_newline, ih]
    rfl

theorem paragraphLines_item {item : ListItem} (h : item.IsRead) :
    paragraphLines ("*   " ++ "\n\n    ".intercalate item.paragraphs) = item.lines := by
  obtain ⟨first, more, hitem, -⟩ := h
  rw [ListItem.lines, hitem]
  exact paragraphLines_intercalate "*   " first more

theorem map_endedLine_item {item : ListItem} (h : item.IsRead) :
    item.lines.map endedLine = item.lines := by
  obtain ⟨first, more, hitem, hfirst, hmore⟩ := h
  rw [ListItem.lines, hitem, List.map_append]
  refine congrArg₂ _ (map_endedLine_mark (by decide) (by decide) hfirst) ?_
  rw [indentedParagraphs, List.map_flatMap]
  refine List.flatMap_congr fun text htext => ?_
  rw [List.map_cons, map_endedLine_mark (by decide) (by decide) (hmore text htext).isItemText]
  rfl

theorem toList_hashes_append (depth : Nat) (text : String) :
    (String.ofList (List.replicate depth '#') ++ " " ++ text).toList =
      List.replicate depth '#' ++ ' ' :: text.toList := by
  rw [String.toList_append, String.toList_append, String.toList_ofList, List.append_assoc]
  rfl

theorem render_code (language : Option String) (body : String) :
    (Block.code language body).render =
      "```" ++ language.getD "" ++ "\n" ++ (body ++ "\n" ++ "```") := by
  have hclose : "\n```" = "\n" ++ "```" := by decide
  rw [Block.render, hclose]
  simp only [String.append_assoc]

section Code

variable {language : Option String} {body : String} (h : (Block.code language body).IsRead)

include h

theorem newline_not_mem_opening : '\n' ∉ ("```" ++ language.getD "").toList := by
  rw [String.toList_append, List.mem_append, not_or]
  refine ⟨by decide, ?_⟩
  cases language with
  | none => exact List.not_mem_nil
  | some word =>
    intro hmem
    have hblank := ((h word rfl).2 '\n' hmem).1
    cases hblank

theorem endsInText_opening : EndsInText ("```" ++ language.getD "") := by
  cases language with
  | none => exact ⟨'\x60', by decide, by decide⟩
  | some word =>
    obtain ⟨hne, hchars⟩ := h word rfl
    have hword : word.toList ≠ [] := fun he => hne (String.toList_eq_nil_iff.1 he)
    exact EndsInText.append ⟨_, List.getLast?_eq_some_getLast hword,
      (hchars _ (List.getLast_mem hword)).1⟩ "```"

end Code

theorem map_endedLine_render {block : Block} (h : block.IsRead) :
    (paragraphLines block.render).map endedLine = block.lines := by
  cases block with
  | heading depth text =>
    obtain ⟨-, -, htrim, hfree⟩ := h
    have hfree : '\n' ∉ (String.ofList (List.replicate depth '#') ++ " " ++ text).toList := by
      rw [toList_hashes_append, List.mem_append, List.mem_replicate, List.mem_cons]
      simp [hfree]
    rw [Block.render, Block.lines, paragraphLines_of_free hfree, List.map_singleton,
      endedLine_mark ?_ hfree htrim]
    rw [String.toList_append, List.getLast?_append]
    rfl
  | code language body =>
    rw [render_code, paragraphLines_newline, paragraphLines_newline, List.map_append, List.map_append,
      paragraphLines_of_free (newline_not_mem_opening h), List.map_singleton,
      (endsInText_opening h).endedLine_eq (newline_not_mem_opening h)]
    rfl
  | paragraph text =>
    refine List.map_eq_self_iff.2 fun l hl => ?_
    exact (h l hl).endsInText.endedLine_eq (newlineFree_paragraphLines text l hl)
  | list items =>
    have hjoin : paragraphLines (Block.list items).render = (Block.list items).lines := by
      rw [Block.render, ← joinLines, paragraphLines_flatMap (by simpa using h.1), List.flatMap_map]
      exact List.flatMap_congr fun item hitem => paragraphLines_item (h.2 item hitem)
    rw [hjoin, Block.lines, List.map_flatMap]
    exact List.flatMap_congr fun item hitem => map_endedLine_item (h.2 item hitem)

def StartsInText (text : String) : Prop :=
  ∃ c, text.toList.head? = some c ∧ Text.isBlank c = false

theorem StartsInText.append {a : String} (h : StartsInText a) (b : String) : StartsInText (a ++ b) := by
  obtain ⟨c, hc, hblank⟩ := h
  refine ⟨c, ?_, hblank⟩
  rw [String.toList_append, List.head?_append, hc]
  rfl

theorem StartsInText.intercalate {text : String} (h : StartsInText text) (separator : String)
    (texts : List String) : StartsInText (separator.intercalate (text :: texts)) := by
  by_cases hne : texts = []
  · rw [hne, String.intercalate_singleton]
    exact h
  · rw [String.intercalate_cons_of_ne_nil hne, String.append_assoc]
    exact h.append _

theorem IsTextLine.startsInText {line : String} (h : IsTextLine line) : StartsInText line := by
  have hne : line.toList ≠ [] := fun he => h.nonempty (String.toList_eq_nil_iff.1 he)
  exact ⟨_, List.head?_eq_some_head hne, h.trimmed.head _ (List.head?_eq_some_head hne)⟩

theorem StartsInText.not_allBlank {text : String} (h : StartsInText text) :
    text.toList.all Text.isBlank = false := by
  obtain ⟨c, hc, hblank⟩ := h
  obtain ⟨more, hmore⟩ := List.head?_eq_some_iff.1 hc
  rw [hmore, List.all_cons, hblank, Bool.false_and]

theorem StartsInText.lines {text : String} (h : StartsInText text) :
    ∃ line more, Text.lines text = line :: more ∧ StartsInText line := by
  obtain ⟨c, hc, hblank⟩ := h
  obtain ⟨cs, hcs⟩ := List.head?_eq_some_iff.1 hc
  have hnewline : c ≠ '\n' := fun he => by rw [he] at hblank; cases hblank
  have hcarriage : c ≠ '\r' := fun he => by rw [he] at hblank; cases hblank
  have hrow : ∃ row others, Text.rows (c :: cs) = (c :: row) :: others := by
    rw [Text.rows, if_neg hnewline]
    split
    · exact ⟨[], [], rfl⟩
    · rename_i row others hrows
      exact ⟨row, others, rfl⟩
  obtain ⟨row, others, hrow⟩ := hrow
  refine ⟨_, _, by rw [Text.lines, Text.linesOf, hcs, hrow, List.map_cons, List.map_cons], c, ?_, hblank⟩
  rw [String.toList_ofList, Text.stripLineEnd]
  · rfl
  · exact fun he => absurd he hnewline
  · exact fun he => absurd he hcarriage

def trimmedEnd (text : String) : String :=
  .ofList (Text.trimEnd text.toList)

theorem EndsInText.trimmedEnd_eq {text : String} (h : EndsInText text) : trimmedEnd text = text := by
  obtain ⟨c, hc, hblank⟩ := h
  rw [trimmedEnd, Text.trimEnd_of_last, String.ofList_toList]
  rw [hc]
  rintro d hd
  rwa [← Option.mem_some_iff.1 hd]

theorem trimmedEnd_append (a : String) {b : String} (h : b.toList.all Text.isBlank = false) :
    trimmedEnd (a ++ b) = a ++ trimmedEnd b := by
  rw [trimmedEnd, String.toList_append, Text.trimEnd_append _ h, String.ofList_append,
    String.ofList_toList]
  rfl

theorem StartsInText.trimBlanks_eq {text : String} (h : StartsInText text) :
    text.trimBlanks = trimmedEnd text := by
  obtain ⟨c, hc, hblank⟩ := h
  rw [String.trimBlanks, Text.trim, Text.trimStart_of_head]
  · rfl
  · rw [hc]
    rintro d hd
    rwa [← Option.mem_some_iff.1 hd]

theorem StartsInText.trimmedEnd {text : String} (h : StartsInText text) :
    StartsInText (trimmedEnd text) := by
  have hne : Text.trimEnd text.toList ≠ [] := by
    intro he
    have hall := List.all_eq_true.2 (List.rdropWhile_eq_nil_iff.1 he)
    rw [h.not_allBlank] at hall
    cases hall
  obtain ⟨c, hc, hblank⟩ := h
  obtain ⟨d, more, hmore⟩ := List.exists_cons_of_ne_nil hne
  obtain ⟨rest, hrest⟩ := Text.trimEnd_isPrefix text.toList
  rw [hmore] at hrest
  rw [← hrest] at hc
  refine ⟨c, ?_, hblank⟩
  rw [NativeCatalogue.trimmedEnd, String.toList_ofList, hmore]
  exact hc

theorem startsInText_render {block : Block} (h : block.IsRead) : StartsInText block.render := by
  cases block with
  | heading depth text =>
    obtain ⟨hdepth, -⟩ := h
    obtain ⟨depth, rfl⟩ := Nat.exists_eq_add_of_lt hdepth
    refine ⟨'#', ?_, by decide⟩
    rw [Block.render, toList_hashes_append, Nat.zero_add, List.replicate_succ]
    rfl
  | code language body =>
    rw [render_code, String.append_assoc, String.append_assoc]
    exact StartsInText.append ⟨'\x60', by decide, by decide⟩ _
  | paragraph text =>
    obtain ⟨line, lines, htext, hline, -⟩ := IsParagraph.lines_eq h
    rw [Block.render, ← joinLines_paragraphLines text, htext]
    exact hline.startsInText.intercalate "\n" lines
  | list items =>
    obtain ⟨item, items, rfl⟩ := List.exists_cons_of_ne_nil h.1
    rw [Block.render, List.map_cons]
    exact StartsInText.intercalate (StartsInText.append ⟨'*', by decide, by decide⟩ _) "\n" _

section Blocks

variable {block : Block} {blocks : List Block}

theorem startsInText_joined (h : ∀ b ∈ block :: blocks, b.IsRead) :
    StartsInText ("\n\n".intercalate ((block :: blocks).map Block.render)) := by
  rw [List.map_cons]
  exact (startsInText_render (h block List.mem_cons_self)).intercalate "\n\n" _

theorem renderBlocks_singleton (h : block.IsRead) : renderBlocks [block] = trimmedEnd block.render := by
  rw [renderBlocks, List.map_singleton, String.intercalate_singleton,
    (startsInText_render h).trimBlanks_eq]

theorem renderBlocks_cons (hne : blocks ≠ []) (h : ∀ b ∈ block :: blocks, b.IsRead) :
    renderBlocks (block :: blocks) =
      block.render ++ "\n" ++ ("" ++ "\n" ++ renderBlocks blocks) := by
  obtain ⟨next, more, rfl⟩ := List.exists_cons_of_ne_nil hne
  have hmore := startsInText_joined fun b hb => h b (List.mem_cons_of_mem block hb)
  have hgap : "\n\n" = "\n" ++ ("" ++ "\n") := by decide
  rw [renderBlocks, (startsInText_joined h).trimBlanks_eq, List.map_cons,
    String.intercalate_cons_of_ne_nil (by simp), trimmedEnd_append _ hmore.not_allBlank,
    ← hmore.trimBlanks_eq, ← renderBlocks, hgap]
  simp only [String.append_assoc]

theorem lines_renderBlocks_cons (hne : blocks ≠ []) (h : ∀ b ∈ block :: blocks, b.IsRead) :
    Text.lines (renderBlocks (block :: blocks)) =
      block.lines ++ "" :: Text.lines (renderBlocks blocks) := by
  have hempty : (paragraphLines "").map endedLine = [""] := by decide
  rw [renderBlocks_cons hne h, lines_newline, lines_newline, hempty,
    map_endedLine_render (h block List.mem_cons_self), List.singleton_append]

theorem startsInText_renderBlocks (h : ∀ b ∈ block :: blocks, b.IsRead) :
    StartsInText (renderBlocks (block :: blocks)) := by
  have hjoined := startsInText_joined h
  rw [renderBlocks, hjoined.trimBlanks_eq]
  exact hjoined.trimmedEnd

end Blocks

theorem lines_of_endsInText {text : String} (h : EndsInText text) :
    Text.lines text = (paragraphLines text).map endedLine := by
  have hfree := newlineFree_paragraphLines text
  have htext := joinLines_paragraphLines text
  rcases List.eq_nil_or_concat (paragraphLines text) with hlines | ⟨start, last, hlines⟩
  · exact absurd hlines (paragraphLines_ne_nil text)
  · rw [List.concat_eq_append] at hlines
    rw [hlines] at hfree htext ⊢
    have hend : EndsInText last := by
      obtain ⟨c, hc, hblank⟩ := h
      rw [← htext] at hc
      cases start with
      | nil => exact ⟨c, hc, hblank⟩
      | cons line start =>
        rw [joinLines, String.intercalate_append_of_ne_nil (List.cons_ne_nil _ _)
          (List.cons_ne_nil _ _), String.intercalate_singleton, String.toList_append,
          List.getLast?_append] at hc
        cases hlast : last.toList.getLast? with
        | none =>
          rw [hlast, String.toList_append, List.getLast?_append] at hc
          cases hc
          cases hblank
        | some d =>
          rw [hlast] at hc
          exact ⟨c, hlast.trans hc, hblank⟩
    have hne : last ≠ "" := by
      rintro rfl
      obtain ⟨c, hc, -⟩ := hend
      cases hc
    rw [← htext, lines_joinLines (hfree.of_subset (List.subset_append_left _ _))
      (hfree last (by simp)) hne, List.map_append, List.map_singleton,
      hend.endedLine_eq (hfree last (by simp))]

theorem lines_renderBlocks_singleton {block : Block} (h : block.IsRead)
    (hend : EndsInText block.render) : Text.lines (renderBlocks [block]) = block.lines := by
  rw [renderBlocks_singleton h, hend.trimmedEnd_eq, lines_of_endsInText hend, map_endedLine_render h]

theorem endsInText_code (language : Option String) (body : String) :
    EndsInText (Block.code language body).render := by
  rw [render_code]
  exact EndsInText.append (EndsInText.append ⟨'\x60', by decide, by decide⟩ _) _

theorem endsInText_paragraph {text : String} (h : IsParagraph text) : EndsInText text := by
  refine h.isItemText.endsInText fun he => ?_
  rw [he] at h
  exact (h "" (by decide)).nonempty rfl

theorem endsInText_list {items : List ListItem} (h : (Block.list items).IsRead)
    (hbare : (Block.list items).endsBare = false) : EndsInText (Block.list items).render := by
  obtain ⟨hne, hitems⟩ := h
  rcases List.eq_nil_or_concat items with rfl | ⟨start, item, rfl⟩
  · exact absurd rfl hne
  · rw [List.concat_eq_append] at hitems hbare ⊢
    obtain ⟨first, more, hitem, hfirst, hmore⟩ := hitems item (by simp)
    rw [Block.render, List.map_append, List.map_singleton]
    refine endsInText_intercalate _ _ (EndsInText.append ?_ _)
    rcases List.eq_nil_or_concat more with rfl | ⟨others, last, rfl⟩
    · rw [hitem]
      refine hfirst.endsInText ?_
      rintro rfl
      simp [Block.endsBare, hitem] at hbare
    · rw [hitem, List.concat_eq_append, ← List.cons_append]
      exact endsInText_intercalate _ _ (endsInText_paragraph (hmore last (by simp)))

theorem trimmedEnd_blanks {a b : String} (ha : EndsInText a) (hb : b.toList.all Text.isBlank = true) :
    trimmedEnd (a ++ b) = a := by
  have hdrop : Text.trimEnd (a.toList ++ b.toList) = Text.trimEnd a.toList := by
    rw [Text.trimEnd, List.reverse_append, List.dropWhile_append_of_pos]
    · rfl
    · exact fun c hc => List.all_eq_true.1 hb c (List.mem_reverse.1 hc)
  rw [trimmedEnd, String.toList_append, hdrop]
  exact ha.trimmedEnd_eq

/-- A heading without a text loses the gap behind its marks. -/
theorem lines_renderBlocks_heading {depth : Nat} (h : (Block.heading depth "").IsRead) :
    Text.lines (renderBlocks [.heading depth ""]) = [.ofList (List.replicate depth '#')] := by
  have hend : EndsInText (.ofList (List.replicate depth '#')) := by
    refine ⟨'#', ?_, by decide⟩
    rw [String.toList_ofList, List.getLast?_replicate, if_neg (Nat.pos_iff_ne_zero.1 h.1)]
  rw [renderBlocks_singleton h, Block.render, String.append_empty, trimmedEnd_blanks hend (by decide),
    lines_of_free]
  · rintro he
    obtain ⟨c, hc, -⟩ := hend
    rw [he] at hc
    cases hc
  · rw [String.toList_ofList, List.mem_replicate]
    exact fun hmem => absurd hmem.2 (by decide)

/-- An item without any text loses the gap behind its marker. -/
theorem lines_renderBlocks_bare {items : List ListItem} (h : (Block.list items).IsRead)
    (hbare : (Block.list items).endsBare = true) :
    ∃ start, items = start ++ [⟨[""]⟩] ∧
      Text.lines (renderBlocks [.list items]) = start.flatMap ListItem.lines ++ ["*"] := by
  rcases List.eq_nil_or_concat items with rfl | ⟨start, ⟨paragraphs⟩, rfl⟩
  · exact absurd rfl h.1
  · rw [List.concat_eq_append] at h hbare ⊢
    have hitem : paragraphs = [""] := by simpa [Block.endsBare] using hbare
    subst hitem
    have hlast : trimmedEnd "*   " = "*" := by decide
    have hlines : Text.lines "*" = ["*"] := by decide
    refine ⟨start, rfl, ?_⟩
    rw [renderBlocks_singleton h, Block.render, List.map_append, List.map_singleton,
      String.intercalate_singleton, String.append_empty]
    by_cases hstart : start = []
    · rw [hstart, List.map_nil, List.nil_append, String.intercalate_singleton, hlast, hlines]
      rfl
    · have hread : (Block.list start).IsRead :=
        ⟨hstart, fun item hitem => h.2 item (List.mem_append_left _ hitem)⟩
      have hrendered := map_endedLine_render hread
      rw [Block.render, Block.lines] at hrendered
      rw [String.intercalate_append_of_ne_nil (by simpa using hstart) (List.cons_ne_nil _ _),
        String.intercalate_singleton, trimmedEnd_append _ (by decide), hlast, lines_newline, hlines,
        hrendered]

end NativeCatalogue
