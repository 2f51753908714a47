import NativeCatalogue.Document.Basic
import NativeCatalogue.Proofs.Document.Items

/-!
Blocks read from their text. Each block is read from its lines as it is written if and only if no line of
it turns into one of another kind, and so are all blocks of a document together.
-/

set_option autoImplicit false

namespace NativeCatalogue

open LineKind

theorem headingText_eq_iff {text : String} (h : Text.IsTrimmed text.toList) :
    String.ofList (Text.trim (headingText text.toList)) = text ↔
      headingText text.toList = text.toList := by
  constructor
  · intro he
    have hchars := congrArg String.toList he
    rw [String.toList_ofList] at hchars
    have hsub := Text.trim_sublist (headingText text.toList)
    rw [hchars] at hsub
    exact (headingText_sublist _).antisymm hsub
  · intro he
    rw [he, h.trim_eq, String.ofList_toList]

section Blocks

variable {rest : List String} {blocks : List Block}

theorem parseBlocks_heading_iff {depth : Nat} {text : String} (h : (Block.heading depth text).IsRead) :
    parseBlocks ((Block.heading depth text).lines ++ rest) = .heading depth text :: blocks ↔
      (Block.heading depth text).isRereadable = true ∧ parseBlocks rest = blocks := by
  obtain ⟨hdepth, hmax, htrim, -⟩ := h
  rw [Block.lines, List.singleton_append, parseBlocks_heading (ofLine_heading hdepth hmax htrim),
    List.cons_eq_cons, Block.heading.injEq, headingText_eq_iff htrim, Block.isRereadable,
    decide_eq_true_eq, eq_self_iff_true, true_and]

theorem newline_not_mem_endedLine {line : String} (h : '\n' ∉ line.toList) :
    '\n' ∉ (endedLine line).toList := by
  rw [endedLine, String.toList_ofList]
  exact Text.newline_not_mem_stripLineEnd h

theorem lines_of_staysInCode {lines : List String} (hfree : NewlineFree lines)
    (h : ∀ line ∈ lines, staysInCode line = true) :
    lines.map endedLine = lines ∧ ∀ line ∈ lines, (!closesFence codeMarker line) = true := by
  refine ⟨List.map_eq_self_iff.2 fun line hline => ?_, fun line hline => ?_⟩
  · have hstays := h line hline
    rw [staysInCode, Bool.and_eq_true, decide_eq_true_eq] at hstays
    exact (endedLine_eq_self_iff (hfree line hline)).2 hstays.2
  · have hstays := h line hline
    rw [staysInCode, Bool.and_eq_true] at hstays
    exact hstays.1

theorem joinLines_fencedLines_iff (body : String) :
    joinLines (fencedLines codeMarker ((paragraphLines body).map endedLine)) = body ↔
      (paragraphLines body).all staysInCode = true := by
  have hfree := newlineFree_paragraphLines body
  rw [List.all_eq_true]
  constructor
  · intro hbody
    have hne : fencedLines codeMarker ((paragraphLines body).map endedLine) ≠ [] := by
      intro he
      rw [he] at hbody
      rw [← hbody] at he
      revert he
      decide
    have hended : NewlineFree (fencedLines codeMarker ((paragraphLines body).map endedLine)) := by
      intro line hline
      obtain ⟨l, hl, rfl⟩ := List.mem_map.1 ((List.takeWhile_sublist _).subset hline)
      exact newline_not_mem_endedLine (hfree l hl)
    have hlines := (joinLines_eq_iff hne hended body).1 hbody
    have hlength : (((paragraphLines body).map endedLine ++ []).takeWhile
        fun line => !closesFence codeMarker line).length =
        ((paragraphLines body).map endedLine).length := by
      rw [List.append_nil, ← fencedLines, hlines, List.length_map]
    have hopen := (List.all_of_length_takeWhile hlength).1
    rw [fencedLines, List.takeWhile_eq_self_iff.2 (List.all_eq_true.1 hopen)] at hlines
    intro line hline
    have hsame : endedLine line = line := List.map_eq_self_iff.1 hlines line hline
    have hclose := List.all_eq_true.1 hopen (endedLine line) (List.mem_map_of_mem hline)
    rw [hsame] at hclose
    rw [staysInCode, hclose, Bool.true_and, decide_eq_true_eq]
    exact (endedLine_eq_self_iff (hfree line hline)).1 hsame
  · intro hstays
    obtain ⟨hended, hopen⟩ := lines_of_staysInCode hfree hstays
    rw [hended, fencedLines, List.takeWhile_eq_self_iff.2 hopen, joinLines_paragraphLines]

theorem parseBlocks_code_iff {language : Option String} {body : String}
    (h : (Block.code language body).IsRead) :
    parseBlocks ((Block.code language body).lines ++ rest) = .code language body :: blocks ↔
      (Block.code language body).isRereadable = true ∧ parseBlocks rest = blocks := by
  have hclose : closesFence codeMarker "```" = true := by decide
  have hinside : fencedLines codeMarker ((paragraphLines body).map endedLine ++ "```" :: rest) =
      fencedLines codeMarker ((paragraphLines body).map endedLine) :=
    List.takeWhile_append_of_stop _ rest (by rw [hclose]; rfl)
  rw [Block.lines, List.append_assoc, List.singleton_append, List.cons_append,
    parseBlocks_fence (ofLine_opening h), hinside, List.cons_eq_cons, Block.code.injEq,
    eq_self_iff_true, true_and, Block.isRereadable, joinLines_fencedLines_iff]
  refine and_congr_right fun hstays => ?_
  have hbehind : afterFence codeMarker ((paragraphLines body).map endedLine ++ "```" :: rest) = rest := by
    obtain ⟨hended, hopen⟩ :=
      lines_of_staysInCode (newlineFree_paragraphLines body) (List.all_eq_true.1 hstays)
    rw [hended, afterFence, List.dropWhile_append_of_stop _ rest (by rw [hclose]; rfl),
      List.dropWhile_eq_nil_iff.2 hopen, List.nil_append, List.drop_one, List.tail_cons]
  rw [hbehind]

theorem isPlainLine_of_parseBlocks {line text : String} {rest : List String}
    (hblank : isBlankLine line = false)
    (h : parseBlocks (line :: rest) = .paragraph text :: blocks) : isPlainLine line = true := by
  rw [isPlainLine_iff]
  cases hkind : ofLine line with
  | blank =>
    rw [isBlankLine_iff.2 hkind] at hblank
    cases hblank
  | heading depth title =>
    rw [parseBlocks_heading hkind] at h
    cases h
  | fence marker language =>
    rw [parseBlocks_fence hkind] at h
    cases h
  | item first =>
    rw [parseBlocks_item hkind] at h
    cases h
  | plain => rfl

theorem parseBlocks_paragraph_iff {text : String} (h : IsParagraph text) (hfree : NewlineFree rest)
    (hrest : StandsBehind rest) :
    parseBlocks ((Block.paragraph text).lines ++ rest) = .paragraph text :: blocks ↔
      (Block.paragraph text).isRereadable = true ∧ parseBlocks rest = blocks := by
  obtain ⟨line, lines, htext, hline, hlines⟩ := h.lines_eq
  rw [Block.lines, Block.isRereadable, htext, List.all_cons, List.cons_append]
  have hblank := isBlankLine_of_startsInText hline.startsInText
  cases hplain : isPlainLine line with
  | false =>
    rw [Bool.false_and]
    refine iff_of_false (fun hread => ?_) (fun hread => Bool.false_ne_true hread.1)
    rw [isPlainLine_of_parseBlocks hblank hread] at hplain
    cases hplain
  | true =>
    rw [parseBlocks_plain (isPlainLine_iff.1 hplain), List.map_cons,
      trimBlanks_eq_of_isTrimmed hline.trimmed, List.cons_eq_cons, Block.paragraph.injEq, Bool.true_and]
    constructor
    · rintro ⟨hread, hblocks⟩
      have hall := (plains_of_joinLines htext hfree hread).1
      rw [(List.takeWhile_append_of_head hall hrest.not_isPlainLine).2] at hblocks
      exact ⟨hall, hblocks⟩
    · rintro ⟨hall, hblocks⟩
      obtain ⟨htake, hdrop⟩ := List.takeWhile_append_of_head hall hrest.not_isPlainLine
      rw [htake, hdrop, map_trimBlanks_eq hlines, ← htext,
        joinLines_paragraphLines]
      exact ⟨rfl, hblocks⟩

theorem parseBlocks_list_iff {items : List ListItem} (h : (Block.list items).IsRead)
    (hfree : NewlineFree rest) (hrest : StandsBehind rest)
    (hapart : ∀ block ∈ blocks.head?, block.isList = false) :
    parseBlocks ((Block.list items).lines ++ rest) = .list items :: blocks ↔
      (Block.list items).isRereadable = true ∧ parseBlocks rest = blocks := by
  rw [Block.lines, parseBlocks_items h, List.cons_eq_cons, Block.list.injEq, Block.isRereadable]
  constructor
  · rintro ⟨hitems, hblocks⟩
    have hreads :=
      (reads_of_furtherItems h.2 hfree ⟨[], (List.append_nil items).trans hitems.symm⟩).1
    rw [furtherItems_rendered h.2 hreads hrest.endsItem] at hitems hblocks
    -- Were there an item behind the list, the list that is read would be longer.
    have hnone := furtherItems_of_eq_nil (List.append_right_eq_self.1 hitems)
    rw [hnone] at hblocks
    exact ⟨hreads, hblocks⟩
  · rintro ⟨hreads, hblocks⟩
    rw [← hblocks] at hapart
    rw [furtherItems_rendered h.2 hreads hrest.endsItem, furtherItems_of_head hapart]
    exact ⟨List.append_nil items, hblocks⟩

/-- A block is read as it is written exactly where none of its lines is read as something else. -/
theorem parseBlocks_lines_iff {block : Block} (h : block.IsRead) (hfree : NewlineFree rest)
    (hrest : StandsBehind rest)
    (hapart : ∀ next ∈ blocks.head?, block.isList = true → next.isList = false) :
    parseBlocks (block.lines ++ rest) = block :: blocks ↔
      block.isRereadable = true ∧ parseBlocks rest = blocks := by
  cases block with
  | heading depth text => exact parseBlocks_heading_iff h
  | code language body => exact parseBlocks_code_iff h
  | paragraph text => exact parseBlocks_paragraph_iff h hfree hrest
  | list items => exact parseBlocks_list_iff h hfree hrest fun next hnext => hapart next hnext rfl

end Blocks

theorem newlineFree_lines (text : String) : NewlineFree (Text.lines text) := by
  intro line hline
  obtain ⟨cs, hcs, rfl⟩ := List.mem_map.1 hline
  rw [String.toList_ofList]
  exact Text.newline_not_mem_of_mem_linesOf hcs

theorem rereadable_cons {block : Block} {blocks : List Block} (hne : blocks ≠ []) :
    rereadable (block :: blocks) = (block.isRereadable && rereadable blocks) := by
  obtain ⟨next, more, rfl⟩ := List.exists_cons_of_ne_nil hne
  rw [rereadable, rereadable, List.all_cons, List.getLast?_cons_cons, Bool.and_assoc]

theorem rereadable_singleton (block : Block) :
    rereadable [block] = (block.isRereadable && !block.endsBare) := by
  rw [rereadable, List.all_cons, List.all_nil, Bool.and_true]
  rfl

theorem parseBlocks_last_iff {block : Block} (h : block.IsRead) (hbare : block.endsBare = false)
    (hend : EndsInText block.render) :
    parseBlocks (Text.lines (renderBlocks [block])) = [block] ↔ rereadable [block] = true := by
  have hfree : NewlineFree [] := fun line hline => absurd hline List.not_mem_nil
  rw [lines_renderBlocks_singleton h hend, ← List.append_nil block.lines,
    parseBlocks_lines_iff h hfree (.inl rfl) (by simp), parseBlocks_nil, rereadable_singleton, hbare]
  simp

theorem parseBlocks_heading_last {depth : Nat} (h : (Block.heading depth "").IsRead) :
    parseBlocks (Text.lines (renderBlocks [.heading depth ""])) = [.heading depth ""] := by
  rw [lines_renderBlocks_heading h, parseBlocks_heading (ofLine_hashes h.1 h.2.1), parseBlocks_nil]

/-- An item without any text, once its marker has no gap, goes on with the item before it, or is a
    paragraph. -/
theorem parseBlocks_bare_ne {items : List ListItem} (h : (Block.list items).IsRead)
    (hbare : (Block.list items).endsBare = true) :
    parseBlocks (Text.lines (renderBlocks [.list items])) ≠ [.list items] := by
  have hplain : isPlainLine "*" = true := by decide
  obtain ⟨start, rfl, hlines⟩ := lines_renderBlocks_bare h hbare
  rw [hlines]
  intro hread
  by_cases hne : start = []
  · rw [hne, List.flatMap_nil, List.nil_append, parseBlocks_plain (isPlainLine_iff.1 hplain)] at hread
    cases hread
  · have hstart : ∀ item ∈ start, item.IsRead := fun item hitem => h.2 item (List.mem_append_left _ hitem)
    rw [parseBlocks_items ⟨hne, hstart⟩, List.cons_eq_cons, Block.list.injEq] at hread
    have hfree : NewlineFree ["*"] := List.forall_mem_singleton.2 (by decide)
    have hreads := reads_of_furtherItems hstart hfree
      (by rw [hread.1]; exact List.prefix_append start _)
    rw [hreads.2 hne "*" rfl] at hplain
    cases hplain

theorem parseBlocks_singleton_iff {block : Block} (h : block.IsRead) :
    parseBlocks (Text.lines (renderBlocks [block])) = [block] ↔ rereadable [block] = true := by
  cases block with
  | heading depth text =>
    by_cases htext : text = ""
    · rw [htext] at h ⊢
      refine iff_of_true (parseBlocks_heading_last h) ?_
      rw [rereadable_singleton]
      rfl
    · exact parseBlocks_last_iff h rfl (IsTextLine.endsInText ⟨h.2.2.1, htext⟩ |>.append _)
  | code language body => exact parseBlocks_last_iff h rfl (endsInText_code language body)
  | paragraph text => exact parseBlocks_last_iff h rfl (endsInText_paragraph h)
  | list items =>
    cases hbare : (Block.list items).endsBare with
    | false => exact parseBlocks_last_iff h hbare (endsInText_list h hbare)
    | true =>
      refine iff_of_false (parseBlocks_bare_ne h hbare) ?_
      rw [rereadable_singleton, hbare, Bool.not_true, Bool.and_false]
      exact Bool.false_ne_true

theorem parseBlocks_renderBlocks_iff {blocks : List Block} (h : AreRead blocks) :
    parseBlocks (Text.lines (renderBlocks blocks)) = blocks ↔ rereadable blocks = true := by
  induction blocks with
  | nil =>
    have hlines : Text.lines (renderBlocks []) = [] := by decide
    rw [hlines, parseBlocks_nil]
    exact iff_of_true rfl rfl
  | cons block blocks ih =>
    have hread := h.each block List.mem_cons_self
    by_cases hne : blocks = []
    · rw [hne]
      exact parseBlocks_singleton_iff hread
    · obtain ⟨next, more, rfl⟩ := List.exists_cons_of_ne_nil hne
      obtain ⟨hapart, htail⟩ := List.isChain_cons.1 h.apart
      have hmore : ∀ b ∈ next :: more, b.IsRead := fun b hb => h.each b (List.mem_cons_of_mem block hb)
      obtain ⟨line, lines, hlines, hline⟩ := (startsInText_renderBlocks hmore).lines
      have hfree : NewlineFree ("" :: Text.lines (renderBlocks (next :: more))) :=
        List.forall_mem_cons.2 ⟨List.not_mem_nil, newlineFree_lines _⟩
      have hbehind : StandsBehind ("" :: Text.lines (renderBlocks (next :: more))) :=
        .inr ⟨line, lines, by rw [hlines], hline⟩
      rw [lines_renderBlocks_cons hne h.each, parseBlocks_lines_iff hread hfree hbehind hapart,
        parseBlocks_blank (by decide), ih ⟨hmore, htail⟩, rereadable_cons hne, Bool.and_eq_true]

namespace Document

theorem areRead_parse (source : String) : AreRead (parse source).blocks := by
  have hfree := newlineFree_lines (dropMarks source)
  rw [parse, ofLines]
  exact areRead_parseBlocks (hfree.of_subset (List.drop_subset _ (Text.lines (dropMarks source))))

theorem afterHeading?_suffix {title : String} {blocks rest : List Block} {depth : Nat}
    (h : afterHeading? title blocks = some (depth, rest)) : rest <:+ blocks := by
  fun_induction afterHeading? title blocks with
  | case1 => cases h
  | case2 d text more htitle =>
    cases h
    exact List.suffix_cons _ _
  | case3 d text more htitle ih => exact (ih h).trans (List.suffix_cons _ _)
  | case4 block more hblock ih => exact (ih h).trans (List.suffix_cons _ _)

theorem areRead_sectionOf? {doc : Document} (h : AreRead doc.blocks) {title : String}
    {blocks : List Block} (hsection : doc.sectionOf? title = some blocks) : AreRead blocks := by
  obtain ⟨⟨depth, rest⟩, hrest, rfl⟩ := Option.map_eq_some_iff.1 hsection
  have hpart : rest.takeWhile (isBelow depth) <:+: doc.blocks :=
    (List.takeWhile_prefix _).isInfix.trans (afterHeading?_suffix hrest).isInfix
  exact ⟨fun block hblock => h.each block (hpart.subset hblock), h.apart.infix hpart⟩

/-- The text of a section, as records store it, has the blocks of the section exactly where these can be
    read again. -/
theorem parseBlocks_render_sectionOf? {source title : String} {blocks : List Block}
    (h : (parse source).sectionOf? title = some blocks) :
    parseBlocks (Text.lines (renderBlocks blocks)) = blocks ↔ rereadable blocks = true :=
  parseBlocks_renderBlocks_iff (areRead_sectionOf? (areRead_parse source) h)

/-- The text of all blocks of a document has the same blocks exactly where they can be read again. -/
theorem parseBlocks_render_parse (source : String) :
    parseBlocks (Text.lines (renderBlocks (parse source).blocks)) = (parse source).blocks ↔
      rereadable (parse source).blocks = true :=
  parseBlocks_renderBlocks_iff (areRead_parse source)

/-- Code between tildes, with three backticks in it that close it where they are written. -/
theorem parseBlocks_render_tildes :
    parseBlocks (Text.lines (renderBlocks (parse "~~~\n```\n~~~").blocks)) ≠
      (parse "~~~\n```\n~~~").blocks := by
  decide +kernel

end Document

end NativeCatalogue
