import NativeCatalogue.Proofs.Document.Marks

set_option autoImplicit false

namespace NativeCatalogue

open LineKind

def EndsItem (lines : List String) : Prop :=
  ∀ current, itemParagraphs current lines = (paragraphOf current, lines)

theorem endsItem_nil : EndsItem [] :=
  itemParagraphs_nil

theorem endsItem_item {line text : String} (h : ofLine line = .item text) (rest : List String) :
    EndsItem (line :: rest) := by
  refine fun current => itemParagraphs_stop ?_ ?_ current rest
  · rw [← Bool.not_eq_true, isBlankLine_iff, h]
    exact LineKind.noConfusion
  · rw [← Bool.not_eq_true, isPlainLine_iff, h]
    exact LineKind.noConfusion

theorem isBlankLine_of_startsInText {line : String} (h : StartsInText line) :
    isBlankLine line = false := by
  rw [← Bool.not_eq_true, isBlankLine_iff]
  intro he
  have hkind := isKindOf_ofLine line
  rw [he, IsKindOf, h.not_allBlank] at hkind
  cases hkind

theorem isIndented_of_startsInText {line : String} (h : StartsInText line) :
    isIndented line = false := by
  obtain ⟨c, hc, hblank⟩ := h
  obtain ⟨cs, hcs⟩ := List.head?_eq_some_iff.1 hc
  have hspace : c ≠ ' ' := fun he => by rw [he] at hblank; cases hblank
  have htab : c ≠ '\t' := fun he => by rw [he] at hblank; cases hblank
  rw [isIndented, hcs]
  split
  · rename_i he
    exact absurd (List.cons.inj he).1 hspace
  · rename_i he
    exact absurd (List.cons.inj he).1 htab
  · rfl

def StandsBehind (lines : List String) : Prop :=
  lines = [] ∨ ∃ line more, lines = "" :: line :: more ∧ StartsInText line

theorem StandsBehind.endsItem {lines : List String} (h : StandsBehind lines) : EndsItem lines := by
  rcases h with rfl | ⟨line, more, rfl, hline⟩
  · exact endsItem_nil
  · refine itemParagraphs_gap_stop (by decide) fun next rest hnext => ?_
    rw [List.dropWhile_cons_of_neg (by rw [isBlankLine_of_startsInText hline]; simp)] at hnext
    cases hnext
    rw [isIndented_of_startsInText hline, Bool.false_and]

theorem StandsBehind.not_isPlainLine {lines : List String} (h : StandsBehind lines) :
    ∀ line ∈ lines.head?, isPlainLine line = false := by
  rcases h with rfl | ⟨line, more, rfl, hline⟩
  · simp
  · rintro l hl
    cases hl
    decide

theorem trimBlanks_eq_of_isTrimmed {line : String} (h : Text.IsTrimmed line.toList) :
    line.trimBlanks = line := by
  rw [String.trimBlanks, h.trim_eq, String.ofList_toList]

theorem map_trimBlanks_eq {lines : List String} (h : ∀ line ∈ lines, IsTextLine line) :
    lines.map String.trimBlanks = lines :=
  List.map_eq_self_iff.2 fun line hline => trimBlanks_eq_of_isTrimmed (h line hline).trimmed

theorem itemParagraphs_plains {lines : List String} (hplain : lines.all isPlainLine = true)
    (htext : ∀ line ∈ lines, IsTextLine line) (current rest : List String) :
    itemParagraphs current (lines ++ rest) = itemParagraphs (current ++ lines) rest := by
  induction lines generalizing current with
  | nil => rw [List.nil_append, List.append_nil]
  | cons line lines ih =>
    rw [List.all_cons, Bool.and_eq_true] at hplain
    rw [List.cons_append, itemParagraphs_plain (isPlainLine_iff.1 hplain.1),
      trimBlanks_eq_of_isTrimmed (htext line List.mem_cons_self).trimmed,
      ih hplain.2 fun l hl => htext l (List.mem_cons_of_mem line hl), List.append_assoc,
      List.singleton_append]

theorem itemParagraphs_indented {text line : String} {lines : List String}
    (htext : paragraphLines text = line :: lines) (hline : IsTextLine line) (current rest : List String) :
    itemParagraphs current ("" :: paragraphLines ("    " ++ text) ++ rest) =
      (joinLines current :: (itemParagraphs [line] (lines ++ rest)).1,
        (itemParagraphs [line] (lines ++ rest)).2) := by
  have hkind := ofLine_indented hline
  have hindented : isIndented ("    " ++ line) = true := by
    rw [isIndented, String.toList_append]
    rfl
  have hitem : isItemLine ("    " ++ line) = false := by
    rw [isItemLine, hkind]
  have hblank : isBlankLine ("    " ++ line) = false := by
    rw [isBlankLine, hkind]
    rfl
  have hspaces : "    ".toList.all Text.isBlank = true := by decide
  have htrim : ("    " ++ line).trimBlanks = line := by
    rw [String.trimBlanks, Text.trim, Text.trimStart, String.toList_append,
      List.dropWhile_append_of_pos (List.all_eq_true.1 hspaces), ← Text.trimStart, ← Text.trim,
      hline.trimmed.trim_eq, String.ofList_toList]
  rw [paragraphLines_mark (by decide) htext, List.cons_append, List.cons_append,
    itemParagraphs_gap (by decide) (List.dropWhile_cons_of_neg (by rw [hblank]; simp))
      (by rw [hindented, hitem]; rfl),
    itemParagraphs_plain hkind, htrim, List.nil_append]

theorem itemParagraphs_rendered {text line : String} {lines more rest : List String}
    (htext : paragraphLines text = line :: lines) (hlines : ∀ l ∈ lines, IsTextLine l)
    (hplain : lines.all isPlainLine = true) (hmore : ∀ t ∈ more, IsParagraph t)
    (hreads : ∀ t ∈ more, (paragraphLines t).tail.all isPlainLine = true) (hrest : EndsItem rest) :
    itemParagraphs [line] (lines ++ (indentedParagraphs more ++ rest)) = (text :: more, rest) := by
  have hjoin : text = joinLines (line :: lines) := by rw [← htext, joinLines_paragraphLines]
  rw [itemParagraphs_plains hplain hlines, List.singleton_append]
  -- Over the paragraphs that are still to come, whatever has been read of the current one.
  induction more generalizing text line lines with
  | nil =>
    rw [hjoin]
    exact hrest (line :: lines)
  | cons next more ih =>
    obtain ⟨first, others, hnext, hfirst, htexts⟩ := (hmore next List.mem_cons_self).lines_eq
    have hothers := hreads next List.mem_cons_self
    rw [hnext, List.tail_cons] at hothers
    have hread := ih hnext htexts hothers (fun t ht => hmore t (List.mem_cons_of_mem next ht))
      (fun t ht => hreads t (List.mem_cons_of_mem next ht))
      (by rw [← hnext, joinLines_paragraphLines])
    rw [indentedParagraphs, List.flatMap_cons, ← indentedParagraphs, List.append_assoc,
      itemParagraphs_indented hnext hfirst,
      itemParagraphs_plains hothers htexts, List.singleton_append, hread, hjoin]

theorem head?_itemParagraphs {current : List String} (hne : current ≠ []) (lines : List String) :
    (itemParagraphs current lines).1.head? =
      some (joinLines (current ++ (lines.takeWhile isPlainLine).map String.trimBlanks)) := by
  have hlast : ∀ current : List String, current ≠ [] →
      (paragraphOf current).head? = some (joinLines current) :=
    fun current hne => by rw [paragraphOf, if_neg hne, List.head?_cons]
  have hstop : ∀ (line : String) (rest : List String), ofLine line ≠ .plain →
      (line :: rest).takeWhile isPlainLine = [] := by
    intro line rest hkind
    exact List.takeWhile_cons_of_neg fun h => hkind (isPlainLine_iff.1 h)
  fun_induction itemParagraphs current lines with
  | case1 current => simpa using hlast current hne
  | case2 current line rest hline =>
    rw [hstop line rest (by simp [hline])]
    simpa using hlast current hne
  | case3 current line rest hline next more hnext h paragraphs after hitem ih =>
    rw [hstop line rest (by simp [hline]), List.map_nil, List.append_nil, List.head?_cons]
  | case4 current line rest hline =>
    rw [hstop line rest (by simp [hline])]
    simpa using hlast current hne
  | case5 current line rest hline ih =>
    rw [List.takeWhile_cons_of_pos (isPlainLine_iff.2 hline), ih (by simp), List.map_cons,
      List.append_assoc, List.singleton_append]
  | case6 current line rest hblank hplain =>
    rw [hstop line rest hplain]
    simpa using hlast current hne

theorem plains_of_joinLines {text line : String} {lines rest : List String}
    (htext : paragraphLines text = line :: lines) (hrest : NewlineFree rest)
    (h : joinLines (line :: ((lines ++ rest).takeWhile isPlainLine).map String.trimBlanks) = text) :
    lines.all isPlainLine = true ∧ ∀ l ∈ rest.head?, isPlainLine l = false := by
  have hfree : NewlineFree (line :: lines) := by
    rw [← htext]
    exact newlineFree_paragraphLines text
  have htaken : NewlineFree (line :: ((lines ++ rest).takeWhile isPlainLine).map String.trimBlanks) := by
    refine List.forall_mem_cons.2 ⟨hfree line List.mem_cons_self, fun l hl => ?_⟩
    obtain ⟨l', hl', rfl⟩ := List.mem_map.1 hl
    refine newline_not_mem_trimBlanks ?_
    rcases List.mem_append.1 ((List.takeWhile_sublist _).subset hl') with hl' | hl'
    · exact hfree l' (List.mem_cons_of_mem line hl')
    · exact hrest l' hl'
  rw [joinLines_eq_iff (List.cons_ne_nil _ _) htaken, htext] at h
  refine List.all_of_length_takeWhile ?_
  rw [← List.length_map String.trimBlanks, (List.cons.inj h).2]

theorem plains_of_itemParagraphs {text line : String} {lines rest : List String}
    (htext : paragraphLines text = line :: lines) (hrest : NewlineFree rest)
    (h : (itemParagraphs [line] (lines ++ rest)).1.head? = some text) :
    lines.all isPlainLine = true ∧ ∀ l ∈ rest.head?, isPlainLine l = false := by
  rw [head?_itemParagraphs (List.cons_ne_nil line []), List.singleton_append] at h
  exact plains_of_joinLines htext hrest (Option.some.inj h)

theorem newlineFree_indentedParagraphs (texts : List String) :
    NewlineFree (indentedParagraphs texts) := by
  intro line hline
  obtain ⟨text, -, hline⟩ := List.mem_flatMap.1 hline
  rcases List.mem_cons.1 hline with rfl | hline
  · exact List.not_mem_nil
  · exact newlineFree_paragraphLines _ line hline

theorem reads_of_itemParagraphs {text line : String} {lines more rest : List String}
    (htext : paragraphLines text = line :: lines) (hlines : ∀ l ∈ lines, IsTextLine l)
    (hmore : ∀ t ∈ more, IsParagraph t) (hrest : NewlineFree rest)
    (h : (itemParagraphs [line] (lines ++ (indentedParagraphs more ++ rest))).1 = text :: more) :
    (∀ t ∈ text :: more, (paragraphLines t).tail.all isPlainLine = true) ∧
      ∀ l ∈ rest.head?, isPlainLine l = false := by
  induction more generalizing text line lines with
  | nil =>
    obtain ⟨hplain, hbehind⟩ := plains_of_itemParagraphs htext hrest (congrArg List.head? h)
    exact ⟨by simpa [htext] using hplain, hbehind⟩
  | cons next more ih =>
    obtain ⟨hplain, -⟩ := plains_of_itemParagraphs htext
      ((newlineFree_indentedParagraphs (next :: more)).append hrest) (congrArg List.head? h)
    obtain ⟨first, others, hnext, hfirst, htexts⟩ := (hmore next List.mem_cons_self).lines_eq
    rw [itemParagraphs_plains hplain hlines, indentedParagraphs, List.flatMap_cons,
      ← indentedParagraphs, List.append_assoc,
      itemParagraphs_indented hnext hfirst] at h
    obtain ⟨hreads, hend⟩ := ih hnext htexts (fun t ht => hmore t (List.mem_cons_of_mem next ht))
      (List.cons.inj h).2
    exact ⟨List.forall_mem_cons.2 ⟨by rw [htext]; exact hplain, hreads⟩, hend⟩

def furtherItems (lines : List String) : List ListItem × List String :=
  match lines.dropWhile isBlankLine with
  | [] => ([], lines)
  | next :: more =>
    match ofLine next with
    | .item text => listItems text more
    | _ => ([], lines)

theorem furtherItems_item {line text : String} (h : ofLine line = .item text) (rest : List String) :
    furtherItems (line :: rest) = listItems text rest := by
  have hblank : ¬ isBlankLine line = true := by
    rw [isBlankLine_iff, h]
    exact LineKind.noConfusion
  rw [furtherItems, List.dropWhile_cons_of_neg hblank]
  dsimp only
  rw [h]

theorem furtherItems_none {lines : List String}
    (h : ∀ next more, lines.dropWhile isBlankLine = next :: more → isItemLine next = false) :
    furtherItems lines = ([], lines) := by
  rw [furtherItems]
  split
  · rfl
  · rename_i next more hnext
    split
    · rename_i text htext
      have hitem := h next more hnext
      rw [isItemLine, htext] at hitem
      cases hitem
    · rfl

theorem listItems_eq (text : String) (lines : List String) :
    listItems text lines =
      (⟨(itemParagraphs [text] lines).1⟩ :: (furtherItems (itemParagraphs [text] lines).2).1,
        (furtherItems (itemParagraphs [text] lines).2).2) := by
  by_cases hnext : ∃ next more nextText,
      (itemParagraphs [text] lines).2.dropWhile isBlankLine = next :: more ∧ ofLine next = .item nextText
  · obtain ⟨next, more, nextText, hmore, hnext⟩ := hnext
    rw [listItems_next hmore hnext, furtherItems, hmore]
    dsimp only
    rw [hnext]
  · have hlast : ∀ next more, (itemParagraphs [text] lines).2.dropWhile isBlankLine = next :: more →
        isItemLine next = false := by
      intro next more hmore
      rw [← Bool.not_eq_true, isItemLine_iff]
      exact fun ⟨nextText, hitem⟩ => hnext ⟨next, more, nextText, hmore, hitem⟩
    rw [listItems_last hlast, furtherItems_none hlast]

theorem ListItem.IsRead.lines_eq {item : ListItem} (h : item.IsRead) :
    ∃ text line lines more, item.paragraphs = text :: more ∧ paragraphLines text = line :: lines ∧
      ofLine ("*   " ++ line) = .item line ∧ (∀ l ∈ lines, IsTextLine l) ∧
      (∀ t ∈ more, IsParagraph t) ∧
      item.lines = ("*   " ++ line) :: (lines ++ indentedParagraphs more) := by
  obtain ⟨text, more, hitem, ⟨line, lines, htext, hline, hlines⟩, hmore⟩ := h
  refine ⟨text, line, lines, more, hitem, htext, ofLine_marker hline, hlines, hmore, ?_⟩
  rw [ListItem.lines, hitem, List.headD_cons, List.tail_cons, paragraphLines_mark (by decide) htext,
    List.cons_append]

theorem endsItem_items {items : List ListItem} (h : ∀ item ∈ items, item.IsRead) {rest : List String}
    (hrest : items = [] → EndsItem rest) : EndsItem (items.flatMap ListItem.lines ++ rest) := by
  cases items with
  | nil => exact hrest rfl
  | cons item items =>
    obtain ⟨text, line, lines, more, -, -, hmarker, -, -, hitem⟩ :=
      (h item List.mem_cons_self).lines_eq
    rw [List.flatMap_cons, hitem]
    exact endsItem_item hmarker _

theorem furtherItems_rendered {items : List ListItem} (h : ∀ item ∈ items, item.IsRead)
    (hreads : items.all ListItem.isRereadable = true) {rest : List String} (hrest : EndsItem rest) :
    furtherItems (items.flatMap ListItem.lines ++ rest) =
      (items ++ (furtherItems rest).1, (furtherItems rest).2) := by
  induction items with
  | nil => rfl
  | cons item items ih =>
    have hitems : ∀ i ∈ items, i.IsRead := fun i hi => h i (List.mem_cons_of_mem item hi)
    rw [List.all_cons, Bool.and_eq_true] at hreads
    obtain ⟨text, line, lines, more, hitem, htext, hmarker, hlines, hmore, hrendered⟩ :=
      (h item List.mem_cons_self).lines_eq
    have hplain := List.all_eq_true.1 hreads.1
    rw [hitem, List.forall_mem_cons, htext, List.tail_cons] at hplain
    rw [List.flatMap_cons, hrendered, List.append_assoc, List.cons_append, furtherItems_item hmarker,
      listItems_eq, List.append_assoc,
      itemParagraphs_rendered htext hlines hplain.1 hmore hplain.2
        (endsItem_items hitems fun _ => hrest),
      ih hitems hreads.2, ← hitem]
    rfl

/-- Items that are read as they are written have no line that is read as something else, and no line
    behind them that goes on with the last. -/
theorem reads_of_furtherItems {items : List ListItem} (h : ∀ item ∈ items, item.IsRead)
    {rest : List String} (hrest : NewlineFree rest)
    (hitems : items <+: (furtherItems (items.flatMap ListItem.lines ++ rest)).1) :
    items.all ListItem.isRereadable = true ∧
      (items ≠ [] → ∀ line ∈ rest.head?, isPlainLine line = false) := by
  induction items with
  | nil => exact ⟨rfl, fun hne => absurd rfl hne⟩
  | cons item items ih =>
    have hmoreItems : ∀ i ∈ items, i.IsRead := fun i hi => h i (List.mem_cons_of_mem item hi)
    obtain ⟨text, line, lines, more, hitem, htext, hmarker, hlines, hmore, hrendered⟩ :=
      (h item List.mem_cons_self).lines_eq
    have hbehind : NewlineFree (items.flatMap ListItem.lines ++ rest) := by
      refine NewlineFree.append (fun l hl => ?_) hrest
      obtain ⟨i, hi, hl⟩ := List.mem_flatMap.1 hl
      rcases List.mem_append.1 hl with hl | hl
      · exact newlineFree_paragraphLines _ l hl
      · exact newlineFree_indentedParagraphs _ l hl
    rw [List.flatMap_cons, hrendered, List.append_assoc, List.cons_append, furtherItems_item hmarker,
      listItems_eq, List.append_assoc, List.cons_prefix_cons] at hitems
    obtain ⟨hfirst, hothers⟩ := hitems
    have hread := congrArg ListItem.paragraphs hfirst
    rw [hitem] at hread
    obtain ⟨hreads, hend⟩ := reads_of_itemParagraphs htext hlines hmore hbehind hread.symm
    have hitemReads : item.isRereadable = true := by
      rw [ListItem.isRereadable, hitem]
      exact List.all_eq_true.2 hreads
    -- The next marker ends an item; behind the last one, only its own paragraphs say where it ends.
    by_cases hne : items = []
    · rw [hne] at hend ⊢
      exact ⟨by rw [List.all_cons, hitemReads]; rfl, fun _ => hend⟩
    · obtain ⟨hplain, hreads⟩ := List.forall_mem_cons.1 hreads
      rw [htext, List.tail_cons] at hplain
      rw [itemParagraphs_rendered htext hlines hplain hmore hreads
        (endsItem_items hmoreItems fun he => absurd he hne)] at hothers
      obtain ⟨hall, hlast⟩ := ih hmoreItems hothers
      exact ⟨by rw [List.all_cons, hitemReads, hall]; rfl, fun _ => hlast hne⟩

theorem furtherItems_of_eq_nil {lines : List String} (h : (furtherItems lines).1 = []) :
    furtherItems lines = ([], lines) := by
  refine furtherItems_none fun next more hmore => ?_
  rw [← Bool.not_eq_true, isItemLine_iff]
  rintro ⟨text, hitem⟩
  rw [furtherItems, hmore] at h
  dsimp only at h
  rw [hitem] at h
  exact listItems_ne_nil text more h

theorem furtherItems_of_head {lines : List String}
    (h : ∀ block ∈ (parseBlocks lines).head?, block.isList = false) :
    furtherItems lines = ([], lines) := by
  refine furtherItems_none fun next more hmore => ?_
  rw [← Bool.not_eq_true, isItemLine_iff]
  rintro ⟨text, hitem⟩
  rw [← parseBlocks_dropWhile, hmore, parseBlocks_item hitem] at h
  have hlist := h _ (List.head?_cons)
  cases hlist

theorem parseBlocks_items {items : List ListItem} (h : (Block.list items).IsRead) (rest : List String) :
    parseBlocks (items.flatMap ListItem.lines ++ rest) =
      .list (furtherItems (items.flatMap ListItem.lines ++ rest)).1 ::
        parseBlocks (furtherItems (items.flatMap ListItem.lines ++ rest)).2 := by
  obtain ⟨item, items, rfl⟩ := List.exists_cons_of_ne_nil h.1
  obtain ⟨text, line, lines, more, -, -, hmarker, -, -, hrendered⟩ :=
    (h.2 item List.mem_cons_self).lines_eq
  rw [List.flatMap_cons, hrendered, List.append_assoc, List.cons_append, furtherItems_item hmarker,
    parseBlocks_item hmarker]

end NativeCatalogue
