import NativeCatalogue.Proofs.Document.Shape

/-!
Nothing is lost between lines and blocks. `LinesSay` takes lines off from the front, each once, and notes
what they say; the blocks of the lines say the same, in the same order.
-/

set_option autoImplicit false

namespace NativeCatalogue

open LineKind

/-- What lines say. A fence goes with the lines up to the first that closes it, which stay as they are, or
    with all that are left. -/
inductive LinesSay : List String → List String → Prop
  | nil : LinesSay [] []
  | blank {line : String} {rest said : List String} :
    ofLine line = .blank → LinesSay rest said → LinesSay (line :: rest) said
  | heading {line text : String} {depth : Nat} {rest said : List String} :
    ofLine line = .heading depth text → LinesSay rest said → LinesSay (line :: rest) (text :: said)
  | item {line text : String} {rest said : List String} :
    ofLine line = .item text → LinesSay rest said → LinesSay (line :: rest) (text :: said)
  | plain {line : String} {rest said : List String} :
    ofLine line = .plain → LinesSay rest said → LinesSay (line :: rest) (line.trimBlanks :: said)
  | code {line last : String} {marker : List Char} {language : Option String}
      {content rest said : List String} :
    ofLine line = .fence marker language → (∀ inner ∈ content, closesFence marker inner = false) →
      closesFence marker last = true → LinesSay rest said →
      LinesSay (line :: (content ++ last :: rest)) (joinLines content :: said)
  | openCode {line : String} {marker : List Char} {language : Option String} {content : List String} :
    ofLine line = .fence marker language → (∀ inner ∈ content, closesFence marker inner = false) →
      LinesSay (line :: content) [joinLines content]

section Equations

variable {line : String}

theorem lineContents_nil : lineContents [] = [] := by
  rw [lineContents]

theorem lineContents_blank (h : ofLine line = .blank) (rest : List String) :
    lineContents (line :: rest) = lineContents rest := by
  rw [lineContents, h]

theorem lineContents_heading {depth : Nat} {text : String} (h : ofLine line = .heading depth text)
    (rest : List String) : lineContents (line :: rest) = text :: lineContents rest := by
  rw [lineContents, h]

theorem lineContents_item {text : String} (h : ofLine line = .item text) (rest : List String) :
    lineContents (line :: rest) = text :: lineContents rest := by
  rw [lineContents, h]

theorem lineContents_plain (h : ofLine line = .plain) (rest : List String) :
    lineContents (line :: rest) = line.trimBlanks :: lineContents rest := by
  rw [lineContents, h]

theorem lineContents_fence {marker : List Char} {language : Option String}
    (h : ofLine line = .fence marker language) (rest : List String) :
    lineContents (line :: rest) =
      joinLines (fencedLines marker rest) :: lineContents (afterFence marker rest) := by
  rw [lineContents, h]

end Equations

theorem lineContents_dropWhile (lines : List String) :
    lineContents (lines.dropWhile isBlankLine) = lineContents lines := by
  induction lines with
  | nil => rfl
  | cons line lines ih =>
    rw [List.dropWhile_cons]
    split
    · rename_i h
      rw [ih, lineContents_blank (isBlankLine_iff.1 h)]
    · rfl

theorem lineContents_takePlain (lines : List String) :
    (lines.takeWhile isPlainLine).map String.trimBlanks ++ lineContents (lines.dropWhile isPlainLine) =
      lineContents lines := by
  induction lines with
  | nil => rfl
  | cons line lines ih =>
    rw [List.takeWhile_cons, List.dropWhile_cons]
    split
    · rename_i h
      rw [List.map_cons, List.cons_append, ih, lineContents_plain (isPlainLine_iff.1 h)]
    · rfl

theorem fencedLines_open {marker : List Char} {content : List String}
    (hcontent : ∀ line ∈ content, closesFence marker line = false) :
    fencedLines marker content = content ∧ afterFence marker content = [] := by
  have hopen : ∀ line ∈ content, (!closesFence marker line) = true := fun line hline => by
    rw [hcontent line hline]
    rfl
  rw [fencedLines, afterFence, List.takeWhile_eq_self_iff.2 hopen, List.dropWhile_eq_nil_iff.2 hopen]
  exact ⟨rfl, rfl⟩

theorem fence_cases (marker : List Char) (lines : List String) :
    (∀ inner ∈ fencedLines marker lines, closesFence marker inner = false) ∧
      ((fencedLines marker lines = lines ∧ afterFence marker lines = []) ∨
        ∃ last, closesFence marker last = true ∧
          lines = fencedLines marker lines ++ last :: afterFence marker lines) := by
  refine ⟨fun inner hinner => by simpa using List.mem_takeWhile_imp hinner, ?_⟩
  have hsplit : fencedLines marker lines ++ lines.dropWhile (fun line => !closesFence marker line) =
      lines := List.takeWhile_append_dropWhile
  have hstop := List.head?_dropWhile_not (fun line => !closesFence marker line) lines
  rw [afterFence]
  cases hdrop : lines.dropWhile (fun line => !closesFence marker line) with
  | nil =>
    rw [hdrop, List.append_nil] at hsplit
    exact .inl ⟨hsplit, rfl⟩
  | cons last rest =>
    rw [hdrop] at hsplit hstop
    exact .inr ⟨last, by simpa using hstop, hsplit.symm⟩

theorem linesSay_iff {lines said : List String} :
    LinesSay lines said ↔ lineContents lines = said := by
  constructor
  · intro h
    induction h with
    | nil => exact lineContents_nil
    | blank hline _ ih => rw [lineContents_blank hline, ih]
    | heading hline _ ih => rw [lineContents_heading hline, ih]
    | item hline _ ih => rw [lineContents_item hline, ih]
    | plain hline _ ih => rw [lineContents_plain hline, ih]
    | code hline hcontent hlast _ ih =>
      obtain ⟨hinside, hbehind⟩ := fencedLines_closed hcontent hlast _
      rw [lineContents_fence hline, hinside, hbehind, ih]
    | openCode hline hcontent =>
      obtain ⟨hinside, hbehind⟩ := fencedLines_open hcontent
      rw [lineContents_fence hline, hinside, hbehind, lineContents_nil]
  · rintro rfl
    fun_induction lineContents lines with
    | case1 => exact .nil
    | case2 line rest hline ih => exact .blank hline ih
    | case3 line rest depth text hline ih => exact .heading hline ih
    | case4 line rest text hline ih => exact .item hline ih
    | case5 line rest hline ih => exact .plain hline ih
    | case6 line rest marker language hline ih =>
      obtain ⟨hopen, hall | ⟨last, hlast, hrest⟩⟩ := fence_cases marker rest
      · rw [hall.1] at hopen
        rw [hall.1, hall.2, lineContents_nil]
        exact .openCode hline hopen
      · have hcode := LinesSay.code hline hopen hlast ih
        rwa [← hrest] at hcode

/-- The paragraphs of an item and the lines behind it say what has been read of the item and what the lines
    say. A gap ends a paragraph only if there is one. -/
theorem contents_itemParagraphs {current lines : List String} (hfree : NewlineFree (current ++ lines))
    (hhead : current = [] → ∀ line ∈ lines.head?, isBlankLine line = false) :
    (itemParagraphs current lines).1.flatMap paragraphLines ++
        lineContents (itemParagraphs current lines).2 =
      current ++ lineContents lines := by
  have hlast : ∀ current : List String, NewlineFree current →
      (paragraphOf current).flatMap paragraphLines = current := by
    intro current hcurrent
    rw [paragraphOf]
    split
    · rename_i hne
      rw [hne, List.flatMap_nil]
    · rename_i hne
      rw [List.flatMap_singleton, paragraphLines_joinLines hne hcurrent]
  fun_induction itemParagraphs current lines with
  | case1 current => rw [hlast current (by simpa using hfree)]
  | case2 current line rest =>
    rw [hlast current (hfree.of_subset (List.subset_append_left _ _))]
  | case3 current line rest hline next more hnext h paragraphs after hitem ih =>
    have hne : current ≠ [] := by
      intro he
      have := hhead he line rfl
      rw [isBlankLine_iff.2 hline] at this
      cases this
    have hmore : NewlineFree ([] ++ next :: more) := by
      rw [List.nil_append, ← hnext]
      refine hfree.of_subset (List.Subset.trans (List.dropWhile_suffix _).subset ?_)
      exact List.Subset.trans (List.subset_cons_self line rest) (List.subset_append_right _ _)
    have hbehind := ih hmore fun _ l hl => by
      have hnot := List.head?_dropWhile_not isBlankLine rest
      rw [hnext, Option.mem_def.1 hl] at hnot
      simpa using hnot
    rw [hitem, List.nil_append, ← hnext, lineContents_dropWhile] at hbehind
    rw [List.flatMap_cons, paragraphLines_joinLines hne (hfree.of_subset (List.subset_append_left _ _)),
      List.append_assoc, hbehind, lineContents_blank hline]
  | case4 current line rest =>
    rw [hlast current (hfree.of_subset (List.subset_append_left _ _))]
  | case5 current line rest hline ih =>
    rw [ih hfree.trimBlanks (by simp), lineContents_plain hline, List.append_assoc,
      List.singleton_append]
  | case6 current line rest =>
    rw [hlast current (hfree.of_subset (List.subset_append_left _ _))]

theorem NewlineFree.item {line text : String} {rest : List String} (h : NewlineFree (line :: rest))
    (hline : ofLine line = .item text) : NewlineFree (text :: rest) := by
  have hkind := isKindOf_ofLine line
  rw [hline] at hkind
  exact List.forall_mem_cons.2 ⟨fun hmem => h line List.mem_cons_self (hkind.2.subset hmem),
    h.of_subset (List.subset_cons_self line rest)⟩

theorem contents_listItems {text : String} {lines : List String} (hfree : NewlineFree (text :: lines)) :
    (Block.list (listItems text lines).1).contents ++ lineContents (listItems text lines).2 =
      text :: lineContents lines := by
  have hitem : ∀ {text : String} {lines : List String}, NewlineFree (text :: lines) →
      (itemParagraphs [text] lines).1.flatMap paragraphLines ++
        lineContents (itemParagraphs [text] lines).2 = text :: lineContents lines :=
    fun h => contents_itemParagraphs h (by simp)
  simp only [Block.contents]
  fun_induction listItems text lines with
  | case1 text lines item after hafter => rw [List.flatMap_singleton, hitem hfree]
  | case2 text lines item after next more hafter nextText hnext items behind hitems ih =>
    have hmore : NewlineFree (next :: more) := by
      rw [← hafter]
      exact hfree.of_subset (List.Subset.trans
        ((List.dropWhile_suffix _).trans (itemParagraphs_suffix [text] lines)).subset
        (List.subset_cons_self text lines))
    have hread := ih (hmore.item hnext)
    rw [hitems, ← lineContents_item hnext, ← hafter, lineContents_dropWhile] at hread
    rw [List.flatMap_cons, List.append_assoc, hread, hitem hfree]
  | case3 text lines item after => rw [List.flatMap_singleton, hitem hfree]

theorem contents_parseBlocks {lines : List String} (hfree : NewlineFree lines) :
    (parseBlocks lines).flatMap Block.contents = lineContents lines := by
  fun_induction parseBlocks lines with
  | case1 => rw [List.flatMap_nil, lineContents_nil]
  | case2 line rest hline ih =>
    rw [ih (hfree.of_subset (List.subset_cons_self line rest)), lineContents_blank hline]
  | case3 line rest marker language hline ih =>
    have hbehind := hfree.of_subset (List.Subset.trans (afterFence_suffix marker rest).subset
      (List.subset_cons_self line rest))
    rw [List.flatMap_cons, ih hbehind, lineContents_fence hline]
    rfl
  | case4 line rest depth text hline ih =>
    rw [List.flatMap_cons, ih (hfree.of_subset (List.subset_cons_self line rest)),
      lineContents_heading hline]
    rfl
  | case5 line rest text hline ih =>
    have hbehind := hfree.of_subset (List.Subset.trans (listItems_suffix text rest).subset
      (List.subset_cons_self line rest))
    rw [List.flatMap_cons, ih hbehind, contents_listItems (hfree.item hline), lineContents_item hline]
  | case6 line rest hline ih =>
    have hrest := hfree.of_subset (List.subset_cons_self line rest)
    have htaken : NewlineFree ((line :: rest.takeWhile isPlainLine).map String.trimBlanks) := by
      intro l hl
      obtain ⟨l', hl', rfl⟩ := List.mem_map.1 hl
      refine newline_not_mem_trimBlanks (hfree l' ?_)
      exact List.cons_subset_cons line (List.takeWhile_sublist _).subset hl'
    rw [List.flatMap_cons, ih (hrest.of_subset (List.dropWhile_suffix _).subset), Block.contents,
      paragraphLines_joinLines (by simp) htaken, List.map_cons, List.cons_append,
      lineContents_takePlain, lineContents_plain hline]

theorem length_parseBlocks (lines : List String) : (parseBlocks lines).length ≤ lines.length := by
  fun_induction parseBlocks lines with
  | case1 => exact Nat.le_refl 0
  | case2 line rest hline ih => exact Nat.le_succ_of_le ih
  | case3 line rest marker language hline ih =>
    exact Nat.succ_le_succ (ih.trans (afterFence_suffix marker rest).length_le)
  | case4 line rest depth text hline ih => exact Nat.succ_le_succ ih
  | case5 line rest text hline ih =>
    exact Nat.succ_le_succ (ih.trans (listItems_suffix text rest).length_le)
  | case6 line rest hline ih =>
    exact Nat.succ_le_succ (ih.trans (List.dropWhile_suffix isPlainLine).length_le)

/-- Whatever lines there are, they have blocks, of which there are no more than lines, and the blocks say
    exactly what the lines say, each thing once and in order. -/
theorem parseBlocks_say {lines : List String} (hfree : NewlineFree lines) :
    (parseBlocks lines).length ≤ lines.length ∧
      ∀ said, LinesSay lines said ↔ (parseBlocks lines).flatMap Block.contents = said := by
  refine ⟨length_parseBlocks lines, fun said => ?_⟩
  rw [contents_parseBlocks hfree]
  exact linesSay_iff

theorem parseBlocks_say_sample :
    NewlineFree ["# a #", "* b", "", "   c", "-  ", "d ", "~~~", " e", "", "~~"] ∧
      (parseBlocks ["# a #", "* b", "", "   c", "-  ", "d ", "~~~", " e", "", "~~"]).flatMap
        Block.contents = ["a", "b", "c", "", "d", " e\n\n~~"] := by
  have hfree : NewlineFree ["# a #", "* b", "", "   c", "-  ", "d ", "~~~", " e", "", "~~"] := by
    unfold NewlineFree
    decide
  refine ⟨hfree, ((parseBlocks_say hfree).2 _).1 ?_⟩
  have hheading : ofLine "# a #" = .heading 1 "a" := by decide
  have hfence : ofLine "~~~" = .fence ['~', '~', '~'] none := by decide
  refine .heading hheading (.item (by decide) (.blank (by decide) ?_))
  refine .plain (by decide) (.item (by decide) (.plain (by decide) ?_))
  exact .openCode hfence (by decide)

end NativeCatalogue
