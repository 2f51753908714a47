import NativeCatalogue.Proofs.Basic
import NativeCatalogue.Proofs.Document.Views

/-!
Lines that cut a document. No block goes over a heading or the opening of a fence, so the blocks of lines
with such a line in them are the blocks before it and the blocks from it on, unless a fence is open there.
-/

set_option autoImplicit false

namespace NativeCatalogue

open LineKind

def LineKind.isCut : LineKind → Bool
  | .heading _ _ => true
  | .fence _ _ => true
  | _ => false

theorem isBlankLine_iff {line : String} : isBlankLine line = true ↔ ofLine line = .blank :=
  decide_eq_true_iff

theorem isPlainLine_iff {line : String} : isPlainLine line = true ↔ ofLine line = .plain :=
  decide_eq_true_iff

theorem isItemLine_iff {line : String} : isItemLine line = true ↔ ∃ text, ofLine line = .item text := by
  rw [isItemLine]
  split <;> simp_all

theorem not_isBlankLine_of_isCut {line : String} (h : (ofLine line).isCut = true) :
    isBlankLine line = false := by
  rw [← Bool.not_eq_true, isBlankLine_iff]
  intro he
  rw [he] at h
  cases h

theorem not_isPlainLine_of_isCut {line : String} (h : (ofLine line).isCut = true) :
    isPlainLine line = false := by
  rw [← Bool.not_eq_true, isPlainLine_iff]
  intro he
  rw [he] at h
  cases h

theorem not_isItemLine_of_isCut {line : String} (h : (ofLine line).isCut = true) :
    isItemLine line = false := by
  rw [← Bool.not_eq_true, isItemLine_iff]
  rintro ⟨text, he⟩
  rw [he] at h
  cases h

section Equations

variable {line : String}

theorem parseBlocks_nil : parseBlocks [] = [] := by
  rw [parseBlocks]

theorem parseBlocks_blank (h : ofLine line = .blank) (rest : List String) :
    parseBlocks (line :: rest) = parseBlocks rest := by
  rw [parseBlocks, h]

theorem parseBlocks_heading {depth : Nat} {text : String} (h : ofLine line = .heading depth text)
    (rest : List String) : parseBlocks (line :: rest) = .heading depth text :: parseBlocks rest := by
  rw [parseBlocks, h]

theorem parseBlocks_fence {marker : List Char} {language : Option String}
    (h : ofLine line = .fence marker language) (rest : List String) :
    parseBlocks (line :: rest) =
      .code language (joinLines (fencedLines marker rest)) :: parseBlocks (afterFence marker rest) := by
  rw [parseBlocks, h]

theorem parseBlocks_item {text : String} (h : ofLine line = .item text) (rest : List String) :
    parseBlocks (line :: rest) =
      .list (listItems text rest).1 :: parseBlocks (listItems text rest).2 := by
  rw [parseBlocks, h]

theorem parseBlocks_plain (h : ofLine line = .plain) (rest : List String) :
    parseBlocks (line :: rest) =
      .paragraph (joinLines ((line :: rest.takeWhile isPlainLine).map String.trimBlanks)) ::
        parseBlocks (rest.dropWhile isPlainLine) := by
  rw [parseBlocks, h]

theorem itemParagraphs_nil (current : List String) :
    itemParagraphs current [] = (paragraphOf current, []) := by
  rw [itemParagraphs]

theorem itemParagraphs_plain (h : ofLine line = .plain) (current rest : List String) :
    itemParagraphs current (line :: rest) = itemParagraphs (current ++ [line.trimBlanks]) rest := by
  rw [itemParagraphs, h]

theorem itemParagraphs_stop (hblank : isBlankLine line = false) (hplain : isPlainLine line = false)
    (current rest : List String) :
    itemParagraphs current (line :: rest) = (paragraphOf current, line :: rest) := by
  rw [itemParagraphs]
  split
  · simp_all [isBlankLine]
  · simp_all [isPlainLine]
  · rfl

theorem itemParagraphs_gap (h : ofLine line = .blank) {rest more : List String} {next : String}
    (hrest : rest.dropWhile isBlankLine = next :: more)
    (hnext : (isIndented next && !isItemLine next) = true) (current : List String) :
    itemParagraphs current (line :: rest) =
      (joinLines current :: (itemParagraphs [] (next :: more)).1,
        (itemParagraphs [] (next :: more)).2) := by
  rw [itemParagraphs, h]
  dsimp only
  split
  · simp_all
  · rename_i next' more' he
    rw [hrest] at he
    cases he
    rw [if_pos hnext]

theorem itemParagraphs_gap_stop (h : ofLine line = .blank) {rest : List String}
    (hrest : ∀ next more, rest.dropWhile isBlankLine = next :: more →
      (isIndented next && !isItemLine next) = false) (current : List String) :
    itemParagraphs current (line :: rest) = (paragraphOf current, line :: rest) := by
  rw [itemParagraphs, h]
  dsimp only
  split
  · rfl
  · rename_i next more he
    rw [if_neg (by rw [hrest next more he]; exact Bool.false_ne_true)]

theorem listItems_next {text nextText : String} {lines more : List String} {next : String}
    (hrest : (itemParagraphs [text] lines).2.dropWhile isBlankLine = next :: more)
    (hnext : ofLine next = .item nextText) :
    listItems text lines =
      (⟨(itemParagraphs [text] lines).1⟩ :: (listItems nextText more).1,
        (listItems nextText more).2) := by
  rw [listItems]
  split
  · simp_all
  · rename_i next' more' he
    rw [hrest] at he
    cases he
    rw [hnext]

theorem listItems_last {text : String} {lines : List String}
    (hrest : ∀ next more, (itemParagraphs [text] lines).2.dropWhile isBlankLine = next :: more →
      isItemLine next = false) :
    listItems text lines = ([⟨(itemParagraphs [text] lines).1⟩], (itemParagraphs [text] lines).2) := by
  rw [listItems]
  split
  · rfl
  · rename_i next more he
    have hnext := hrest next more he
    rw [isItemLine] at hnext
    split
    · simp_all
    · rfl

end Equations

theorem parseBlocks_dropWhile (lines : List String) :
    parseBlocks (lines.dropWhile isBlankLine) = parseBlocks lines := by
  induction lines with
  | nil => rfl
  | cons line lines ih =>
    rw [List.dropWhile_cons]
    split
    · rename_i h
      rw [ih, parseBlocks_blank (isBlankLine_iff.1 h)]
    · rfl

theorem openFence?_cons {line : String} (h : ∀ marker language, ofLine line ≠ .fence marker language)
    (rest : List String) : openFence? (line :: rest) = openFence? rest := by
  have hstep : fenceStep none line = none := by
    rw [fenceStep]
    split
    · rename_i marker language he
      exact absurd he (h marker language)
    · rfl
  rw [openFence?, List.foldl_cons, hstep]
  rfl

theorem openFence?_dropWhile {p : String → Bool}
    (h : ∀ line, p line = true → ∀ marker language, ofLine line ≠ .fence marker language)
    (lines : List String) : openFence? (lines.dropWhile p) = openFence? lines := by
  induction lines with
  | nil => rfl
  | cons line lines ih =>
    rw [List.dropWhile_cons]
    split
    · rename_i hp
      rw [ih, openFence?_cons (h line hp)]
    · rfl

theorem openFence?_dropBlank (lines : List String) :
    openFence? (lines.dropWhile isBlankLine) = openFence? lines := by
  refine openFence?_dropWhile (fun line hline marker language he => ?_) lines
  rw [isBlankLine_iff.1 hline] at he
  cases he

theorem openFence?_dropPlain (lines : List String) :
    openFence? (lines.dropWhile isPlainLine) = openFence? lines := by
  refine openFence?_dropWhile (fun line hline marker language he => ?_) lines
  rw [isPlainLine_iff.1 hline] at he
  cases he

theorem foldl_fenceStep_some (marker : List Char) (lines : List String) :
    lines.foldl fenceStep (some marker) =
      if lines.any (closesFence marker) then openFence? (afterFence marker lines)
      else some marker := by
  induction lines with
  | nil => rfl
  | cons line lines ih =>
    rw [List.foldl_cons, fenceStep, List.any_cons, afterFence, List.dropWhile_cons]
    cases h : closesFence marker line with
    | true => simp [openFence?]
    | false => simpa [afterFence] using ih

theorem openFence?_fence {line : String} {marker : List Char} {language : Option String}
    (h : ofLine line = .fence marker language) (rest : List String) :
    openFence? (line :: rest) =
      if rest.any (closesFence marker) then openFence? (afterFence marker rest) else some marker := by
  rw [openFence?, List.foldl_cons, fenceStep, h]
  exact foldl_fenceStep_some marker rest

theorem fencedLines_append {marker : List Char} {lines : List String}
    (h : lines.any (closesFence marker) = true) (rest : List String) :
    fencedLines marker (lines ++ rest) = fencedLines marker lines ∧
      afterFence marker (lines ++ rest) = afterFence marker lines ++ rest := by
  induction lines with
  | nil => cases h
  | cons line lines ih =>
    rw [List.cons_append, fencedLines, fencedLines, afterFence, afterFence]
    cases hline : closesFence marker line with
    | true => simp [hline]
    | false =>
      obtain ⟨hinside, hbehind⟩ := ih (by simpa [hline] using h)
      rw [List.takeWhile_cons_of_pos (by simp [hline]), List.takeWhile_cons_of_pos (by simp [hline]),
        List.dropWhile_cons_of_pos (by simp [hline]), List.dropWhile_cons_of_pos (by simp [hline])]
      exact ⟨congrArg (line :: ·) hinside, hbehind⟩

theorem fencedLines_closed {marker : List Char} {content : List String}
    (hcontent : ∀ line ∈ content, closesFence marker line = false) {last : String}
    (hlast : closesFence marker last = true) (rest : List String) :
    fencedLines marker (content ++ last :: rest) = content ∧
      afterFence marker (content ++ last :: rest) = rest := by
  have hopen : ∀ line ∈ content, (!closesFence marker line) = true := fun line hline => by
    rw [hcontent line hline]
    rfl
  rw [fencedLines, afterFence, List.takeWhile_append_of_pos hopen, List.dropWhile_append_of_pos hopen,
    List.takeWhile_cons, List.dropWhile_cons, hlast]
  exact ⟨List.append_nil content, rfl⟩

theorem openFence?_itemParagraphs (current lines : List String) :
    openFence? (itemParagraphs current lines).2 = openFence? lines := by
  fun_induction itemParagraphs current lines with
  | case1 => rfl
  | case2 => rfl
  | case3 current line rest hline next more hnext h paragraphs after hitem ih =>
    rw [hitem, ← hnext, openFence?_dropBlank] at ih
    rw [ih, openFence?_cons (by simp [hline])]
  | case4 => rfl
  | case5 current line rest hline ih =>
    rw [ih, openFence?_cons (by simp [hline])]
  | case6 => rfl

theorem openFence?_listItems (text : String) (lines : List String) :
    openFence? (listItems text lines).2 = openFence? lines := by
  fun_induction listItems text lines with
  | case1 text lines => exact openFence?_itemParagraphs [text] lines
  | case2 text lines item after next more hmore nextText hnext items rest hrest ih =>
    rw [hrest] at ih
    have hafter : openFence? after = openFence? lines := openFence?_itemParagraphs [text] lines
    rw [ih, ← hafter, ← openFence?_dropBlank after, hmore, openFence?_cons (by simp [hnext])]
  | case3 text lines => exact openFence?_itemParagraphs [text] lines

section Cut

variable {c : String} (hc : (ofLine c).isCut = true) (rest : List String)

include hc

/-- An item ends at a cut. Where blank lines stand before the cut, it may end before or behind them. -/
theorem itemParagraphs_append_cut (current lines : List String)
    (hcurrent : current = [] → ∀ line ∈ lines.head?, isBlankLine line = false) :
    (itemParagraphs current (lines ++ c :: rest)).1 = (itemParagraphs current lines).1 ∧
      (itemParagraphs current (lines ++ c :: rest)).2.dropWhile isBlankLine =
        ((itemParagraphs current lines).2 ++ c :: rest).dropWhile isBlankLine := by
  have hblank := not_isBlankLine_of_isCut hc
  have hstop : ∀ current, itemParagraphs current (c :: rest) = (paragraphOf current, c :: rest) :=
    fun current => itemParagraphs_stop hblank (not_isPlainLine_of_isCut hc) current rest
  fun_induction itemParagraphs current lines with
  | case1 current => rw [List.nil_append, hstop]; exact ⟨rfl, rfl⟩
  | case2 current line more hline hmore =>
    have hne : current ≠ [] := by
      intro he
      have := hcurrent he line rfl
      rw [isBlankLine_iff.2 hline] at this
      cases this
    have hdrop : (more ++ c :: rest).dropWhile isBlankLine = c :: rest := by
      rw [List.dropWhile_append_of_stop more rest hblank, hmore, List.nil_append]
    rw [List.cons_append]
    cases hindent : isIndented c with
    | true =>
      rw [itemParagraphs_gap hline hdrop (by rw [hindent, not_isItemLine_of_isCut hc]; rfl), hstop,
        paragraphOf, if_pos rfl, paragraphOf, if_neg hne]
      refine ⟨rfl, ?_⟩
      rw [List.dropWhile_cons_of_pos (isBlankLine_iff.2 hline), hdrop,
        List.dropWhile_cons_of_neg (by simp [hblank])]
    | false =>
      rw [itemParagraphs_gap_stop hline]
      · exact ⟨rfl, rfl⟩
      · intro next after he
        rw [hdrop] at he
        cases he
        rw [hindent, Bool.false_and]
  | case3 current line more hline next after hnext h paragraphs behind hitem ih =>
    have hdrop : (more ++ c :: rest).dropWhile isBlankLine = next :: (after ++ c :: rest) := by
      rw [List.dropWhile_append_of_stop more rest hblank, hnext, List.cons_append]
    have hhead : isBlankLine next = false := by
      have := List.head?_dropWhile_not isBlankLine more
      rw [hnext] at this
      simpa using this
    obtain ⟨hfirst, hbehind⟩ := ih fun _ line hl => by
      rw [List.head?_cons, Option.mem_some_iff] at hl
      exact hl ▸ hhead
    rw [hitem] at hfirst hbehind
    rw [List.cons_append, itemParagraphs_gap hline hdrop h]
    exact ⟨congrArg (joinLines current :: ·) hfirst, hbehind⟩
  | case4 current line more hline next after hnext h =>
    have hdrop : (more ++ c :: rest).dropWhile isBlankLine = next :: (after ++ c :: rest) := by
      rw [List.dropWhile_append_of_stop more rest hblank, hnext, List.cons_append]
    rw [List.cons_append, itemParagraphs_gap_stop hline]
    · exact ⟨rfl, rfl⟩
    · intro next' after' he
      rw [hdrop] at he
      cases he
      simpa using h
  | case5 current line more hline ih =>
    rw [List.cons_append, itemParagraphs_plain hline]
    exact ih fun he => absurd he (by simp)
  | case6 current line more hnotBlank hnotPlain =>
    rw [List.cons_append, itemParagraphs_stop]
    · exact ⟨rfl, rfl⟩
    · rw [← Bool.not_eq_true, isBlankLine_iff]
      exact hnotBlank
    · rw [← Bool.not_eq_true, isPlainLine_iff]
      exact hnotPlain

theorem listItems_append_cut (text : String) (lines : List String) :
    (listItems text (lines ++ c :: rest)).1 = (listItems text lines).1 ∧
      (listItems text (lines ++ c :: rest)).2.dropWhile isBlankLine =
        ((listItems text lines).2 ++ c :: rest).dropWhile isBlankLine := by
  have hblank := not_isBlankLine_of_isCut hc
  have hitem := not_isItemLine_of_isCut hc
  fun_induction listItems text lines with
  | case1 text lines item after hafter =>
    obtain ⟨hfirst, hbehind⟩ := itemParagraphs_append_cut hc rest [text] lines (by simp)
    rw [List.dropWhile_append_of_stop _ rest hblank, hafter, List.nil_append] at hbehind
    rw [listItems_last]
    · refine ⟨by rw [hfirst], ?_⟩
      rw [hbehind, List.dropWhile_append_of_stop _ rest hblank, hafter, List.nil_append]
    · intro next more he
      rw [hbehind] at he
      cases he
      exact hitem
  | case2 text lines item after next more hafter nextText hnext items behind hitems ih =>
    obtain ⟨hfirst, hbehind⟩ := itemParagraphs_append_cut hc rest [text] lines (by simp)
    rw [List.dropWhile_append_of_stop _ rest hblank, hafter, List.cons_append] at hbehind
    rw [listItems_next hbehind hnext]
    rw [hitems] at ih
    exact ⟨by rw [hfirst, ih.1], ih.2⟩
  | case3 text lines item after next more hafter hnext =>
    obtain ⟨hfirst, hbehind⟩ := itemParagraphs_append_cut hc rest [text] lines (by simp)
    rw [listItems_last]
    · exact ⟨by rw [hfirst], hbehind⟩
    · intro next' more' he
      rw [hbehind, List.dropWhile_append_of_stop _ rest hblank, hafter, List.cons_append] at he
      cases he
      rw [← Bool.not_eq_true, isItemLine_iff]
      rintro ⟨nextText, htext⟩
      exact hnext nextText htext

/-- Blocks end at a cut, unless a fence is open there. -/
theorem parseBlocks_append_cut {lines : List String} (hopen : openFence? lines = none) :
    parseBlocks (lines ++ c :: rest) = parseBlocks lines ++ parseBlocks (c :: rest) := by
  have hplain := not_isPlainLine_of_isCut hc
  fun_induction parseBlocks lines with
  | case1 => rfl
  | case2 line lines hline ih =>
    rw [openFence?_cons (by simp [hline])] at hopen
    rw [List.cons_append, parseBlocks_blank hline, ih hopen]
  | case3 line lines marker language hline ih =>
    rw [openFence?_fence hline] at hopen
    split at hopen
    · rename_i hclosed
      obtain ⟨hinside, hbehind⟩ := fencedLines_append hclosed (c :: rest)
      rw [List.cons_append, parseBlocks_fence hline, hinside, hbehind, ih hopen, List.cons_append]
    · cases hopen
  | case4 line lines depth text hline ih =>
    rw [openFence?_cons (by simp [hline])] at hopen
    rw [List.cons_append, parseBlocks_heading hline, ih hopen, List.cons_append]
  | case5 line lines text hline ih =>
    rw [openFence?_cons (by simp [hline]), ← openFence?_listItems text lines] at hopen
    obtain ⟨hitems, hbehind⟩ := listItems_append_cut hc rest text lines
    rw [List.cons_append, parseBlocks_item hline, hitems, ← parseBlocks_dropWhile, hbehind,
      parseBlocks_dropWhile, ih hopen, List.cons_append]
  | case6 line lines hline ih =>
    rw [openFence?_cons (by simp [hline]), ← openFence?_dropPlain lines] at hopen
    rw [List.cons_append, parseBlocks_plain hline, List.takeWhile_append_of_stop lines rest hplain,
      List.dropWhile_append_of_stop lines rest hplain, ih hopen, List.cons_append]

end Cut

/-- Where no fence is open, a heading stands between the blocks before it and those behind it, and so does
    fenced code with the lines up to the one that closes it. -/
theorem headings_and_code_cut {before : List String} (hbefore : openFence? before = none)
    (behind : List String) :
    (∀ line depth text, ofLine line = .heading depth text →
      parseBlocks (before ++ line :: behind) =
        parseBlocks before ++ .heading depth text :: parseBlocks behind) ∧
    ∀ line marker language, ofLine line = .fence marker language → ∀ content : List String,
      (∀ inner ∈ content, closesFence marker inner = false) →
      ∀ last, closesFence marker last = true →
        parseBlocks (before ++ line :: (content ++ last :: behind)) =
          parseBlocks before ++ .code language (joinLines content) :: parseBlocks behind := by
  refine ⟨fun line depth text hline => ?_, fun line marker language hline content hcontent last hlast => ?_⟩
  · rw [parseBlocks_append_cut (by rw [hline]; rfl) behind hbefore, parseBlocks_heading hline]
  · obtain ⟨hinside, hrest⟩ := fencedLines_closed hcontent hlast behind
    rw [parseBlocks_append_cut (by rw [hline]; rfl) _ hbefore, parseBlocks_fence hline, hinside, hrest]

theorem headings_and_code_cut_sample :
    openFence? ["1. a", "", "   b", ""] = none ∧
      parseBlocks (["1. a", "", "   b", ""] ++ "  ## c" :: ["", "d"]) =
        [.list [⟨["a", "b"]⟩], .heading 2 "c", .paragraph "d"] ∧
      parseBlocks (["1. a", "", "   b", ""] ++ "   ~~~~ lua" :: (["~~~", "", "# c "] ++ "~~~~~ " :: ["", "d"])) =
        [.list [⟨["a", "b"]⟩], .code (some "lua") "~~~\n\n# c ", .paragraph "d"] := by
  have hbefore : openFence? ["1. a", "", "   b", ""] = none := by decide
  have hblocks : parseBlocks ["1. a", "", "   b", ""] = [.list [⟨["a", "b"]⟩]] := by decide +kernel
  have hbehind : parseBlocks ["", "d"] = [.paragraph "d"] := by decide +kernel
  have hheading : ofLine "  ## c" = .heading 2 "c" := by decide
  have hfence : ofLine "   ~~~~ lua" = .fence ['~', '~', '~', '~'] (some "lua") := by decide
  obtain ⟨hcut, hcode⟩ := headings_and_code_cut hbefore ["", "d"]
  refine ⟨hbefore, ?_, ?_⟩
  · rw [hcut _ _ _ hheading, hblocks, hbehind]
    rfl
  · rw [hcode _ _ _ hfence _ (by decide) _ (by decide), hblocks, hbehind]
    rfl

end NativeCatalogue
