import Mathlib.Data.List.Chain
import NativeCatalogue.Proofs.Document.Cuts
import NativeCatalogue.Proofs.Document.Joining

set_option autoImplicit false

namespace NativeCatalogue

open LineKind

structure IsTextLine (line : String) : Prop where
  trimmed : Text.IsTrimmed line.toList
  nonempty : line ≠ ""

def IsParagraph (text : String) : Prop :=
  ∀ line ∈ paragraphLines text, IsTextLine line

def IsItemText (text : String) : Prop :=
  ∃ line lines, paragraphLines text = line :: lines ∧ Text.IsTrimmed line.toList ∧
    ∀ l ∈ lines, IsTextLine l

def ListItem.IsRead (item : ListItem) : Prop :=
  ∃ first more, item.paragraphs = first :: more ∧ IsItemText first ∧ ∀ text ∈ more, IsParagraph text

namespace Block

def isList : Block → Bool
  | .list _ => true
  | _ => false

def IsRead : Block → Prop
  | .heading depth text =>
    0 < depth ∧ depth ≤ 6 ∧ Text.IsTrimmed text.toList ∧ '\n' ∉ text.toList
  | .code language _ =>
    ∀ word ∈ language, word ≠ "" ∧ ∀ c ∈ word.toList, Text.isBlank c = false ∧ c ≠ '\x60'
  | .paragraph text => IsParagraph text
  | .list items => items ≠ [] ∧ ∀ item ∈ items, item.IsRead

end Block

structure AreRead (blocks : List Block) : Prop where
  each : ∀ block ∈ blocks, block.IsRead
  apart : blocks.IsChain fun a b => a.isList = true → b.isList = false

def LineKind.IsKindOf (cs : List Char) : LineKind → Prop
  | .blank => cs.all Text.isBlank = true
  | .heading depth text =>
    0 < depth ∧ depth ≤ 6 ∧ Text.IsTrimmed text.toList ∧ text.toList.Sublist cs
  | .fence _ language =>
    ∀ word ∈ language, word ≠ "" ∧ ∀ c ∈ word.toList, Text.isBlank c = false ∧ c ≠ '\x60'
  | .item text => Text.IsTrimmed text.toList ∧ text.toList.Sublist cs
  | .plain => cs.all Text.isBlank = false

theorem dropEndWhile_sublist (p : Char → Bool) (cs : List Char) : (dropEndWhile p cs).Sublist cs := by
  have h := List.rdropWhile_prefix p cs
  exact h.sublist

theorem headingText_sublist (cs : List Char) : (headingText cs).Sublist cs := by
  rw [headingText]
  split
  · exact ((dropEndWhile_sublist _ _).trans (dropEndWhile_sublist _ _)).trans
      (dropEndWhile_sublist _ _)
  · exact dropEndWhile_sublist _ _

theorem isTrimmed_nil : Text.IsTrimmed [] :=
  ⟨by simp, by simp⟩

theorem isKindOf_fence? {cs : List Char} {kind : LineKind} (h : fence? cs = some kind) :
    kind.IsKindOf cs := by
  unfold fence? at h
  split at h
  · cases h
  · dsimp only at h
    split at h
    · cases h
      intro word hword
      unfold fenceLanguage at hword
      dsimp only at hword
      split at hword
      · cases hword
      · rename_i hne
        rw [Option.mem_some_iff] at hword
        subst hword
        refine ⟨by simpa using hne, fun c hc => ?_⟩
        rw [String.toList_ofList] at hc
        have := List.mem_takeWhile_imp hc
        simpa using this
    · cases h

theorem isKindOf_heading? {cs : List Char} {kind : LineKind} (h : heading? cs = some kind) :
    kind.IsKindOf cs := by
  unfold heading? at h
  dsimp only at h
  split at h
  · cases h
  · rename_i hdepth
    simp only [Bool.or_eq_true, decide_eq_true_eq, not_or] at hdepth
    have hdepth : 0 < (cs.takeWhile (· = '#')).length ∧ (cs.takeWhile (· = '#')).length ≤ 6 := by
      omega
    split at h
    · cases h
      exact ⟨hdepth.1, hdepth.2, isTrimmed_nil, List.nil_sublist _⟩
    · split at h
      · cases h
        refine ⟨hdepth.1, hdepth.2, ?_, ?_⟩
        · rw [String.toList_ofList]
          exact Text.isTrimmed_trim _
        · rw [String.toList_ofList]
          exact ((Text.trim_sublist _).trans (headingText_sublist _)).trans
            ((List.dropWhile_sublist _).trans (List.dropWhile_sublist _))
      · cases h

theorem afterMarker?_sublist {cs rest : List Char} (h : afterMarker? cs = some rest) :
    rest.Sublist cs := by
  unfold afterMarker? at h
  split at h
  · cases h
  · rename_i c more
    split at h
    · cases h
      exact List.sublist_cons_self c _
    · dsimp only at h
      split at h
      · rename_i d tail hdigits
        split at h
        · cases h
          have := List.dropWhile_sublist Text.isDecimalDigit (l := c :: more)
          rw [hdigits] at this
          exact (List.sublist_cons_self d _).trans this
        · cases h
      · cases h

theorem isKindOf_item? {cs : List Char} {kind : LineKind} (h : item? cs = some kind) :
    kind.IsKindOf cs := by
  unfold item? at h
  obtain ⟨rest, hrest, h⟩ := Option.bind_eq_some_iff.1 h
  split at h
  · cases h
    rw [IsKindOf, String.toList_ofList]
    exact ⟨Text.isTrimmed_trim _,
      ((Text.trim_sublist _).trans (List.dropWhile_sublist _)).trans (afterMarker?_sublist hrest)⟩
  · cases h

theorem isKindOf_of_unindent? {cs body : List Char} {kind : LineKind}
    (hbody : unindent? cs = some body) (hcs : cs.all Text.isBlank = false) (h : kind.IsKindOf body) :
    kind.IsKindOf cs := by
  have hbody : body = cs.dropWhile (· = ' ') := by
    rw [unindent?] at hbody
    split at hbody <;> cases hbody
    rfl
  have hsub : body.Sublist cs := hbody ▸ List.dropWhile_sublist _
  cases kind with
  | blank =>
    have hspaces : (cs.takeWhile (· = ' ')).all Text.isBlank = true := by
      refine List.all_eq_true.2 fun c hc => ?_
      have hspace : c = ' ' := by simpa using List.mem_takeWhile_imp hc
      rw [hspace]
      rfl
    have hall : (cs.takeWhile (· = ' ') ++ cs.dropWhile (· = ' ')).all Text.isBlank = true := by
      rw [List.all_append, hspaces, ← hbody]
      exact h
    rwa [List.takeWhile_append_dropWhile] at hall
  | heading depth text => exact ⟨h.1, h.2.1, h.2.2.1, h.2.2.2.trans hsub⟩
  | fence marker language => exact h
  | item text => exact ⟨h.1, h.2.trans hsub⟩
  | plain => exact hcs

theorem isKindOf_ofLine (line : String) : (ofLine line).IsKindOf line.toList := by
  rw [ofLine]
  split
  · rename_i hblank
    exact hblank
  · rename_i hblank
    have hblank := Bool.eq_false_iff.2 hblank
    cases hbody : unindent? line.toList with
    | none => exact hblank
    | some body =>
      rw [Option.bind_some]
      cases hkind : (fence? body).or ((heading? body).or (item? body)) with
      | none => exact hblank
      | some kind =>
        refine isKindOf_of_unindent? hbody hblank ?_
        rcases Option.or_eq_some_iff.1 hkind with h | ⟨-, h⟩
        · exact isKindOf_fence? h
        · rcases Option.or_eq_some_iff.1 h with h | ⟨-, h⟩
          · exact isKindOf_heading? h
          · exact isKindOf_item? h

theorem isTextLine_trimBlanks {line : String} (h : isPlainLine line = true) :
    IsTextLine line.trimBlanks := by
  have hkind := isKindOf_ofLine line
  rw [isPlainLine_iff.1 h, IsKindOf] at hkind
  constructor
  · rw [String.trimBlanks, String.toList_ofList]
    exact Text.isTrimmed_trim _
  · intro he
    rw [String.trimBlanks, ← String.toList_eq_nil_iff, String.toList_ofList,
      Text.trim_eq_nil_iff, hkind] at he
    cases he

theorem newline_not_mem_trimBlanks {line : String} (h : '\n' ∉ line.toList) :
    '\n' ∉ line.trimBlanks.toList := by
  rw [String.trimBlanks, String.toList_ofList]
  exact fun hmem => h ((Text.trim_sublist _).subset hmem)

theorem NewlineFree.trimBlanks {current lines : List String} {line : String}
    (h : NewlineFree (current ++ line :: lines)) :
    NewlineFree (current ++ [line.trimBlanks] ++ lines) := by
  intro l hl
  rw [List.append_assoc, List.mem_append, List.mem_append, List.mem_singleton] at hl
  rcases hl with hl | rfl | hl
  · exact h l (List.mem_append_left _ hl)
  · exact newline_not_mem_trimBlanks (h line (by simp))
  · exact h l (by simp [hl])

theorem isTextLine_concat {current : List String} (h : ∀ l ∈ current, IsTextLine l) {line : String}
    (hline : isPlainLine line = true) : ∀ l ∈ current ++ [line.trimBlanks], IsTextLine l := by
  intro l hl
  rcases List.mem_append.1 hl with hl | hl
  · exact h l hl
  · rw [List.mem_singleton.1 hl]
    exact isTextLine_trimBlanks hline

theorem itemParagraphs_suffix (current lines : List String) :
    (itemParagraphs current lines).2 <:+ lines := by
  fun_induction itemParagraphs current lines with
  | case1 => exact List.suffix_rfl
  | case2 => exact List.suffix_rfl
  | case3 current line rest hline next more hnext h paragraphs after hitem ih =>
    rw [hitem, ← hnext] at ih
    exact (ih.trans (List.dropWhile_suffix _)).trans (List.suffix_cons line rest)
  | case4 => exact List.suffix_rfl
  | case5 current line rest hline ih => exact ih.trans (List.suffix_cons line rest)
  | case6 => exact List.suffix_rfl

theorem listItems_suffix (text : String) (lines : List String) :
    (listItems text lines).2 <:+ lines := by
  fun_induction listItems text lines with
  | case1 text lines => exact itemParagraphs_suffix [text] lines
  | case2 text lines item after next more hmore nextText hnext items rest hrest ih =>
    rw [hrest] at ih
    have hafter : next :: more <:+ lines := by
      rw [← hmore]
      exact (List.dropWhile_suffix _).trans (itemParagraphs_suffix [text] lines)
    exact (ih.trans (List.suffix_cons next more)).trans hafter
  | case3 text lines => exact itemParagraphs_suffix [text] lines

theorem isParagraph_joinLines {lines : List String} (hne : lines ≠ [])
    (hfree : NewlineFree lines) (h : ∀ line ∈ lines, IsTextLine line) :
    IsParagraph (joinLines lines) := by
  rw [IsParagraph, paragraphLines_joinLines hne hfree]
  exact h

theorem isParagraph_paragraphOf {lines : List String} (hfree : NewlineFree lines)
    (h : ∀ line ∈ lines, IsTextLine line) : ∀ text ∈ paragraphOf lines, IsParagraph text := by
  intro text htext
  rw [paragraphOf] at htext
  split at htext
  · cases htext
  · rename_i hne
    rw [List.mem_singleton.1 htext]
    exact isParagraph_joinLines hne hfree h

theorem itemParagraphs_isParagraph {current lines : List String} (hfree : NewlineFree (current ++ lines))
    (hcurrent : ∀ line ∈ current, IsTextLine line)
    (hhead : current = [] → ∀ line ∈ lines.head?, isBlankLine line = false) :
    ∀ text ∈ (itemParagraphs current lines).1, IsParagraph text := by
  fun_induction itemParagraphs current lines with
  | case1 current => exact isParagraph_paragraphOf (hfree.of_subset (List.subset_append_left _ _)) hcurrent
  | case2 current line rest => exact isParagraph_paragraphOf (hfree.of_subset (List.subset_append_left _ _)) hcurrent
  | case3 current line rest hline next more hnext h paragraphs after hitem ih =>
    have hne : current ≠ [] := by
      intro he
      have := hhead he line rfl
      rw [isBlankLine_iff.2 hline] at this
      cases this
    have hmore : NewlineFree (next :: more) := by
      rw [← hnext]
      refine hfree.of_subset (List.Subset.trans (List.dropWhile_suffix _).subset ?_)
      exact List.Subset.trans (List.subset_cons_self line rest) (List.subset_append_right _ _)
    have hbehind := ih hmore (by simp) fun _ l hl => by
      have hnot := List.head?_dropWhile_not isBlankLine rest
      rw [hnext, Option.mem_def.1 hl] at hnot
      simpa using hnot
    rw [hitem] at hbehind
    intro text htext
    rcases List.mem_cons.1 htext with rfl | htext
    · exact isParagraph_joinLines hne (hfree.of_subset (List.subset_append_left _ _)) hcurrent
    · exact hbehind text htext
  | case4 current line rest => exact isParagraph_paragraphOf (hfree.of_subset (List.subset_append_left _ _)) hcurrent
  | case5 current line rest hline ih =>
    exact ih hfree.trimBlanks (isTextLine_concat hcurrent (isPlainLine_iff.2 hline)) (by simp)
  | case6 current line rest => exact isParagraph_paragraphOf (hfree.of_subset (List.subset_append_left _ _)) hcurrent

theorem isRead_joinLines {line : String} {lines more : List String}
    (hfree : NewlineFree (line :: lines)) (hline : Text.IsTrimmed line.toList)
    (hlines : ∀ l ∈ lines, IsTextLine l) (hmore : ∀ text ∈ more, IsParagraph text) :
    ListItem.IsRead ⟨joinLines (line :: lines) :: more⟩ :=
  ⟨joinLines (line :: lines), more, rfl,
    ⟨line, lines, paragraphLines_joinLines (List.cons_ne_nil line lines) hfree, hline, hlines⟩, hmore⟩

theorem isRead_itemParagraphs {line : String} {current lines : List String}
    (hfree : NewlineFree (line :: current ++ lines)) (hline : Text.IsTrimmed line.toList)
    (hcurrent : ∀ l ∈ current, IsTextLine l) :
    ListItem.IsRead ⟨(itemParagraphs (line :: current) lines).1⟩ := by
  induction lines generalizing current with
  | nil =>
    rw [itemParagraphs_nil]
    rw [List.append_nil] at hfree
    exact isRead_joinLines hfree hline hcurrent (by simp)
  | cons first rest ih =>
    have hstart := hfree.of_subset (List.subset_append_left _ _)
    have hlast : ListItem.IsRead ⟨paragraphOf (line :: current)⟩ :=
      isRead_joinLines hstart hline hcurrent (by simp)
    cases hplain : isPlainLine first with
    | true =>
      rw [itemParagraphs_plain (isPlainLine_iff.1 hplain)]
      exact ih hfree.trimBlanks (isTextLine_concat hcurrent hplain)
    | false =>
      cases hblank : isBlankLine first with
      | false =>
        rw [itemParagraphs_stop hblank hplain]
        exact hlast
      | true =>
        have hblank := isBlankLine_iff.1 hblank
        by_cases hgap : ∃ next more, rest.dropWhile isBlankLine = next :: more ∧
            (isIndented next && !isItemLine next) = true
        · obtain ⟨next, more, hnext, hon⟩ := hgap
          rw [itemParagraphs_gap hblank hnext hon]
          refine isRead_joinLines hstart hline hcurrent
            (itemParagraphs_isParagraph ?_ (by simp) fun _ l hl => ?_)
          · rw [List.nil_append, ← hnext]
            refine hfree.of_subset (List.Subset.trans (List.dropWhile_suffix _).subset ?_)
            exact List.Subset.trans (List.subset_cons_self first rest) (List.subset_append_right _ _)
          · have hnot := List.head?_dropWhile_not isBlankLine rest
            rw [hnext, Option.mem_def.1 hl] at hnot
            simpa using hnot
        · rw [itemParagraphs_gap_stop hblank fun next more hnext =>
            Bool.eq_false_iff.2 fun hon => hgap ⟨next, more, hnext, hon⟩]
          exact hlast

theorem isRead_listItems {text : String} {lines : List String} (hfree : NewlineFree (text :: lines))
    (htext : Text.IsTrimmed text.toList) : ∀ item ∈ (listItems text lines).1, item.IsRead := by
  fun_induction listItems text lines with
  | case1 text lines item after hmore =>
    rintro i hi
    rw [List.mem_singleton.1 hi]
    exact isRead_itemParagraphs (by simpa using hfree) htext (by simp)
  | case2 text lines item after next more hmore nextText hnext items rest hrest ih =>
    have hafter : next :: more ⊆ lines := by
      rw [← hmore]
      exact ((List.dropWhile_suffix _).trans (itemParagraphs_suffix [text] lines)).subset
    have hkind := isKindOf_ofLine next
    rw [hnext] at hkind
    have hfreeNext : NewlineFree (nextText :: more) := by
      intro l hl
      rcases List.mem_cons.1 hl with rfl | hl
      · exact fun hmem => hfree next (by simp [hafter List.mem_cons_self]) (hkind.2.subset hmem)
      · exact hfree l (by simp [hafter (List.mem_cons_of_mem _ hl)])
    rw [hrest] at ih
    rintro i hi
    rcases List.mem_cons.1 hi with rfl | hi
    · exact isRead_itemParagraphs (by simpa using hfree) htext (by simp)
    · exact ih hfreeNext hkind.1 i hi
  | case3 text lines item after next more hmore hnext =>
    rintro i hi
    rw [List.mem_singleton.1 hi]
    exact isRead_itemParagraphs (by simpa using hfree) htext (by simp)

theorem listItems_ne_nil (text : String) (lines : List String) : (listItems text lines).1 ≠ [] := by
  fun_induction listItems text lines with
  | case1 => exact List.cons_ne_nil _ _
  | case2 => exact List.cons_ne_nil _ _
  | case3 => exact List.cons_ne_nil _ _

theorem isItemLine_behind_listItems {text next : String} {lines more : List String}
    (h : (listItems text lines).2.dropWhile isBlankLine = next :: more) : isItemLine next = false := by
  fun_induction listItems text lines with
  | case1 text lines item after hmore =>
    rw [hmore] at h
    cases h
  | case2 text lines item after next' more' hmore nextText hnext items rest hrest ih =>
    rw [hrest] at ih
    exact ih h
  | case3 text lines item after next' more' hmore hnext =>
    rw [hmore] at h
    cases h
    rw [← Bool.not_eq_true, isItemLine_iff]
    rintro ⟨nextText, he⟩
    exact hnext nextText he

theorem isList_of_head?_parseBlocks {lines : List String} {block : Block}
    (h : (parseBlocks lines).head? = some block) (hlist : block.isList = true) :
    ∃ next more, lines.dropWhile isBlankLine = next :: more ∧ isItemLine next = true := by
  rw [← parseBlocks_dropWhile] at h
  have hnot := List.head?_dropWhile_not isBlankLine lines
  cases hlines : lines.dropWhile isBlankLine with
  | nil =>
    rw [hlines, parseBlocks_nil] at h
    cases h
  | cons next more =>
    rw [hlines] at h hnot
    refine ⟨next, more, rfl, isItemLine_iff.2 ?_⟩
    cases hnext : ofLine next with
    | blank =>
      have hnot : isBlankLine next = false := hnot
      rw [isBlankLine_iff.2 hnext] at hnot
      cases hnot
    | heading depth text =>
      rw [parseBlocks_heading hnext, List.head?_cons] at h
      cases h
      cases hlist
    | fence marker language =>
      rw [parseBlocks_fence hnext, List.head?_cons] at h
      cases h
      cases hlist
    | item text => exact ⟨text, rfl⟩
    | plain =>
      rw [parseBlocks_plain hnext, List.head?_cons] at h
      cases h
      cases hlist

theorem afterFence_suffix (marker : List Char) (lines : List String) :
    afterFence marker lines <:+ lines :=
  (List.drop_suffix 1 _).trans (List.dropWhile_suffix _)

theorem AreRead.cons {block : Block} {blocks : List Block} (h : AreRead blocks)
    (hblock : block.IsRead)
    (hnext : ∀ next ∈ blocks.head?, block.isList = true → next.isList = false) :
    AreRead (block :: blocks) :=
  ⟨List.forall_mem_cons.2 ⟨hblock, h.each⟩, List.isChain_cons.2 ⟨hnext, h.apart⟩⟩

theorem areRead_parseBlocks {lines : List String} (hfree : NewlineFree lines) :
    AreRead (parseBlocks lines) := by
  fun_induction parseBlocks lines with
  | case1 => exact ⟨by simp, List.isChain_nil⟩
  | case2 line rest hline ih => exact ih (hfree.of_subset (List.subset_cons_self line rest))
  | case3 line rest marker language hline ih =>
    have hkind := isKindOf_ofLine line
    rw [hline] at hkind
    refine (ih (hfree.of_subset ?_)).cons hkind (by simp [Block.isList])
    exact List.Subset.trans (afterFence_suffix marker rest).subset (List.subset_cons_self line rest)
  | case4 line rest depth text hline ih =>
    have hkind := isKindOf_ofLine line
    rw [hline] at hkind
    have hnewline : '\n' ∉ text.toList :=
      fun hmem => hfree line List.mem_cons_self (hkind.2.2.2.subset hmem)
    exact (ih (hfree.of_subset (List.subset_cons_self line rest))).cons
      ⟨hkind.1, hkind.2.1, hkind.2.2.1, hnewline⟩ (by simp [Block.isList])
  | case5 line rest text hline ih =>
    have hkind := isKindOf_ofLine line
    rw [hline] at hkind
    have hrest := hfree.of_subset (List.subset_cons_self line rest)
    have hitems : NewlineFree (text :: rest) := by
      intro l hl
      rcases List.mem_cons.1 hl with rfl | hl
      · exact fun hmem => hfree line List.mem_cons_self (hkind.2.subset hmem)
      · exact hrest l hl
    refine (ih (hrest.of_subset (listItems_suffix text rest).subset)).cons
      ⟨listItems_ne_nil text rest, isRead_listItems hitems hkind.1⟩ fun next hnext _ => ?_
    rw [← Bool.not_eq_true]
    intro hlist
    obtain ⟨first, more, hmore, hitem⟩ := isList_of_head?_parseBlocks hnext hlist
    rw [isItemLine_behind_listItems hmore] at hitem
    cases hitem
  | case6 line rest hline ih =>
    have hrest := hfree.of_subset (List.subset_cons_self line rest)
    refine (ih (hrest.of_subset (List.dropWhile_suffix _).subset)).cons ?_ (by simp [Block.isList])
    refine isParagraph_joinLines (by simp) ?_ ?_
    · intro l hl
      obtain ⟨l', hl', rfl⟩ := List.mem_map.1 hl
      refine newline_not_mem_trimBlanks (hfree l' ?_)
      rcases List.mem_cons.1 hl' with rfl | hl'
      · exact List.mem_cons_self
      · exact List.mem_cons_of_mem _ ((List.takeWhile_sublist _).subset hl')
    · intro l hl
      obtain ⟨l', hl', rfl⟩ := List.mem_map.1 hl
      refine isTextLine_trimBlanks ?_
      rcases List.mem_cons.1 hl' with rfl | hl'
      · exact isPlainLine_iff.2 hline
      · exact List.mem_takeWhile_imp hl'

end NativeCatalogue
