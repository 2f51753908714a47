import NativeCatalogue.Document.Basic
import NativeCatalogue.Proofs.Text.Pieces
import NativeCatalogue.Proofs.Text.Trimming

set_option autoImplicit false

namespace NativeCatalogue.Document

def IsLineOf (text line : String) : Prop :=
  ∃ blanks : List Char, blanks.all Text.isBlank = true ∧ line.toList = text.toList ++ blanks

def IsClosing (line : String) : Prop :=
  IsLineOf "---" line ∨ IsLineOf "..." line

def HasFences (lines : List String) : Prop :=
  ∃ opening rest, lines = opening :: rest ∧ IsLineOf "---" opening ∧ ∃ line ∈ rest, IsClosing line

/-- The lines are a fence that opens front matter, the lines inside, the next fence that ends it, and the
    body. -/
structure Fenced (lines : List String) (opening : String) (inside : List String) (closing : String)
    (body : List String) : Prop where
  lines_eq : lines = opening :: (inside ++ closing :: body)
  opens : IsLineOf "---" opening
  closes : IsClosing closing
  inside_open : ∀ line ∈ inside, ¬ IsClosing line

theorem trimEnd_eq_fence_iff {c : Char} (h : Text.isBlank c = false) {line : String} :
    Text.trimEnd line.toList = [c, c, c] ↔ IsLineOf (.ofList [c, c, c]) line := by
  rw [IsLineOf, String.toList_ofList]
  refine Text.trimEnd_eq_iff fun d hd => ?_
  cases hd
  exact h

theorem opensFrontMatter_iff {line : String} : opensFrontMatter line = true ↔ IsLineOf "---" line := by
  rw [opensFrontMatter, decide_eq_true_eq]
  exact trimEnd_eq_fence_iff rfl

theorem closesFrontMatter_iff {line : String} : closesFrontMatter line = true ↔ IsClosing line := by
  rw [closesFrontMatter, Bool.or_eq_true, decide_eq_true_eq, decide_eq_true_eq]
  exact or_congr (trimEnd_eq_fence_iff rfl) (trimEnd_eq_fence_iff rfl)

section Parts

variable {lines inside body : List String} {opening closing : String}

theorem HasFences.exists_fenced (h : HasFences lines) :
    ∃ opening inside closing body, Fenced lines opening inside closing body := by
  obtain ⟨opening, rest, rfl, hopening, line, hmem, hline⟩ := h
  have hfound : (rest.find? closesFrontMatter).isSome = true :=
    List.find?_isSome.2 ⟨line, hmem, closesFrontMatter_iff.2 hline⟩
  obtain ⟨closing, hclosing⟩ := Option.isSome_iff_exists.1 hfound
  obtain ⟨hcloses, inside, body, rfl, hinside⟩ := List.find?_eq_some_iff_append.1 hclosing
  refine ⟨opening, inside, closing, body, rfl, hopening, closesFrontMatter_iff.1 hcloses, fun line hline => ?_⟩
  rw [← closesFrontMatter_iff, Bool.not_eq_true, ← Bool.not_eq_true']
  exact hinside line hline

theorem Fenced.splitFrontMatter_eq (h : Fenced lines opening inside closing body) :
    splitFrontMatter lines = (some (joinLines inside), inside.length + 2) := by
  have hcloses := closesFrontMatter_iff.2 h.closes
  have hinside : (inside ++ closing :: body).takeWhile (!closesFrontMatter ·) = inside := by
    refine (List.takeWhile_append_of_head (List.all_eq_true.2 fun line hline => ?_) ?_).1
    · rw [Bool.not_eq_true', ← Bool.not_eq_true, closesFrontMatter_iff]
      exact h.inside_open line hline
    · rintro _ ⟨⟩
      rw [hcloses]
      rfl
  have hany : (inside ++ closing :: body).any closesFrontMatter = true :=
    List.any_eq_true.2 ⟨closing, List.mem_append_right _ List.mem_cons_self, hcloses⟩
  rw [h.lines_eq, splitFrontMatter, opensFrontMatter_iff.2 h.opens, hany, Bool.and_self, if_pos rfl, hinside]

theorem splitFrontMatter_of_not_hasFences (h : ¬ HasFences lines) : splitFrontMatter lines = (none, 0) := by
  cases lines with
  | nil => rfl
  | cons first rest =>
    refine if_neg fun hfences => h ?_
    rw [Bool.and_eq_true, opensFrontMatter_iff, List.any_eq_true] at hfences
    obtain ⟨hfirst, line, hmem, hline⟩ := hfences
    exact ⟨first, rest, rfl, hfirst, line, hmem, closesFrontMatter_iff.1 hline⟩

theorem Fenced.drop_eq (h : Fenced lines opening inside closing body) :
    lines.drop (inside.length + 2) = body := by
  rw [h.lines_eq, List.drop_succ_cons, ← List.drop_drop]
  simp

theorem Fenced.getElem?_closing (h : Fenced lines opening inside closing body) :
    lines[inside.length + 1]? = some closing := by
  rw [h.lines_eq, List.getElem?_cons_succ, List.getElem?_append_right (Nat.le_refl _), Nat.sub_self]
  rfl

theorem Fenced.length_eq (h : Fenced lines opening inside closing body) :
    lines.length = inside.length + 2 + body.length := by
  rw [h.lines_eq, List.length_cons, List.length_append, List.length_cons]
  omega

end Parts

/-- Where a fence is missing, and only there, no front matter is cut off and all lines are body. Elsewhere
    the lines are the opening fence, the front matter, the fence that ends it and the body, and what is cut
    off ends with that fence. -/
theorem splitFrontMatter_parts (lines : List String) :
    (splitFrontMatter lines = (none, 0) ↔ ¬ HasFences lines) ∧
    (¬ HasFences lines ∧ ofLines lines = ⟨none, parseBlocks lines⟩ ∨
      ∃ opening inside closing body, Fenced lines opening inside closing body ∧
        splitFrontMatter lines = (some (joinLines inside), inside.length + 2) ∧
        inside.length + 2 ≤ lines.length ∧ lines[inside.length + 1]? = some closing ∧
        lines.drop (inside.length + 2) = body ∧
        ofLines lines = ⟨some (joinLines inside), parseBlocks body⟩) := by
  by_cases hfences : HasFences lines
  · obtain ⟨opening, inside, closing, body, h⟩ := hfences.exists_fenced
    have hsplit := h.splitFrontMatter_eq
    have hlength := h.length_eq
    refine ⟨iff_of_false (by rw [hsplit]; simp) (not_not_intro hfences), .inr ?_⟩
    refine ⟨opening, inside, closing, body, h, hsplit, by omega, h.getElem?_closing, h.drop_eq, ?_⟩
    rw [ofLines, hsplit]
    exact congrArg (fun body => Document.mk _ (parseBlocks body)) h.drop_eq
  · have hsplit := splitFrontMatter_of_not_hasFences hfences
    refine ⟨iff_of_true hsplit hfences, .inl ⟨hfences, ?_⟩⟩
    rw [ofLines, hsplit]
    rfl

-- Front matter without lines, which the last line of the document ends.
example : splitFrontMatter ["--- ", "..."] = (some "", 2) := by decide

end NativeCatalogue.Document
