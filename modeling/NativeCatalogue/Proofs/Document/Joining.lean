import NativeCatalogue.Proofs.Document.Views
import NativeCatalogue.Proofs.Text.Lines
import NativeCatalogue.Proofs.Text.Pieces
import NativeCatalogue.Proofs.Text.Trimming

set_option autoImplicit false

namespace NativeCatalogue

def NewlineFree (lines : List String) : Prop :=
  ∀ line ∈ lines, '\n' ∉ line.toList

namespace NewlineFree

variable {lines more : List String}

theorem of_subset (h : NewlineFree lines) (hsub : more ⊆ lines) : NewlineFree more :=
  fun line hline => h line (hsub hline)

theorem append (h : NewlineFree lines) (hmore : NewlineFree more) : NewlineFree (lines ++ more) :=
  fun line hline => (List.mem_append.1 hline).elim (h line) (hmore line)

end NewlineFree

theorem paragraphLines_ne_nil (text : String) : paragraphLines text ≠ [] := by
  rw [paragraphLines, ne_eq, List.map_eq_nil_iff]
  exact Text.cutAt_ne_nil _ _

theorem paragraphLines_newline (a b : String) :
    paragraphLines (a ++ "\n" ++ b) = paragraphLines a ++ paragraphLines b := by
  have hchars : (a ++ "\n" ++ b).toList = a.toList ++ '\n' :: b.toList := by
    rw [String.toList_append, String.toList_append, List.append_assoc]
    rfl
  rw [paragraphLines, hchars, Text.cutAt_append (decide_eq_true rfl), List.map_append]
  rfl

theorem paragraphLines_of_free {line : String} (h : '\n' ∉ line.toList) :
    paragraphLines line = [line] := by
  rw [paragraphLines, Text.cutAt_of_free, List.map_singleton, String.ofList_toList]
  intro c hc
  refine decide_eq_false fun he => h ?_
  rwa [he] at hc

theorem newline_not_mem_of_mem_cutAt {cs piece : List Char}
    (h : piece ∈ Text.cutAt (· = '\n') cs) : '\n' ∉ piece := by
  induction cs generalizing piece with
  | nil =>
    rw [List.mem_singleton.1 h]
    exact List.not_mem_nil
  | cons c cs ih =>
    by_cases hc : c = '\n'
    · rw [Text.cutAt, if_pos (decide_eq_true hc)] at h
      rcases List.mem_cons.1 h with rfl | h
      · exact List.not_mem_nil
      · exact ih h
    · obtain ⟨first, others, hcut, hcons⟩ :=
        Text.cutAt_cons_of_neg (p := (· = '\n')) cs (decide_eq_false hc)
      rw [hcons] at h
      rw [hcut] at ih
      rcases List.mem_cons.1 h with rfl | h
      · intro hmem
        rcases List.mem_cons.1 hmem with he | hmem
        · exact hc he.symm
        · exact ih List.mem_cons_self hmem
      · exact ih (List.mem_cons_of_mem _ h)

theorem newlineFree_paragraphLines (text : String) : NewlineFree (paragraphLines text) := by
  intro line h
  obtain ⟨piece, hpiece, rfl⟩ := List.mem_map.1 h
  rw [String.toList_ofList]
  exact newline_not_mem_of_mem_cutAt hpiece

theorem joinLines_cons {lines : List String} (h : lines ≠ []) (line : String) :
    joinLines (line :: lines) = line ++ "\n" ++ joinLines lines :=
  String.intercalate_cons_of_ne_nil h

theorem paragraphLines_flatMap {texts : List String} (hne : texts ≠ []) :
    paragraphLines (joinLines texts) = texts.flatMap paragraphLines := by
  induction texts with
  | nil => exact absurd rfl hne
  | cons text texts ih =>
    by_cases htexts : texts = []
    · rw [htexts, joinLines, String.intercalate_singleton, List.flatMap_singleton]
    · rw [joinLines_cons htexts, paragraphLines_newline, ih htexts, List.flatMap_cons]

theorem paragraphLines_joinLines {lines : List String} (hne : lines ≠ []) (h : NewlineFree lines) :
    paragraphLines (joinLines lines) = lines := by
  rw [paragraphLines_flatMap hne]
  exact (List.flatMap_congr fun line hline => paragraphLines_of_free (h line hline)).trans
    (List.flatMap_singleton' lines)

theorem toList_joinLines (lines : List String) :
    (joinLines lines).toList = Text.join ['\n'] (lines.map String.toList) := by
  induction lines with
  | nil => rfl
  | cons line lines ih =>
    by_cases hlines : lines = []
    · rw [hlines, joinLines, String.intercalate_singleton]
      rfl
    · rw [joinLines_cons hlines, List.map_cons, Text.join_cons (by simpa using hlines), ← ih,
        String.toList_append, String.toList_append]
      rfl

theorem joinLines_paragraphLines (text : String) : joinLines (paragraphLines text) = text := by
  have hmap : (paragraphLines text).map String.toList = Text.cutAt (· = '\n') text.toList := by
    rw [paragraphLines, List.map_map]
    exact List.map_eq_self_iff.2 fun piece _ => String.toList_ofList
  apply String.toList_inj.1
  rw [toList_joinLines, hmap, Text.join_cutAt]

theorem paragraphLines_eq_singleton_iff {text : String} :
    paragraphLines text = [""] ↔ text = "" := by
  constructor
  · intro h
    rw [← joinLines_paragraphLines text, h]
    rfl
  · rintro rfl
    rfl

theorem paragraphLines_mark {mark text line : String} {lines : List String}
    (hmark : '\n' ∉ mark.toList) (h : paragraphLines text = line :: lines) :
    paragraphLines (mark ++ text) = (mark ++ line) :: lines := by
  have hfree : NewlineFree (line :: lines) := by
    rw [← h]
    exact newlineFree_paragraphLines text
  have hfirst : '\n' ∉ (mark ++ line).toList := by
    rw [String.toList_append, List.mem_append, not_or]
    exact ⟨hmark, hfree line List.mem_cons_self⟩
  rw [← joinLines_paragraphLines text, h]
  by_cases hlines : lines = []
  · rw [hlines, joinLines, String.intercalate_singleton, paragraphLines_of_free hfirst]
  · rw [joinLines_cons hlines, ← String.append_assoc, ← String.append_assoc, paragraphLines_newline,
      paragraphLines_of_free hfirst,
      paragraphLines_joinLines hlines (hfree.of_subset (List.subset_cons_self line lines))]
    rfl

theorem joinLines_eq_iff {lines : List String} (hne : lines ≠ []) (h : NewlineFree lines)
    (text : String) : joinLines lines = text ↔ lines = paragraphLines text := by
  constructor
  · rintro rfl
    exact (paragraphLines_joinLines hne h).symm
  · rintro rfl
    exact joinLines_paragraphLines text

def endedLine (line : String) : String :=
  .ofList (Text.stripLineEnd (line.toList ++ ['\n']))

theorem endedLine_of_isLine {line : String} (h : Text.IsLine line.toList) : endedLine line = line := by
  rw [endedLine, Text.stripLineEnd_concat h, String.ofList_toList]

theorem stripLineEnd_concat_carriage {line : List Char} (h : '\n' ∉ line) :
    Text.stripLineEnd (line ++ ['\r', '\n']) = line := by
  induction line with
  | nil => rfl
  | cons c line ih =>
    rw [List.mem_cons, not_or] at h
    rw [List.cons_append, Text.stripLineEnd, ih h.2]
    · exact fun hc => absurd hc.symm h.1
    · intro hc hline
      cases line <;> simp at hline

theorem endedLine_eq_self_iff {line : String} (h : '\n' ∉ line.toList) :
    endedLine line = line ↔ line.toList.getLast? ≠ some '\r' := by
  constructor
  · intro he hlast
    obtain ⟨start, hstart⟩ := List.getLast?_eq_some_iff.1 hlast
    have hfree : '\n' ∉ start := fun hmem => h (by rw [hstart]; exact List.mem_append_left _ hmem)
    have hshort : endedLine line = .ofList start := by
      rw [endedLine, hstart, List.append_assoc, List.singleton_append,
        stripLineEnd_concat_carriage hfree]
    have hlength := congrArg (fun s => s.toList.length) (hshort.symm.trans he)
    simp [hstart] at hlength
  · exact fun hlast => endedLine_of_isLine ⟨h, hlast⟩

theorem rows_newline (as bs : List Char) :
    Text.rows (as ++ '\n' :: bs) =
      (Text.cutAt (· = '\n') as).map (· ++ ['\n']) ++ Text.rows bs := by
  induction as with
  | nil => rw [List.nil_append, Text.rows, if_pos rfl]; rfl
  | cons c as ih =>
    by_cases hc : c = '\n'
    · rw [List.cons_append, Text.rows, if_pos hc, ih, Text.cutAt, if_pos (decide_eq_true hc)]
      rfl
    · obtain ⟨first, others, hcut, hcons⟩ :=
        Text.cutAt_cons_of_neg (p := (· = '\n')) as (decide_eq_false hc)
      rw [List.cons_append, Text.rows, if_neg hc, ih, hcut, hcons]
      rfl

theorem lines_newline (a b : String) :
    Text.lines (a ++ "\n" ++ b) = (paragraphLines a).map endedLine ++ Text.lines b := by
  have hchars : (a ++ "\n" ++ b).toList = a.toList ++ '\n' :: b.toList := by
    rw [String.toList_append, String.toList_append, List.append_assoc]
    rfl
  rw [Text.lines, Text.linesOf, hchars, rows_newline, List.map_append, List.map_append,
    paragraphLines]
  refine congrArg₂ _ ?_ rfl
  rw [List.map_map, List.map_map, List.map_map]
  refine List.map_congr_left fun piece _ => ?_
  simp only [Function.comp_apply, endedLine, String.toList_ofList]

theorem stripLineEnd_of_free {line : List Char} (h : '\n' ∉ line) : Text.stripLineEnd line = line := by
  induction line with
  | nil => rfl
  | cons c line ih =>
    rw [List.mem_cons, not_or] at h
    rw [Text.stripLineEnd, ih h.2]
    · exact fun hc => absurd hc.symm h.1
    · intro _ hline
      rw [hline] at h
      exact h.2 List.mem_cons_self

theorem lines_of_free {line : String} (hne : line ≠ "") (h : '\n' ∉ line.toList) :
    Text.lines line = [line] := by
  have hrows : ∀ cs : List Char, cs ≠ [] → '\n' ∉ cs → Text.rows cs = [cs] := by
    intro cs
    induction cs with
    | nil => exact fun hne _ => absurd rfl hne
    | cons c cs ih =>
      intro _ hfree
      rw [List.mem_cons, not_or] at hfree
      rw [Text.rows, if_neg fun hc => hfree.1 hc.symm]
      cases cs with
      | nil => rfl
      | cons d cs => rw [ih (List.cons_ne_nil d cs) hfree.2]
  have hchars : line.toList ≠ [] := fun he => hne (String.toList_eq_nil_iff.1 he)
  rw [Text.lines, Text.linesOf, hrows _ hchars h, List.map_singleton, List.map_singleton,
    stripLineEnd_of_free h, String.ofList_toList]

/-- The last line of a text keeps all its characters. -/
theorem lines_joinLines {lines : List String} (h : NewlineFree lines)
    {last : String} (hlast : '\n' ∉ last.toList) (hne : last ≠ "") :
    Text.lines (joinLines (lines ++ [last])) = lines.map endedLine ++ [last] := by
  cases lines with
  | nil => exact lines_of_free hne hlast
  | cons line lines =>
    have hjoin : joinLines (line :: lines ++ [last]) = joinLines (line :: lines) ++ "\n" ++ last := by
      rw [joinLines, String.intercalate_append_of_ne_nil (List.cons_ne_nil _ _)
        (List.cons_ne_nil _ _), String.intercalate_singleton]
      rfl
    rw [hjoin, lines_newline, paragraphLines_joinLines (List.cons_ne_nil _ _) h,
      lines_of_free hne hlast]

end NativeCatalogue
