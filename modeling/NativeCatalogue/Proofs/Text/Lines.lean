import NativeCatalogue.Text.Basic

set_option autoImplicit false

namespace NativeCatalogue.Text

structure IsLine (line : List Char) : Prop where
  newline : '\n' ∉ line
  carriage : line.getLast? ≠ some '\r'

theorem rows_append {line : List Char} (h : '\n' ∉ line) (rest : List Char) :
    rows (line ++ '\n' :: rest) = (line ++ ['\n']) :: rows rest := by
  induction line with
  | nil => rw [List.nil_append, rows, if_pos rfl]; rfl
  | cons c line ih =>
    rw [List.mem_cons, not_or] at h
    rw [List.cons_append, rows, if_neg fun he => h.1 he.symm, ih h.2]
    rfl

theorem stripLineEnd_concat {line : List Char} (h : IsLine line) :
    stripLineEnd (line ++ ['\n']) = line := by
  induction line with
  | nil => rfl
  | cons c line ih =>
    obtain ⟨hnewline, hcarriage⟩ := h
    rw [List.mem_cons, not_or] at hnewline
    cases line with
    | nil =>
      have hc : c ≠ '\r' := fun he => hcarriage (by rw [he]; rfl)
      rw [List.cons_append, stripLineEnd]
      · rfl
      · exact fun he => absurd he.symm hnewline.1
      · exact fun he => absurd he hc
    | cons d line =>
      have hrest : IsLine (d :: line) := ⟨hnewline.2, by rwa [List.getLast?_cons_cons] at hcarriage⟩
      rw [List.cons_append, stripLineEnd, ih hrest]
      · exact fun he => absurd he.symm hnewline.1
      · exact fun _ he => absurd (List.cons.inj he).2 (by simp)

theorem linesOf_flatMap {lines : List (List Char)} (h : ∀ line ∈ lines, IsLine line) :
    linesOf (lines.flatMap (· ++ ['\n'])) = lines := by
  induction lines with
  | nil => rfl
  | cons line lines ih =>
    have hline := h line (by simp)
    rw [List.flatMap_cons, List.append_assoc, List.singleton_append, linesOf,
      rows_append hline.newline, List.map_cons, stripLineEnd_concat hline]
    exact congrArg _ (ih fun l hl => h l (List.mem_cons_of_mem line hl))

theorem rows_shape {cs row : List Char} (h : row ∈ rows cs) :
    ∃ line, '\n' ∉ line ∧ (row = line ∨ row = line ++ ['\n']) := by
  induction cs generalizing row with
  | nil => cases h
  | cons c cs ih =>
    rw [rows] at h
    split at h
    · rcases List.mem_cons.1 h with rfl | h
      · exact ⟨[], by simp, .inr rfl⟩
      · exact ih h
    · rename_i hc
      have hc : '\n' ≠ c := fun he => hc he.symm
      split at h
      · rw [List.mem_singleton.1 h]
        exact ⟨[c], by simpa using hc, .inl rfl⟩
      · rename_i first others hrows
        rw [hrows] at ih
        rcases List.mem_cons.1 h with rfl | h
        · obtain ⟨line, hline, hfirst⟩ := ih (List.mem_cons_self)
          refine ⟨c :: line, by simp [hc, hline], ?_⟩
          rcases hfirst with rfl | rfl
          · exact .inl rfl
          · exact .inr rfl
        · exact ih (List.mem_cons_of_mem _ h)

theorem mem_stripLineEnd {cs : List Char} {c : Char} (h : c ∈ stripLineEnd cs) : c ∈ cs := by
  fun_induction stripLineEnd cs with
  | case1 => exact h
  | case2 => cases h
  | case3 => cases h
  | case4 d rest _ _ ih =>
    rcases List.mem_cons.1 h with rfl | h
    · exact List.mem_cons_self
    · exact List.mem_cons_of_mem d (ih h)

theorem newline_not_mem_stripLineEnd {line : List Char} (h : '\n' ∉ line) :
    '\n' ∉ stripLineEnd (line ++ ['\n']) := by
  induction line with
  | nil => simp [stripLineEnd]
  | cons c line ih =>
    rw [List.mem_cons, not_or] at h
    intro hmem
    unfold stripLineEnd at hmem
    split at hmem
    · cases hmem
    · cases hmem
    · cases hmem
    · rename_i d rest _ _ he
      rw [List.cons_append] at he
      obtain ⟨rfl, rfl⟩ := List.cons.inj he
      rcases List.mem_cons.1 hmem with hd | hmem
      · exact h.1 hd
      · exact ih h.2 hmem

theorem newline_not_mem_of_mem_linesOf {cs line : List Char} (h : line ∈ linesOf cs) :
    '\n' ∉ line := by
  obtain ⟨row, hrow, rfl⟩ := List.mem_map.1 h
  obtain ⟨line, hline, hshape⟩ := rows_shape hrow
  rcases hshape with rfl | rfl
  · exact fun hmem => hline (mem_stripLineEnd hmem)
  · exact newline_not_mem_stripLineEnd hline

end NativeCatalogue.Text
