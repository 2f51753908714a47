import NativeCatalogue.Proofs.Text.Pieces

set_option autoImplicit false

namespace NativeCatalogue.Text

def IsWord (cs : List Char) : Prop :=
  cs ≠ [] ∧ ∀ c ∈ cs, isBlank c = false

instance (cs : List Char) : Decidable (IsWord cs) :=
  decidable_of_iff (cs ≠ [] ∧ cs.all (!isBlank ·) = true) (by simp [IsWord])

theorem free_of_mem_cutAt {p : Char → Bool} {cs piece : List Char} (h : piece ∈ cutAt p cs) :
    ∀ c ∈ piece, p c = false := by
  induction cs generalizing piece with
  | nil =>
    rw [List.mem_singleton.1 h]
    exact fun c hc => absurd hc List.not_mem_nil
  | cons c cs ih =>
    cases hc : p c with
    | true =>
      rw [cutAt, if_pos hc] at h
      rcases List.mem_cons.1 h with rfl | h
      · exact fun c hc => absurd hc List.not_mem_nil
      · exact ih h
    | false =>
      obtain ⟨first, pieces, hcut, hcons⟩ := cutAt_cons_of_neg cs hc
      rw [hcut] at ih
      rw [hcons] at h
      rcases List.mem_cons.1 h with rfl | h
      · exact List.forall_mem_cons.2 ⟨hc, ih List.mem_cons_self⟩
      · exact ih (List.mem_cons_of_mem first h)

theorem isWord_of_mem_words {cs word : List Char} (h : word ∈ words cs) : IsWord word := by
  obtain ⟨hpiece, hne⟩ := List.mem_filter.1 h
  exact ⟨of_decide_eq_true hne, free_of_mem_cutAt hpiece⟩

theorem words_of_isWord {word : List Char} (h : IsWord word) : words word = [word] := by
  rw [words, cutAt_of_free h.2, List.filter_cons_of_pos (by simpa using h.1), List.filter_nil]

theorem words_append_space {word : List Char} (h : IsWord word) (cs : List Char) :
    words (word ++ ' ' :: cs) = word :: words cs := by
  rw [words, cutAt_append_cons h.2 rfl, List.filter_cons_of_pos (by simpa using h.1), words]

theorem words_join {ws : List (List Char)} (h : ∀ word ∈ ws, IsWord word) :
    words (join [' '] ws) = ws := by
  induction ws with
  | nil => rfl
  | cons word ws ih =>
    obtain ⟨hword, hws⟩ := List.forall_mem_cons.1 h
    cases ws with
    | nil => exact words_of_isWord hword
    | cons next ws =>
      rw [join_cons (List.cons_ne_nil next ws), List.append_assoc, List.singleton_append,
        words_append_space hword, ih hws]

theorem intercalate_space (pieces : List (List Char)) :
    " ".intercalate (pieces.map String.ofList) = .ofList (join [' '] pieces) := by
  induction pieces with
  | nil => rfl
  | cons piece pieces ih =>
    cases pieces with
    | nil => exact String.intercalate_singleton
    | cons next pieces =>
      rw [List.map_cons, List.map_cons, String.intercalate_cons_cons, ← List.map_cons, ih,
        join_cons (List.cons_ne_nil _ _), String.ofList_append, String.ofList_append]

theorem words_intercalate {ws : List String} (h : ∀ word ∈ ws, IsWord word.toList) :
    words (" ".intercalate ws).toList = ws.map String.toList := by
  have hpieces : ws = (ws.map String.toList).map String.ofList := by simp
  rw [hpieces, intercalate_space, String.toList_ofList, ← hpieces]
  refine words_join fun cs hcs => ?_
  obtain ⟨word, hword, rfl⟩ := List.mem_map.1 hcs
  exact h word hword

theorem words_eq_nil {cs : List Char} : words cs = [] ↔ ∀ c ∈ cs, isBlank c = true := by
  induction cs with
  | nil => exact ⟨fun _ c hc => absurd hc List.not_mem_nil, fun _ => rfl⟩
  | cons c cs ih =>
    rw [List.forall_mem_cons, ← ih, words]
    cases hc : isBlank c with
    | true =>
      rw [cutAt, if_pos hc, List.filter_cons_of_neg (by simp), words]
      exact ⟨fun h => ⟨rfl, h⟩, fun h => h.2⟩
    | false =>
      obtain ⟨piece, pieces, -, hcons⟩ := cutAt_cons_of_neg cs hc
      rw [hcons, List.filter_cons_of_pos (by simp)]
      exact ⟨fun h => absurd h (List.cons_ne_nil _ _), fun h => by cases h.1⟩

theorem collapse_eq_nil {cs : List Char} : collapse cs = [] ↔ ∀ c ∈ cs, isBlank c = true := by
  rw [← words_eq_nil, collapse]
  cases hwords : words cs with
  | nil => exact ⟨fun _ => rfl, fun _ => rfl⟩
  | cons word ws =>
    have hword := (isWord_of_mem_words (hwords ▸ List.mem_cons_self)).1
    refine ⟨fun h => absurd h ?_, fun h => absurd h (List.cons_ne_nil word ws)⟩
    cases ws with
    | nil => exact hword
    | cons next ws =>
      rw [join_cons (List.cons_ne_nil next ws), List.append_assoc]
      exact List.append_ne_nil_of_left_ne_nil hword _

theorem collapse_collapse (cs : List Char) : collapse (collapse cs) = collapse cs := by
  unfold collapse
  rw [words_join fun _ => isWord_of_mem_words]

end NativeCatalogue.Text
