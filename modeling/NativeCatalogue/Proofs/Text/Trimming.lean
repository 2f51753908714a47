import Mathlib.Data.List.DropRight
import NativeCatalogue.Text.Basic

set_option autoImplicit false

namespace NativeCatalogue.Text

structure IsTrimmed (cs : List Char) : Prop where
  head : ∀ c ∈ cs.head?, isBlank c = false
  last : ∀ c ∈ cs.getLast?, isBlank c = false

variable {cs : List Char}

theorem trimStart_of_head (h : ∀ c ∈ cs.head?, isBlank c = false) : trimStart cs = cs := by
  cases cs with
  | nil => rfl
  | cons c cs => exact List.dropWhile_cons_of_neg (by simp [h c rfl])

theorem trimEnd_of_last (h : ∀ c ∈ cs.getLast?, isBlank c = false) : trimEnd cs = cs := by
  refine List.rdropWhile_eq_self_iff.2 fun hne => ?_
  rw [h _ (List.getLast?_eq_some_getLast hne)]
  exact Bool.false_ne_true

theorem IsTrimmed.trim_eq (h : IsTrimmed cs) : trim cs = cs := by
  rw [trim, trimStart_of_head h.head, trimEnd_of_last h.last]

theorem trimEnd_append (as : List Char) {bs : List Char} (h : bs.all isBlank = false) :
    trimEnd (as ++ bs) = as ++ trimEnd bs := by
  have hne : ¬ (bs.reverse.dropWhile isBlank).isEmpty = true := by
    rw [List.isEmpty_iff, List.dropWhile_eq_nil_iff]
    intro hall
    rw [List.all_eq_true.2 fun c hc => hall c (List.mem_reverse.2 hc)] at h
    cases h
  rw [trimEnd, List.reverse_append, List.dropWhile_append, if_neg hne, List.reverse_append,
    List.reverse_reverse]
  rfl

theorem trimEnd_append_blanks (as : List Char) {bs : List Char} (h : bs.all isBlank = true) :
    trimEnd (as ++ bs) = trimEnd as := by
  rw [trimEnd, List.reverse_append, List.dropWhile_append_of_pos]
  · rfl
  · exact fun c hc => List.all_eq_true.1 h c (List.mem_reverse.1 hc)

theorem trim_trimEnd (h : cs.all isBlank = false) : trim (trimEnd cs) = trim cs := by
  have hsplit : trimEnd cs ++ cs.rtakeWhile isBlank = cs := List.rdropWhile_append_rtakeWhile
  have hblank : (cs.rtakeWhile isBlank).all isBlank = true :=
    List.all_eq_true.2 fun c hc => List.mem_rtakeWhile_imp hc
  have hne : ¬ ((trimEnd cs).dropWhile isBlank).isEmpty = true := by
    rw [List.isEmpty_iff, List.dropWhile_eq_nil_iff]
    intro hall
    rw [← hsplit, List.all_append, hblank, List.all_eq_true.2 hall] at h
    cases h
  calc
    trim (trimEnd cs) = trimEnd ((trimEnd cs).dropWhile isBlank ++ cs.rtakeWhile isBlank) :=
      (trimEnd_append_blanks _ hblank).symm
    _ = trimEnd ((trimEnd cs ++ cs.rtakeWhile isBlank).dropWhile isBlank) := by
      rw [List.dropWhile_append, if_neg hne]
    _ = trim cs := by
      rw [hsplit]
      rfl

theorem trimEnd_isPrefix (cs : List Char) : trimEnd cs <+: cs :=
  List.rdropWhile_prefix isBlank cs

/-- A text without a blank at its end is left of just the texts that have blanks behind it. -/
theorem trimEnd_eq_iff {text : List Char} (h : ∀ c ∈ text.getLast?, isBlank c = false) :
    trimEnd cs = text ↔ ∃ blanks : List Char, blanks.all isBlank = true ∧ cs = text ++ blanks := by
  constructor
  · rintro rfl
    exact ⟨cs.rtakeWhile isBlank, List.all_eq_true.2 fun c hc => List.mem_rtakeWhile_imp hc,
      List.rdropWhile_append_rtakeWhile.symm⟩
  · rintro ⟨blanks, hblanks, rfl⟩
    rw [trimEnd_append_blanks text hblanks, trimEnd_of_last h]

theorem trim_sublist (cs : List Char) : (trim cs).Sublist cs :=
  (trimEnd_isPrefix _).sublist.trans (List.dropWhile_sublist isBlank)

theorem isTrimmed_trim (cs : List Char) : IsTrimmed (trim cs) := by
  constructor
  · intro c hc
    have hstart := List.head?_dropWhile_not isBlank cs
    obtain ⟨more, hmore⟩ := List.head?_eq_some_iff.1 hc
    obtain ⟨rest, hrest⟩ := trimEnd_isPrefix (trimStart cs)
    rw [← trim, hmore] at hrest
    rw [trimStart] at hrest
    rw [← hrest] at hstart
    simpa using hstart
  · intro c hc
    have hne : trim cs ≠ [] := by
      intro he
      rw [he] at hc
      cases hc
    have hlast := List.rdropWhile_last_not isBlank _ hne
    rw [List.getLast?_eq_some_getLast hne, Option.mem_some_iff] at hc
    rw [← hc]
    exact Bool.eq_false_iff.2 hlast

theorem trim_eq_nil_iff : trim cs = [] ↔ cs.all isBlank = true := by
  have hstart : trim cs = [] ↔ trimStart cs = [] := by
    constructor
    · intro h
      have hall := List.rdropWhile_eq_nil_iff.1 h
      cases hcs : trimStart cs with
      | nil => rfl
      | cons c more =>
        have hc := List.head?_dropWhile_not isBlank cs
        rw [← trimStart, hcs] at hc
        have := hall c (by rw [hcs]; exact List.mem_cons_self)
        simp_all
    · intro h
      rw [trim, h]
      rfl
  rw [hstart, trimStart, List.dropWhile_eq_nil_iff, List.all_eq_true]

end NativeCatalogue.Text
