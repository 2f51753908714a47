import NativeCatalogue.Proofs.Hash.Spelling
import NativeCatalogue.Proofs.Text.Pieces

set_option autoImplicit false

namespace NativeCatalogue

theorem Hash.not_isBlank_of_isDigit {c : Char} (h : isDigit c = true) : Text.isBlank c = false := by
  obtain ⟨k, hk⟩ := Option.isSome_iff_exists.1 h
  have := digit?_eq_some hk
  exact Text.not_isBlank_of_visible (by omega)

namespace HashComment

/-- A literal behind blanks: all the hexadecimal digits there are behind `0x`, in either case, and what
    stands behind them. -/
def IsLiteral (cs digits rest : List Char) : Prop :=
  ∃ blanks x, cs = blanks ++ '0' :: x :: (digits ++ rest) ∧
    (blanks ≠ [] ∧ ∀ c ∈ blanks, Text.isBlank c = true) ∧ (x = 'x' ∨ x = 'X') ∧
    (digits ≠ [] ∧ ∀ c ∈ digits, Hash.isDigit c = true) ∧ ∀ c ∈ rest.head?, Hash.isDigit c = false

def Starts (cs digits rest : List Char) : Prop :=
  ∃ behind, cs = '/' :: '/' :: behind ∧ IsLiteral behind digits rest

/-- The digits of the first literal in the first hash comment of a text, and what stands behind them. -/
inductive First : List Char → List Char → List Char → Prop
  | here {cs digits rest : List Char} : Starts cs digits rest → First cs digits rest
  | behind {c : Char} {cs digits rest : List Char} : (∀ d r, ¬ Starts (c :: cs) d r) →
      First cs digits rest → First (c :: cs) digits rest

def ofLiteral (digits rest : List Char) : HashComment :=
  ⟨digits.take 16, (spacedLiteral? 8 (digits.drop 16 ++ rest)).map Prod.fst⟩

section Literal

variable {limit : Nat} {cs digits rest : List Char}

theorem literal?_of_digits {x : Char} (hlimit : 0 < limit) (hx : x = 'x' ∨ x = 'X') (hne : digits ≠ [])
    (hdigits : ∀ c ∈ digits, Hash.isDigit c = true)
    (hrest : ∀ c ∈ rest.head?, Hash.isDigit c = false) :
    literal? limit ('0' :: x :: (digits ++ rest)) =
      some (digits.take limit, digits.drop limit ++ rest) := by
  have htake := (List.takeWhile_append_of_head (List.all_eq_true.2 hdigits) hrest).1
  have hmark : (decide (x = 'x') || decide (x = 'X')) = true := by
    rw [Bool.or_eq_true, decide_eq_true_eq, decide_eq_true_eq]
    exact hx
  have hnonempty : digits.take limit ≠ [] := by
    rw [ne_eq, List.take_eq_nil_iff, not_or]
    exact ⟨by omega, hne⟩
  have hdrop : (digits ++ rest).drop (digits.take limit).length = digits.drop limit ++ rest := by
    calc
      _ = (digits.take limit ++ (digits.drop limit ++ rest)).drop (digits.take limit).length := by
        rw [← List.append_assoc, List.take_append_drop]
      _ = digits.drop limit ++ rest := List.drop_left
  rw [literal?, htake, if_pos (by rw [hmark, Bool.true_and]; exact decide_eq_true hnonempty), hdrop]

theorem spacedLiteral?_of_isLiteral (hlimit : 0 < limit) (h : IsLiteral cs digits rest) :
    spacedLiteral? limit cs = some (digits.take limit, digits.drop limit ++ rest) := by
  obtain ⟨blanks, x, rfl, ⟨hne, hblanks⟩, hx, ⟨hnonempty, hdigits⟩, hrest⟩ := h
  have hdrop : (blanks ++ '0' :: x :: (digits ++ rest)).dropWhile Text.isBlank =
      '0' :: x :: (digits ++ rest) := by
    refine (List.takeWhile_append_of_head (List.all_eq_true.2 hblanks) fun c hc => ?_).2
    cases hc
    decide
  obtain ⟨b, bs, rfl⟩ := List.exists_cons_of_ne_nil hne
  rw [spacedLiteral?, hdrop, literal?_of_digits hlimit hx hnonempty hdigits hrest, List.cons_append,
    List.head?_cons, Option.any_some, if_pos (hblanks b List.mem_cons_self)]

theorem exists_isLiteral {taken : List Char × List Char} (h : spacedLiteral? limit cs = some taken) :
    ∃ digits rest, IsLiteral cs digits rest := by
  unfold spacedLiteral? at h
  split at h
  · rename_i hhead
    unfold literal? at h
    split at h
    · rename_i x more hmore
      dsimp only at h
      split at h
      · rename_i hx
        simp only [Bool.and_eq_true, Bool.or_eq_true, decide_eq_true_eq] at hx
        refine ⟨more.takeWhile Hash.isDigit, more.dropWhile Hash.isDigit, cs.takeWhile Text.isBlank, x,
          ?_, ⟨?_, ?_⟩, hx.1, ⟨?_, ?_⟩, List.head?_dropWhile_eq_false⟩
        · rw [List.takeWhile_append_dropWhile, ← hmore, List.takeWhile_append_dropWhile]
        · cases cs with
          | nil => cases hhead
          | cons c cs =>
            have hblank : Text.isBlank c = true := hhead
            rw [List.takeWhile_cons_of_pos hblank]
            exact List.cons_ne_nil c _
        · exact List.all_eq_true.1 List.all_takeWhile
        · exact fun hnil => hx.2 (by rw [hnil, List.take_nil])
        · exact List.all_eq_true.1 List.all_takeWhile
      · cases h
    · cases h
  · cases h

theorem IsLiteral.isDigits_take (h : IsLiteral cs digits rest) (hlimit : 0 < limit) :
    IsDigits limit (digits.take limit) := by
  obtain ⟨-, -, -, -, -, ⟨hne, hdigits⟩, -⟩ := h
  exact {
    nonempty := fun hnil => (List.take_eq_nil_iff.1 hnil).elim (Nat.ne_of_gt hlimit) hne
    length := List.length_take_le limit digits
    digits := fun c hc => hdigits c (List.mem_of_mem_take hc) }

end Literal

section Comment

variable {cs digits rest : List Char}

theorem startOf?_of_starts (h : Starts cs digits rest) : startOf? cs = some (ofLiteral digits rest) := by
  obtain ⟨behind, rfl, hliteral⟩ := h
  rw [startOf?, spacedLiteral?_of_isLiteral (by decide) hliteral]
  rfl

theorem startOf?_eq_none_iff : startOf? cs = none ↔ ∀ digits rest, ¬ Starts cs digits rest := by
  constructor
  · intro h digits rest hstarts
    rw [startOf?_of_starts hstarts] at h
    cases h
  · intro h
    rw [← Option.not_isSome_iff_eq_none, Option.isSome_iff_exists]
    rintro ⟨comment, hcomment⟩
    unfold startOf? at hcomment
    split at hcomment
    · rename_i behind
      obtain ⟨taken, htaken, -⟩ := Option.bind_eq_some_iff.1 hcomment
      obtain ⟨digits, rest, hliteral⟩ := exists_isLiteral htaken
      exact h digits rest ⟨behind, rfl, hliteral⟩
    · cases hcomment

theorem find?_of_first (h : First cs digits rest) : find? cs = some (ofLiteral digits rest) := by
  induction h with
  | here h =>
    obtain ⟨behind, rfl, hliteral⟩ := h
    rw [find?, startOf?_of_starts ⟨behind, rfl, hliteral⟩, Option.some_or]
  | behind hnone _ ih => rw [find?, startOf?_eq_none_iff.2 hnone, Option.none_or, ih]

theorem exists_first {comment : HashComment} (h : find? cs = some comment) :
    ∃ digits rest, First cs digits rest := by
  induction cs with
  | nil => cases h
  | cons c cs ih =>
    by_cases hhere : ∃ digits rest, Starts (c :: cs) digits rest
    · obtain ⟨digits, rest, hhere⟩ := hhere
      exact ⟨digits, rest, .here hhere⟩
    · have hnone : ∀ d r, ¬ Starts (c :: cs) d r := fun d r hstarts => hhere ⟨d, r, hstarts⟩
      rw [find?, startOf?_eq_none_iff.2 hnone, Option.none_or] at h
      obtain ⟨digits, rest, hfirst⟩ := ih h
      exact ⟨digits, rest, .behind hnone hfirst⟩

theorem First.exists_isLiteral (h : First cs digits rest) : ∃ behind, IsLiteral behind digits rest := by
  induction h with
  | here h =>
    obtain ⟨behind, -, hliteral⟩ := h
    exact ⟨behind, hliteral⟩
  | behind _ _ ih => exact ih

/-- There is an older hash if all digits of the first literal are taken and another literal stands behind
    them. -/
theorem jhash_ofLiteral (h : IsLiteral cs digits rest) {taken : List Char} :
    (ofLiteral digits rest).jhash = some taken ↔
      digits.length ≤ 16 ∧ ∃ older after, IsLiteral rest older after ∧ taken = older.take 8 := by
  obtain ⟨-, -, -, -, -, ⟨-, hdigits⟩, -⟩ := h
  rw [ofLiteral]
  by_cases hlength : digits.length ≤ 16
  · rw [List.drop_of_length_le hlength, List.nil_append]
    constructor
    · intro h
      obtain ⟨read, hread, htaken⟩ := Option.map_eq_some_iff.1 h
      obtain ⟨older, after, holder⟩ := exists_isLiteral hread
      rw [spacedLiteral?_of_isLiteral (by decide) holder] at hread
      cases hread
      exact ⟨hlength, older, after, holder, htaken.symm⟩
    · rintro ⟨-, older, after, holder, rfl⟩
      rw [spacedLiteral?_of_isLiteral (by decide) holder]
      rfl
  · -- What is left starts with a digit, and no literal does without blanks.
    obtain ⟨d, more, hmore⟩ := List.exists_cons_of_ne_nil
      (mt List.drop_eq_nil_iff.1 hlength : digits.drop 16 ≠ [])
    have hd : Text.isBlank d = false := Hash.not_isBlank_of_isDigit
      (hdigits d (List.mem_of_mem_drop (hmore ▸ List.mem_cons_self)))
    refine iff_of_false ?_ fun h => hlength h.1
    rw [hmore, List.cons_append, spacedLiteral?, List.head?_cons, Option.any_some, hd,
      if_neg Bool.false_ne_true]
    exact nofun

theorem isDigits_of_find? {comment : HashComment} (h : find? cs = some comment) :
    IsDigits 16 comment.hash ∧ ∀ digits ∈ comment.jhash, IsDigits 8 digits := by
  obtain ⟨digits, rest, hfirst⟩ := exists_first h
  rw [find?_of_first hfirst] at h
  cases h
  obtain ⟨behind, hliteral⟩ := hfirst.exists_isLiteral
  refine ⟨hliteral.isDigits_take (by decide), fun taken htaken => ?_⟩
  obtain ⟨-, older, after, holder, rfl⟩ := (jhash_ofLiteral hliteral).1 htaken
  exact holder.isDigits_take (by decide)

theorem hashText_take_eq_iff {limit : Nat} :
    hashText (digits.take limit) = hashText digits ↔ digits.length ≤ limit := by
  refine ⟨fun h => ?_, fun h => by rw [List.take_of_length_le h]⟩
  have hlength := congrArg (fun hash => hash.toList.length) h
  simp only [hashText, String.toList_ofList, List.length_cons, List.length_take] at hlength
  omega

end Comment

end HashComment

end NativeCatalogue
