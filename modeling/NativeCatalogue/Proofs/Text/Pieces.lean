import NativeCatalogue.Proofs.Basic
import NativeCatalogue.Text.Basic

set_option autoImplicit false

namespace NativeCatalogue.Text

theorem cutAt_ne_nil (p : Char → Bool) (cs : List Char) : cutAt p cs ≠ [] := by
  induction cs with
  | nil => exact List.cons_ne_nil _ _
  | cons c cs ih =>
    rw [cutAt]
    split
    · exact List.cons_ne_nil _ _
    · split <;> exact List.cons_ne_nil _ _

theorem cutAt_cons_of_neg {p : Char → Bool} {c : Char} (cs : List Char) (h : p c = false) :
    ∃ piece pieces, cutAt p cs = piece :: pieces ∧ cutAt p (c :: cs) = (c :: piece) :: pieces := by
  cases hcut : cutAt p cs with
  | nil => exact absurd hcut (cutAt_ne_nil p cs)
  | cons piece pieces =>
    refine ⟨piece, pieces, rfl, ?_⟩
    rw [cutAt, if_neg (by rw [h]; exact Bool.false_ne_true), hcut]

theorem cutAt_append_cons {p : Char → Bool} {cs rest : List Char} {c : Char}
    (h : ∀ d ∈ cs, p d = false) (hc : p c = true) :
    cutAt p (cs ++ c :: rest) = cs :: cutAt p rest := by
  induction cs with
  | nil => rw [List.nil_append, cutAt, if_pos hc]
  | cons d cs ih =>
    obtain ⟨piece, pieces, hcut, hcons⟩ := cutAt_cons_of_neg (cs ++ c :: rest) (h d (by simp))
    rw [ih fun e he => h e (List.mem_cons_of_mem d he)] at hcut
    cases hcut
    exact hcons

theorem cutAt_append {p : Char → Bool} {c : Char} (hc : p c = true) (as bs : List Char) :
    cutAt p (as ++ c :: bs) = cutAt p as ++ cutAt p bs := by
  induction as with
  | nil => exact if_pos hc
  | cons a as ih =>
    cases ha : p a with
    | true =>
      rw [List.cons_append, cutAt, if_pos ha, cutAt, if_pos ha, ih, List.cons_append]
    | false =>
      obtain ⟨piece, pieces, hcut, hcons⟩ := cutAt_cons_of_neg as ha
      obtain ⟨piece', pieces', hcut', hcons'⟩ := cutAt_cons_of_neg (as ++ c :: bs) ha
      rw [ih, hcut, List.cons_append] at hcut'
      obtain ⟨rfl, rfl⟩ := List.cons.inj hcut'
      rw [List.cons_append, hcons', hcons, List.cons_append]

theorem cutAt_of_free {p : Char → Bool} {cs : List Char} (h : ∀ c ∈ cs, p c = false) :
    cutAt p cs = [cs] := by
  induction cs with
  | nil => rfl
  | cons c cs ih =>
    obtain ⟨piece, pieces, hcut, hcons⟩ := cutAt_cons_of_neg cs (h c List.mem_cons_self)
    rw [ih fun d hd => h d (List.mem_cons_of_mem c hd)] at hcut
    obtain ⟨rfl, rfl⟩ := List.cons.inj hcut
    exact hcons

theorem join_cons {separator piece : List Char} {pieces : List (List Char)} (h : pieces ≠ []) :
    join separator (piece :: pieces) = piece ++ separator ++ join separator pieces := by
  cases pieces with
  | nil => exact absurd rfl h
  | cons next pieces => rfl

theorem join_cutAt (c : Char) (cs : List Char) : join [c] (cutAt (· = c) cs) = cs := by
  induction cs with
  | nil => rfl
  | cons d cs ih =>
    by_cases h : d = c
    · rw [cutAt, if_pos (by simp [h]), join_cons (cutAt_ne_nil _ cs), ih, h]
      rfl
    · obtain ⟨piece, pieces, hcut, hcons⟩ :=
        cutAt_cons_of_neg (p := (· = c)) (c := d) cs (by simp [h])
      rw [hcut] at ih
      rw [hcons, ← ih]
      cases pieces <;> rfl

end NativeCatalogue.Text
