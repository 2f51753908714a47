import NativeCatalogue.Proofs.Text.Character
import NativeCatalogue.Proofs.Text.Pieces
import NativeCatalogue.Text.Word

/-!
Runs of digits. The gaps of a text hold no digits, and what stands between them are its runs; there is one
way to part a text into gaps and runs that are as long as can be, and the runs that are read are those.
-/

set_option autoImplicit false

namespace NativeCatalogue.Text

theorem digitRuns_cons {c : Char} (h : isDecimalDigit c = false) (cs : List Char) :
    digitRuns (c :: cs) = digitRuns cs := by
  rw [digitRuns, cutAt, if_pos (by rw [h]; rfl), List.filter_cons_of_neg (by simp)]
  rfl

theorem digitRuns_gap {gap : List Char} (h : ∀ c ∈ gap, isDecimalDigit c = false)
    (cs : List Char) : digitRuns (gap ++ cs) = digitRuns cs := by
  induction gap with
  | nil => rfl
  | cons c gap ih =>
    rw [List.cons_append, digitRuns_cons (h c (by simp)), ih fun d hd => h d (List.mem_cons_of_mem c hd)]

theorem digitRuns_run {run : List Char} (hrun : ∀ c ∈ run, isDecimalDigit c = true)
    (hne : run ≠ []) {c : Char} (hc : isDecimalDigit c = false) (cs : List Char) :
    digitRuns (run ++ c :: cs) = run :: digitRuns cs := by
  rw [digitRuns, cutAt_append_cons (fun d hd => by rw [hrun d hd]; rfl) (by rw [hc]; rfl),
    List.filter_cons_of_pos (by simpa using hne)]
  rfl

theorem digitRuns_lastRun {run : List Char} (hrun : ∀ c ∈ run, isDecimalDigit c = true)
    (hne : run ≠ []) : digitRuns run = [run] := by
  rw [digitRuns, cutAt_of_free (fun d hd => by rw [hrun d hd]; rfl),
    List.filter_cons_of_pos (by simpa using hne)]
  rfl

theorem isDecimalDigit_of_isDigit {c : Char} (h : c.isDigit = true) : isDecimalDigit c = true := by
  have hrange := isDigit_iff.1 h
  rw [isDecimalDigit, if_pos (by omega)]
  exact h

/-- The runs of decimal digits in a text, in order. Behind a run stands something else or nothing, so that
    each is as long as it can be. -/
inductive AreDigitRuns : List Char → List (List Char) → Prop
  | gap {gap : List Char} (hgap : ∀ c ∈ gap, isDecimalDigit c = false) : AreDigitRuns gap []
  | run {gap run rest : List Char} {runs : List (List Char)}
      (hgap : ∀ c ∈ gap, isDecimalDigit c = false) (hrun : ∀ c ∈ run, isDecimalDigit c = true)
      (hne : run ≠ []) (hend : ∀ c ∈ rest.head?, isDecimalDigit c = false)
      (hrest : AreDigitRuns rest runs) : AreDigitRuns (gap ++ (run ++ rest)) (run :: runs)

variable {cs : List Char} {runs : List (List Char)}

theorem AreDigitRuns.eq_digitRuns (h : AreDigitRuns cs runs) : runs = digitRuns cs := by
  induction h with
  | @gap gap hgap =>
    have h := digitRuns_gap hgap []
    rw [List.append_nil] at h
    exact h.symm
  | @run gap run rest runs hgap hrun hne hend hrest ih =>
    rw [digitRuns_gap hgap, ih]
    cases rest with
    | nil =>
      rw [List.append_nil, digitRuns_lastRun hrun hne]
      rfl
    | cons c rest => rw [digitRuns_run hrun hne (hend c rfl), digitRuns_cons (hend c rfl)]

/-- A character in front of a text goes to the first gap, or to the first run, or is a run of its own. -/
theorem AreDigitRuns.exists_cons (h : AreDigitRuns cs runs) (c : Char) :
    ∃ runs, AreDigitRuns (c :: cs) runs := by
  cases hc : isDecimalDigit c with
  | false =>
    cases h with
    | gap hgap => exact ⟨[], .gap (List.forall_mem_cons.2 ⟨hc, hgap⟩)⟩
    | run hgap hrun hne hend hrest =>
      exact ⟨_, .run (List.forall_mem_cons.2 ⟨hc, hgap⟩) hrun hne hend hrest⟩
  | true =>
    have own : (∀ d ∈ cs.head?, isDecimalDigit d = false) → AreDigitRuns (c :: cs) ([c] :: runs) :=
      fun hend => @AreDigitRuns.run [] [c] cs runs nofun (List.forall_mem_singleton.2 hc)
        (List.cons_ne_nil c []) hend h
    cases h with
    | gap hgap => exact ⟨_, own fun d hd => hgap d (List.mem_of_mem_head? hd)⟩
    | @run gap run rest runs hgap hrun hne hend hrest =>
      cases gap with
      | nil =>
        exact ⟨_, @AreDigitRuns.run [] (c :: run) rest runs nofun (List.forall_mem_cons.2 ⟨hc, hrun⟩)
          (List.cons_ne_nil c run) hend hrest⟩
      | cons d gap => exact ⟨_, own fun e he => hgap e (List.mem_of_mem_head? he)⟩

theorem areDigitRuns_digitRuns (cs : List Char) : AreDigitRuns cs (digitRuns cs) := by
  have hruns : ∃ runs, AreDigitRuns cs runs := by
    induction cs with
    | nil => exact ⟨[], .gap nofun⟩
    | cons c cs ih =>
      obtain ⟨runs, h⟩ := ih
      exact h.exists_cons c
  obtain ⟨runs, h⟩ := hruns
  exact h.eq_digitRuns ▸ h

end NativeCatalogue.Text
