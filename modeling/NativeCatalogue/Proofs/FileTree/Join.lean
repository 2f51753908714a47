import Mathlib.Data.List.Induction
import NativeCatalogue.Compilation.Documents
import NativeCatalogue.Proofs.Text.Pieces
import NativeCatalogue.Prototype.Parser

set_option autoImplicit false

namespace NativeCatalogue

def isStepName (name : String) : Bool :=
  !name.toList.contains '/' && name ≠ "" && name ≠ "." && name ≠ ".."

namespace FileTree

mutual

def hasStepNames : FileTree → Bool
  | .file .. => true
  | .directory entries => haveStepNames entries

def haveStepNames : List (String × FileTree) → Bool
  | [] => true
  | (name, node) :: rest => isStepName name && node.hasStepNames && haveStepNames rest

end

end FileTree

namespace PathStep

def ofPieces : List (List Char) → List PathStep
  | [] :: rest => .root :: rest.map ofPiece
  | pieces => pieces.map ofPiece

theorem ofPieces_concat {pieces : List (List Char)} (h : pieces ≠ []) (piece : List Char) :
    ofPieces (pieces ++ [piece]) = ofPieces pieces ++ [ofPiece piece] := by
  cases pieces with
  | nil => exact absurd rfl h
  | cons first rest => cases first <;> simp [ofPieces]

theorem ofPieces_ne_nil {pieces : List (List Char)} (h : pieces ≠ []) : ofPieces pieces ≠ [] := by
  cases pieces with
  | nil => exact absurd rfl h
  | cons first rest => cases first <;> exact List.cons_ne_nil _ _

theorem ofPiece_name {name : String} (h : isStepName name = true) :
    ofPiece name.toList = .name name := by
  simp only [isStepName, Bool.and_eq_true, decide_eq_true_eq] at h
  obtain ⟨⟨⟨-, hempty⟩, hcurrent⟩, hparent⟩ := h
  have hne : ∀ s : String, name ≠ s → name.toList ≠ s.toList := fun s hs he =>
    hs (String.toList_injective he)
  have h0 : name.toList ≠ [] := hne "" hempty
  have h1 : name.toList ≠ ['.'] := hne "." hcurrent
  have h2 : name.toList ≠ ['.', '.'] := hne ".." hparent
  rw [ofPiece, if_neg (by simp [h0, h1]), if_neg h2, String.ofList_toList]

end PathStep

namespace Path

theorem steps_eq {p : Path} (h : p.text ≠ "") : p.steps = PathStep.ofPieces p.pieces := by
  rw [steps, if_neg h]
  cases p.pieces with
  | nil => rfl
  | cons first rest => cases first <;> rfl

theorem text_join_ne (p : Path) (name : String) (h : p.text ≠ "") : (p.join name).text ≠ "" := by
  have hlist : p.text.toList ≠ [] := fun he => h (String.toList_injective he)
  intro he
  have hjoin : (p.join name).text.toList = [] := by rw [he]; rfl
  unfold join at hjoin
  split at hjoin <;> simp [hlist] at hjoin

theorem pieces_join (p : Path) {name : String} (h : isStepName name = true) :
    ∃ pieces, pieces ≠ [] ∧ (p.join name).pieces = pieces ++ [name.toList] ∧
      (p.pieces = pieces ∨ p.pieces = pieces ++ [[]]) := by
  have hfree : ∀ c ∈ name.toList, decide (c = '/') = false := by
    simp only [isStepName, Bool.and_eq_true, Bool.not_eq_true'] at h
    intro c hc
    refine decide_eq_false fun he => ?_
    rw [he] at hc
    rw [List.contains_iff_mem.2 hc] at h
    cases h.1.1.1
  unfold join
  split
  · rename_i hslash
    obtain ⟨init, hinit⟩ := List.getLast?_eq_some_iff.1 hslash
    refine ⟨Text.cutAt (· = '/') init, Text.cutAt_ne_nil _ _, ?_, .inr ?_⟩
    · rw [pieces, String.toList_append, hinit, List.append_assoc, List.singleton_append,
        Text.cutAt_append (decide_eq_true rfl), Text.cutAt_of_free hfree]
    · rw [pieces, hinit, Text.cutAt_append (decide_eq_true rfl)]
      rfl
  · refine ⟨p.pieces, Text.cutAt_ne_nil _ _, ?_, .inl rfl⟩
    rw [pieces, String.toList_append, String.toList_append, List.append_assoc]
    change Text.cutAt _ (p.text.toList ++ '/' :: name.toList) = _
    rw [Text.cutAt_append (decide_eq_true rfl), Text.cutAt_of_free hfree]
    rfl

theorem steps_join {p : Path} (hp : p.text ≠ "") {name : String} (h : isStepName name = true) :
    ∃ steps, steps ≠ [] ∧ (p.join name).steps = steps ++ [.name name] ∧
      (p.steps = steps ∨ p.steps = steps ++ [.current]) := by
  obtain ⟨pieces, hne, hjoin, hpieces⟩ := p.pieces_join h
  refine ⟨PathStep.ofPieces pieces, PathStep.ofPieces_ne_nil hne, ?_, ?_⟩
  · rw [steps_eq (p.text_join_ne name hp), hjoin, PathStep.ofPieces_concat hne,
      PathStep.ofPiece_name h]
  · rcases hpieces with hsame | hslash
    · exact .inl (by rw [steps_eq hp, hsame])
    · exact .inr (by rw [steps_eq hp, hslash, PathStep.ofPieces_concat hne]; rfl)

theorem components_eq {p : Path} {first : PathStep} {rest : List PathStep}
    (h : p.steps = first :: rest) : p.components = first :: rest.filter (!·.isCurrent) := by
  rw [components, h]

theorem components_join {p : Path} (hp : p.text ≠ "") {name : String} (h : isStepName name = true) :
    (p.join name).components = p.components ++ [.name name] := by
  obtain ⟨steps, hne, hjoin, hsteps⟩ := steps_join hp h
  obtain ⟨first, rest, rfl⟩ := List.exists_cons_of_ne_nil hne
  rw [List.cons_append] at hjoin hsteps
  have hcomponents : p.components = first :: rest.filter (!·.isCurrent) := by
    rcases hsteps with hsame | hslash
    · exact components_eq hsame
    · rw [components_eq hslash, List.filter_append]
      exact congrArg (first :: ·) (List.append_nil _)
  rw [components_eq hjoin, hcomponents, List.filter_append]
  rfl

theorem fileName?_join {p : Path} (hp : p.text ≠ "") {name : String} (h : isStepName name = true) :
    (p.join name).fileName? = some name := by
  rw [fileName?, components_join hp h, List.getLast?_concat]
  rfl

end Path

namespace FileTree

theorem step_current_name (t : FileTree) (place : Place) (name : String) :
    (t.step place .current >>= fun next => t.step next (.name name)) =
      t.step place (.name name) := by
  cases hnode : t.nodeAt? place with
  | none => simp [step, hnode, bind, Except.bind]
  | some node =>
    cases node with
    | file bytes modified => simp [step, hnode, bind, Except.bind]
    | directory entries => simp [step, hnode, bind, Except.bind]

theorem resolve_join (t : FileTree) {p : Path} (hp : p.text ≠ "") {name : String}
    (h : isStepName name = true) :
    t.resolve (p.join name).steps = t.resolve p.steps >>= fun place => t.step place (.name name) := by
  obtain ⟨steps, -, hjoin, hsteps⟩ := Path.steps_join hp h
  rw [hjoin, resolve, List.foldlM_append]
  simp only [List.foldlM_cons, List.foldlM_nil, bind_pure]
  rcases hsteps with hsame | hslash
  · rw [hsame]
    rfl
  · rw [hslash, resolve, List.foldlM_append, bind_assoc]
    simp only [List.foldlM_cons, List.foldlM_nil, bind_pure, step_current_name]

theorem step_name_eq_ok {t : FileTree} {names : List String} {name : String} {place : Place}
    (h : t.step (.inside names) (.name name) = .ok place) : place = .inside (names ++ [name]) := by
  unfold step at h
  split at h
  · simp only [Place.entry] at h
    split at h
    · cases h
    · split at h
      · rename_i others _ hplace _
        cases hplace
        cases h
        rfl
      · cases h
  · cases h

/-- Names that are joined to a path one after the other lead on from where the path leads. -/
theorem place_of_joined {t : FileTree} {root : Path} (hroot : root.text ≠ "") {names : List String}
    (hresolve : t.resolve root.steps = .ok (.inside names)) {row : List String}
    (hrow : ∀ name ∈ row, isStepName name = true) {place : Place}
    (h : t.resolve (row.foldl Path.join root).steps = .ok place) : place = .inside (names ++ row) := by
  induction row using List.reverseRecOn generalizing place with
  | nil =>
    rw [List.foldl_nil, hresolve] at h
    cases h
    rw [List.append_nil]
  | append_singleton row name ih =>
    have htext : ∀ row : List String, (row.foldl Path.join root).text ≠ "" := by
      intro row
      induction row using List.reverseRecOn with
      | nil => exact hroot
      | append_singleton row name ih =>
        rw [List.foldl_append]
        exact Path.text_join_ne _ name ih
    rw [List.foldl_append, List.foldl_cons, List.foldl_nil,
      t.resolve_join (htext row) (hrow name (by simp))] at h
    obtain ⟨before, hbefore, hstep⟩ := bind_eq_ok.1 h
    rw [ih (fun other hother => hrow other (List.mem_append_left _ hother)) hbefore] at hstep
    rw [step_name_eq_ok hstep, List.append_assoc]

end FileTree

end NativeCatalogue
