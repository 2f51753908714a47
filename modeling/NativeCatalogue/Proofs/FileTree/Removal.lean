import NativeCatalogue.Proofs.FileTree.Join
import NativeCatalogue.Proofs.FileTree.Write

set_option autoImplicit false

namespace NativeCatalogue.FileTree

mutual

def without (removed : List Path) (path : Path) : FileTree → Option FileTree
  | .file bytes modified => if removed.contains path then none else some (.file bytes modified)
  | .directory entries => some (.directory (entriesWithout removed path entries))

def entriesWithout (removed : List Path) (directory : Path) :
    List (String × FileTree) → List (String × FileTree)
  | [] => []
  | (name, node) :: rest =>
    match node.without removed (directory.join name) with
    | some left => (name, left) :: entriesWithout removed directory rest
    | none => entriesWithout removed directory rest

end

def removeUnder (t : FileTree) (root : Path) (removed : List Path) : FileTree :=
  match t.resolve root.steps with
  | .ok (.inside names) =>
    match t.at? names with
    | some (.directory entries) => t.setAt (.directory (entriesWithout removed root entries)) names
    | _ => t
  | _ => t

def KeepsDirectories (t u : FileTree) : Prop :=
  ∀ names entries, t.at? names = some (.directory entries) →
    ∃ others, u.at? names = some (.directory others)

theorem keepsDirectories_setEntry {name : String} {child : FileTree}
    {entries : List (String × FileTree)}
    (h : ∀ before, entries.lookup name = some before → KeepsDirectories before child) :
    KeepsDirectories (.directory entries) (.directory (setEntry name child entries)) := by
  intro names inner hat
  cases names with
  | nil => exact ⟨_, rfl⟩
  | cons first rest =>
    obtain ⟨before, hbefore, hrest⟩ := Option.bind_eq_some_iff.1 hat
    by_cases he : first = name
    · rw [he] at hbefore
      rw [at?, he, lookup_setEntry_self]
      exact h before hbefore rest inner hrest
    · rw [at?, lookup_setEntry_of_ne he, hbefore]
      exact ⟨inner, hrest⟩

theorem keepsDirectories_setAt {t before node : FileTree} {names : List String}
    (hat : t.at? names = some before) (h : KeepsDirectories before node) :
    KeepsDirectories t (t.setAt node names) ∧ (t.setAt node names).at? names = some node := by
  induction names generalizing t with
  | nil =>
    cases hat
    exact ⟨h, rfl⟩
  | cons name rest ih =>
    cases t with
    | file bytes modified => cases hat
    | directory entries =>
      obtain ⟨child, hchild, hrest⟩ := Option.bind_eq_some_iff.1 hat
      obtain ⟨hkeeps, hthere⟩ := ih hrest
      rw [setAt, hchild, Option.getD_some]
      refine ⟨keepsDirectories_setEntry fun other hother => ?_, ?_⟩
      · rw [hchild] at hother
        cases hother
        exact hkeeps
      · rw [at?, lookup_setEntry_self]
        exact hthere

namespace KeepsDirectories

variable {t u : FileTree}

theorem nodeAt (h : KeepsDirectories t u) {place : Place} {entries : List (String × FileTree)}
    (hat : t.nodeAt? place = some (.directory entries)) :
    ∃ others, u.nodeAt? place = some (.directory others) := by
  cases place with
  | outside => exact ⟨[], rfl⟩
  | inside names => exact h names entries hat

theorem step (h : KeepsDirectories t u) {place next : Place} {s : PathStep}
    (hstep : t.step place s = .ok next) (hnext : (u.nodeAt? next).isSome = true) :
    u.step place s = .ok next := by
  unfold FileTree.step at hstep ⊢
  split at hstep
  · rename_i entries hat
    obtain ⟨others, hothers⟩ := h.nodeAt hat
    rw [hothers]
    cases s with
    | name name =>
      simp only [Place.entry] at hstep ⊢
      split at hstep
      · cases hstep
      · rename_i hlong
        rw [if_neg hlong]
        split at hstep
        · rename_i names node hlookup
          cases hstep
          have hthere : ((u.at? (names ++ [name])).isSome) = true := hnext
          have hnode : u.at? names = some (.directory others) := hothers
          rw [at?_append, hnode, Option.bind_some, at?] at hthere
          cases hleft : others.lookup name with
          | none => rw [hleft] at hthere; cases hthere
          | some left => rfl
        · cases hstep
    | _ => exact hstep
  · cases hstep

theorem foldlM (h : KeepsDirectories t u) {steps : List PathStep} {place final : Place}
    (hsteps : steps.foldlM t.step place = .ok final) (hfinal : (u.nodeAt? final).isSome = true) :
    steps.foldlM u.step place = .ok final := by
  induction steps generalizing place with
  | nil => exact hsteps
  | cons s steps ih =>
    rw [List.foldlM_cons] at hsteps ⊢
    obtain ⟨next, hstep, hrest⟩ := bind_eq_ok.1 hsteps
    refine bind_eq_ok.2 ⟨next, h.step hstep ?_, ih hrest⟩
    -- What a further step starts from is a directory.
    cases steps with
    | nil =>
      cases hrest
      exact hfinal
    | cons s' steps =>
      rw [List.foldlM_cons] at hrest
      obtain ⟨after, hafter, -⟩ := bind_eq_ok.1 hrest
      unfold FileTree.step at hafter
      split at hafter
      · rename_i entries hat
        obtain ⟨others, hothers⟩ := h.nodeAt hat
        rw [hothers]
        rfl
      · cases hafter

end KeepsDirectories

theorem find_eq_ok {t node : FileTree} {p : Path} : t.find p = .ok node ↔
    checkPath p = .ok () ∧ ∃ place, t.resolve p.steps = .ok place ∧ t.nodeAt? place = some node := by
  unfold find
  constructor
  · intro h
    obtain ⟨⟨⟩, hcheck, h⟩ := bind_eq_ok.1 h
    obtain ⟨place, hresolve, h⟩ := bind_eq_ok.1 h
    split at h
    · rename_i found hnode
      cases h
      exact ⟨hcheck, place, hresolve, hnode⟩
    · cases h
  · rintro ⟨hcheck, place, hresolve, hnode⟩
    simp only [hcheck, hresolve, hnode, bind, Except.bind]

theorem KeepsDirectories.find {t u node left : FileTree} (h : KeepsDirectories t u) {p : Path}
    {place : Place} (hfind : t.find p = .ok node) (hresolve : t.resolve p.steps = .ok place)
    (hleft : u.nodeAt? place = some left) : u.find p = .ok left := by
  obtain ⟨hcheck, -⟩ := find_eq_ok.1 hfind
  exact find_eq_ok.2 ⟨hcheck, place, h.foldlM hresolve (by rw [hleft]; rfl), hleft⟩

theorem list_eq_ok {t : FileTree} {p : Path} {entries : List (String × FileTree)} :
    t.list p = .ok entries ↔ t.find p = .ok (.directory entries) := by
  unfold list
  cases t.find p with
  | error e => exact ⟨nofun, nofun⟩
  | ok node =>
    cases node with
    | file bytes modified => exact ⟨nofun, nofun⟩
    | directory others => exact ⟨fun h => by cases h; rfl, fun h => by cases h; rfl⟩

section Without

variable (removed : List Path)

theorem lookup_entriesWithout {directory : Path} {name : String} {node left : FileTree}
    {entries : List (String × FileTree)} (h : entries.lookup name = some node)
    (hleft : node.without removed (directory.join name) = some left) :
    (entriesWithout removed directory entries).lookup name = some left := by
  induction entries with
  | nil => cases h
  | cons e entries ih =>
    obtain ⟨first, firstNode⟩ := e
    rw [List.lookup_cons] at h
    rw [entriesWithout]
    by_cases he : name = first
    · rw [he, beq_self_eq_true] at h
      cases h
      rw [← he, hleft]
      exact List.lookup_cons_self
    · rw [beq_false_of_ne he] at h
      split
      · rw [List.lookup_cons, beq_false_of_ne he]
        exact ih h
      · exact ih h

theorem keepsDirectories_entriesWithout (directory : Path) (entries : List (String × FileTree)) :
    KeepsDirectories (.directory entries) (.directory (entriesWithout removed directory entries)) := by
  intro names inner hat
  induction names generalizing directory entries with
  | nil => exact ⟨_, rfl⟩
  | cons name rest ih =>
    obtain ⟨node, hnode, hrest⟩ := Option.bind_eq_some_iff.1 hat
    cases node with
    | file bytes modified => exact absurd hrest (by cases rest <;> exact nofun)
    | directory others =>
      obtain ⟨left, hleft⟩ := ih (directory.join name) others hrest
      refine ⟨left, ?_⟩
      rw [at?, lookup_entriesWithout removed hnode rfl]
      exact hleft

theorem file_entriesWithout {directory : Path} {entries : List (String × FileTree)} {row : List String}
    {bytes : ByteArray} {modified : Calendar.Instant}
    (hat : (FileTree.directory entries).at? row = some (.file bytes modified))
    (hkept : row.foldl Path.join directory ∉ removed) :
    (FileTree.directory (entriesWithout removed directory entries)).at? row =
      some (.file bytes modified) := by
  induction row generalizing directory entries with
  | nil => cases hat
  | cons name rest ih =>
    obtain ⟨node, hnode, hrest⟩ := Option.bind_eq_some_iff.1 hat
    cases node with
    | directory others =>
      rw [at?, lookup_entriesWithout removed hnode rfl]
      exact ih hrest hkept
    | file bytes' modified' =>
      cases rest with
      | cons next rest => cases hrest
      | nil =>
        cases hrest
        have hkept : directory.join name ∉ removed := hkept
        have hleft : (FileTree.file bytes modified).without removed (directory.join name) =
            some (.file bytes modified) := by
          rw [without, if_neg fun hmem => hkept (List.contains_iff_mem.1 hmem)]
        rw [at?, lookup_entriesWithout removed hnode hleft]
        rfl

end Without

theorem haveStepNames_of_at? {t : FileTree} {names : List String} {entries : List (String × FileTree)}
    (h : t.hasStepNames = true) (hat : t.at? names = some (.directory entries)) :
    haveStepNames entries = true := by
  induction names generalizing t with
  | nil =>
    cases hat
    rwa [hasStepNames] at h
  | cons name rest ih =>
    cases t with
    | file bytes modified => cases hat
    | directory outer =>
      obtain ⟨child, hchild, hrest⟩ := Option.bind_eq_some_iff.1 hat
      refine ih ?_ hrest
      rw [hasStepNames] at h
      clear hat
      induction outer with
      | nil => cases hchild
      | cons e outer ihOuter =>
        rw [haveStepNames, Bool.and_eq_true, Bool.and_eq_true] at h
        rw [List.lookup_cons] at hchild
        split at hchild
        · cases hchild
          exact h.1.2
        · exact ihOuter h.2 hchild

theorem removeUnder_spec {t : FileTree} {root : Path} {entries : List (String × FileTree)}
    (hlist : t.list root = .ok entries) (removed : List Path) :
    (t.removeUnder root removed).list root = .ok (entriesWithout removed root entries) ∧
      ∀ row : List String, (∀ name ∈ row, isStepName name = true) →
        row.foldl Path.join root ∉ removed →
        ∀ bytes modified, t.find (row.foldl Path.join root) = .ok (.file bytes modified) →
          (t.removeUnder root removed).find (row.foldl Path.join root) =
            .ok (.file bytes modified) := by
  rw [list_eq_ok] at hlist
  obtain ⟨hcheck, place, hresolve, hnode⟩ := find_eq_ok.1 hlist
  cases place with
  | outside =>
    have hsame : t.removeUnder root removed = t := by
      rw [removeUnder, hresolve]
    cases hnode
    rw [hsame, list_eq_ok]
    exact ⟨hlist, fun _ _ _ _ _ hfind => hfind⟩
  | inside names =>
    have hat : t.at? names = some (.directory entries) := hnode
    have hremoved : t.removeUnder root removed =
        t.setAt (.directory (entriesWithout removed root entries)) names := by
      simp only [removeUnder, hresolve, hat]
    obtain ⟨hkeeps, hthere⟩ :=
      keepsDirectories_setAt hat (keepsDirectories_entriesWithout removed root entries)
    rw [hremoved]
    refine ⟨list_eq_ok.2 (hkeeps.find hlist hresolve hthere), fun row hrow hkept bytes modified hfind => ?_⟩
    obtain ⟨-, target, htarget, hfile⟩ := find_eq_ok.1 hfind
    have hroot : root.text ≠ "" := by
      intro hempty
      simp [checkPath, hempty] at hcheck
    have hplace := place_of_joined hroot hresolve hrow htarget
    subst hplace
    have hrest : (FileTree.directory entries).at? row = some (.file bytes modified) := by
      have hwhole : t.at? (names ++ row) = some (.file bytes modified) := hfile
      rwa [at?_append, hat, Option.bind_some] at hwhole
    refine hkeeps.find hfind htarget ?_
    change (t.setAt _ names).at? (names ++ row) = _
    rw [at?_append, hthere, Option.bind_some]
    exact file_entriesWithout removed hrest hkept

end NativeCatalogue.FileTree
