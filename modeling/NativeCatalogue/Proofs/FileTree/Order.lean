import Mathlib.Data.Option.Defs
import NativeCatalogue.FileTree.Basic
import NativeCatalogue.Proofs.FileTree.Removal

set_option autoImplicit false

namespace NativeCatalogue.FileTree

mutual

inductive SameTree : FileTree → FileTree → Prop
  | file (bytes : ByteArray) (modified : Calendar.Instant) :
    SameTree (.file bytes modified) (.file bytes modified)
  | directory {a b : List (String × FileTree)} :
    SameEntries a b → SameTree (.directory a) (.directory b)

inductive SameEntries : List (String × FileTree) → List (String × FileTree) → Prop
  | nil : SameEntries [] []
  | cons (name : String) {s t : FileTree} {a b : List (String × FileTree)} :
    SameTree s t → SameEntries a b → SameEntries ((name, s) :: a) ((name, t) :: b)
  | swap (x y : String × FileTree) (a : List (String × FileTree)) :
    SameEntries (x :: y :: a) (y :: x :: a)
  | trans {a b c : List (String × FileTree)} :
    SameEntries a b → SameEntries b c → SameEntries a c

end

mutual

def hasDistinctNames : FileTree → Bool
  | .file .. => true
  | .directory entries => decide (entries.map Prod.fst).Nodup && haveDistinctNames entries

def haveDistinctNames : List (String × FileTree) → Bool
  | [] => true
  | (_, node) :: rest => node.hasDistinctNames && haveDistinctNames rest

end

mutual

theorem sameTree_refl : ∀ t : FileTree, SameTree t t
  | .file bytes modified => .file bytes modified
  | .directory entries => .directory (sameEntries_refl entries)

theorem sameEntries_refl : ∀ entries : List (String × FileTree), SameEntries entries entries
  | [] => .nil
  | (name, node) :: rest => .cons name (sameTree_refl node) (sameEntries_refl rest)

end

theorem sameEntries_of_perm {a b : List (String × FileTree)} (h : a.Perm b) : SameEntries a b := by
  induction h with
  | nil => exact .nil
  | cons e _ ih => exact .cons e.1 (sameTree_refl e.2) ih
  | swap x y rest => exact .swap y x rest
  | trans _ _ ihFirst ihSecond => exact ihFirst.trans ihSecond

theorem SameTree.trans {s t u : FileTree} (hst : SameTree s t) (htu : SameTree t u) : SameTree s u := by
  cases hst with
  | file bytes modified => exact htu
  | directory hab =>
    cases htu with
    | directory hbc => exact .directory (hab.trans hbc)

theorem rel_trans {x y z : Option FileTree} (hxy : Option.Rel SameTree x y)
    (hyz : Option.Rel SameTree y z) : Option.Rel SameTree x z := by
  cases hxy with
  | none => exact hyz
  | some hst =>
    cases hyz with
    | some htu => exact .some (hst.trans htu)

theorem SameEntries.names {a b : List (String × FileTree)} :
    SameEntries a b → (a.map Prod.fst).Perm (b.map Prod.fst)
  | .nil => .refl _
  | .cons name _ h => h.names.cons name
  | .swap x y _ => .swap y.1 x.1 _
  | .trans hab hbc => hab.names.trans hbc.names

theorem lookup_cons_of_ne {name other : String} (h : name ≠ other) (node : FileTree)
    (entries : List (String × FileTree)) :
    ((other, node) :: entries).lookup name = entries.lookup name := by
  rw [List.lookup_cons, beq_false_of_ne h]

theorem SameEntries.lookup {a b : List (String × FileTree)} (name : String) :
    SameEntries a b → (a.map Prod.fst).Nodup →
      Option.Rel SameTree (a.lookup name) (b.lookup name)
  | .nil, _ => .none
  | .cons first hnode h, hnodup => by
    by_cases hname : name = first
    · rw [hname, List.lookup_cons_self, List.lookup_cons_self]
      exact .some hnode
    · rw [lookup_cons_of_ne hname, lookup_cons_of_ne hname]
      exact h.lookup name (List.nodup_cons.1 hnodup).2
  | .swap (x, s) (y, t) rest, hnodup => by
    have hxy : x ≠ y := fun he =>
      (List.nodup_cons.1 hnodup).1 (he ▸ List.mem_cons_self)
    have hsame : ((x, s) :: (y, t) :: rest).lookup name = ((y, t) :: (x, s) :: rest).lookup name := by
      by_cases hx : name = x
      · rw [hx, List.lookup_cons_self, lookup_cons_of_ne hxy, List.lookup_cons_self]
      · by_cases hy : name = y
        · rw [lookup_cons_of_ne hx, hy, List.lookup_cons_self, List.lookup_cons_self]
        · rw [lookup_cons_of_ne hx, lookup_cons_of_ne hy, lookup_cons_of_ne hy, lookup_cons_of_ne hx]
    rw [hsame]
    cases ((y, t) :: (x, s) :: rest).lookup name with
    | none => exact .none
    | some node => exact .some (sameTree_refl node)
  | .trans hab hbc, hnodup =>
    rel_trans (hab.lookup name hnodup) (hbc.lookup name (hab.names.nodup_iff.1 hnodup))

theorem hasDistinctNames_of_lookup {entries : List (String × FileTree)} {name : String}
    {node : FileTree} (h : haveDistinctNames entries = true)
    (hlookup : entries.lookup name = some node) : node.hasDistinctNames = true := by
  induction entries with
  | nil => cases hlookup
  | cons e entries ih =>
    rw [haveDistinctNames, Bool.and_eq_true] at h
    by_cases hname : name = e.1
    · rw [hname, List.lookup_cons_self] at hlookup
      cases hlookup
      exact h.1
    · rw [lookup_cons_of_ne hname] at hlookup
      exact ih h.2 hlookup

theorem hasDistinctNames_directory {entries : List (String × FileTree)}
    (h : (directory entries).hasDistinctNames = true) :
    (entries.map Prod.fst).Nodup ∧ haveDistinctNames entries = true := by
  rwa [hasDistinctNames, Bool.and_eq_true, decide_eq_true_eq] at h

theorem hasDistinctNames_of_at? {t node : FileTree} {names : List String}
    (h : t.hasDistinctNames = true) (hat : t.at? names = some node) :
    node.hasDistinctNames = true := by
  induction names generalizing t with
  | nil =>
    cases hat
    exact h
  | cons name rest ih =>
    cases t with
    | file bytes modified => cases hat
    | directory entries =>
      obtain ⟨child, hchild, hrest⟩ := Option.bind_eq_some_iff.1 hat
      exact ih (hasDistinctNames_of_lookup (hasDistinctNames_directory h).2 hchild) hrest

theorem hasDistinctNames_of_nodeAt? {t node : FileTree} {place : Place}
    (hdistinct : t.hasDistinctNames = true) (hnode : t.nodeAt? place = some node) :
    node.hasDistinctNames = true := by
  cases place with
  | outside =>
    cases hnode
    rfl
  | inside names => exact hasDistinctNames_of_at? hdistinct hnode

theorem hasDistinctNames_of_find {t node : FileTree} {p : Path}
    (hdistinct : t.hasDistinctNames = true) (hfind : t.find p = .ok node) :
    node.hasDistinctNames = true := by
  obtain ⟨-, place, -, hnode⟩ := find_eq_ok.1 hfind
  exact hasDistinctNames_of_nodeAt? hdistinct hnode

namespace SameTree

variable {t u : FileTree}

theorem at? (h : SameTree t u) (hdistinct : t.hasDistinctNames = true) (names : List String) :
    Option.Rel SameTree (t.at? names) (u.at? names) := by
  induction names generalizing t u with
  | nil => exact .some h
  | cons name rest ih =>
    cases h with
    | file bytes modified => exact .none
    | directory hentries =>
      obtain ⟨hnodup, hinner⟩ := hasDistinctNames_directory hdistinct
      rw [FileTree.at?, FileTree.at?]
      have hchild := hentries.lookup name hnodup
      generalize hs : List.lookup name _ = s at hchild ⊢
      generalize List.lookup name _ = r at hchild ⊢
      cases hchild with
      | none => exact .none
      | some hsame => exact ih hsame (hasDistinctNames_of_lookup hinner hs)

theorem nodeAt? (h : SameTree t u) (hdistinct : t.hasDistinctNames = true) (place : Place) :
    Option.Rel SameTree (t.nodeAt? place) (u.nodeAt? place) := by
  cases place with
  | outside => exact .some (sameTree_refl _)
  | inside names => exact h.at? hdistinct names

theorem step_eq (h : SameTree t u) (hdistinct : t.hasDistinctNames = true) : t.step = u.step := by
  funext place s
  have hnode := h.nodeAt? hdistinct place
  unfold step
  generalize ht : t.nodeAt? place = node at hnode ⊢
  generalize u.nodeAt? place = other at hnode ⊢
  cases hnode with
  | none => rfl
  | some hsame =>
    cases hsame with
    | file bytes modified => rfl
    | directory hentries =>
      cases s with
      | name name =>
        obtain ⟨hnodup, -⟩ := hasDistinctNames_directory (hasDistinctNames_of_nodeAt? hdistinct ht)
        have hname := hentries.lookup name hnodup
        simp only [Place.entry]
        generalize List.lookup name _ = s at hname ⊢
        generalize List.lookup name _ = r at hname ⊢
        cases hname with
        | none => rfl
        | some _ => cases place <;> rfl
      | _ => rfl

theorem resolve_eq (h : SameTree t u) (hdistinct : t.hasDistinctNames = true) :
    t.resolve = u.resolve := by
  funext steps
  rw [resolve, resolve, h.step_eq hdistinct]

/-- What a path leads to: nothing for the same reason, or the same but for the order of entries. -/
inductive Found : Except FileError FileTree → Except FileError FileTree → Prop
  | error (e : FileError) : Found (.error e) (.error e)
  | ok {s r : FileTree} : SameTree s r → Found (.ok s) (.ok r)

theorem find (h : SameTree t u) (hdistinct : t.hasDistinctNames = true) (p : Path) :
    Found (t.find p) (u.find p) := by
  unfold FileTree.find
  rw [← h.resolve_eq hdistinct]
  cases checkPath p with
  | error e => exact .error e
  | ok checked =>
    cases t.resolve p.steps with
    | error e => exact .error e
    | ok place =>
      have hnode := h.nodeAt? hdistinct place
      simp only [bind, Except.bind]
      generalize t.nodeAt? place = s at hnode ⊢
      generalize u.nodeAt? place = r at hnode ⊢
      cases hnode with
      | none => exact .error .notFound
      | some hsame => exact .ok hsame

theorem readText (h : SameTree t u) (hdistinct : t.hasDistinctNames = true) (p : Path) :
    t.readText p = u.readText p := by
  have hfind := h.find hdistinct p
  unfold FileTree.readText readBytes
  generalize t.find p = s at hfind ⊢
  generalize u.find p = r at hfind ⊢
  cases hfind with
  | error e => rfl
  | ok hsame => cases hsame <;> rfl

theorem modifiedAt? (h : SameTree t u) (hdistinct : t.hasDistinctNames = true) (p : Path) :
    t.modifiedAt? p = u.modifiedAt? p := by
  have hfind := h.find hdistinct p
  unfold FileTree.modifiedAt?
  generalize t.find p = s at hfind ⊢
  generalize u.find p = r at hfind ⊢
  cases hfind with
  | error e => rfl
  | ok hsame => cases hsame <;> rfl

theorem list (h : SameTree t u) (hdistinct : t.hasDistinctNames = true) (p : Path) :
    (∃ e, t.list p = .error e ∧ u.list p = .error e) ∨
      ∃ a b, t.list p = .ok a ∧ u.list p = .ok b ∧ SameEntries a b := by
  have hfind := h.find hdistinct p
  unfold FileTree.list
  generalize t.find p = s at hfind ⊢
  generalize u.find p = r at hfind ⊢
  cases hfind with
  | error e => exact .inl ⟨e, rfl, rfl⟩
  | ok hsame =>
    cases hsame with
    | file bytes modified => exact .inl ⟨_, rfl, rfl⟩
    | directory hentries => exact .inr ⟨_, _, rfl, rfl, hentries⟩

end SameTree

end NativeCatalogue.FileTree
