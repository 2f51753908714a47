import NativeCatalogue.Proofs.Basic
import NativeCatalogue.Proofs.FileTree.Removal
import NativeCatalogue.Run.Compile

set_option autoImplicit false

namespace NativeCatalogue

instance : Std.TransOrd PathStep :=
  inferInstanceAs (Std.TransCmp (compareLex (compareOn PathStep.rank) (compareOn PathStep.nameText)))

namespace Path

theorem le_trans (a b c : Path) (hab : a.le b = true) (hbc : b.le c = true) : a.le c = true :=
  Std.TransCmp.isLE_trans hab hbc

theorem le_total (a b : Path) : (a.le b || b.le a) = true := by
  unfold le
  rw [Std.OrientedOrd.eq_swap (a := b.components)]
  cases compare a.components b.components <;> rfl

end Path

namespace DocumentListing

theorem documents_append (a b : DocumentListing) :
    (a ++ b).documents = a.documents ++ b.documents :=
  rfl

theorem documents_ofFile (path : Path) (name : String) :
    ∀ p ∈ (ofFile path name).documents, p = path := by
  intro p hp
  unfold ofFile at hp
  split at hp
  · exact List.mem_singleton.1 hp
  · cases hp

section Removed

variable (removed : List Path)

def isKept (p : Path) : Bool :=
  !removed.contains p

mutual

theorem documents_without (path : Path) (name : String) :
    ∀ node : FileTree, (((node.without removed path).map (ofEntry path name)).getD {}).documents =
      (ofEntry path name node).documents.filter (isKept removed)
  | .file bytes modified => by
    rw [FileTree.without, ofEntry]
    by_cases hmem : removed.contains path = true
    · have hkept : ¬ isKept removed path = true := by
        rw [isKept, hmem]
        exact nofun
      rw [if_pos hmem]
      unfold ofFile
      split
      · rw [List.filter_cons_of_neg hkept]
        rfl
      · rfl
    · have hkept : isKept removed path = true := by
        rw [isKept, (Bool.not_eq_true _).mp hmem]
        rfl
      rw [if_neg hmem, Option.map_some, Option.getD_some, ofEntry]
      unfold ofFile
      split
      · rw [List.filter_cons_of_pos hkept]
        rfl
      · rfl
  | .directory entries => by
    rw [FileTree.without, Option.map_some, Option.getD_some, ofEntry, ofEntry]
    split
    · rfl
    · exact documents_entriesWithout path entries

theorem documents_entriesWithout (directory : Path) :
    ∀ entries : List (String × FileTree),
      (ofEntries directory (FileTree.entriesWithout removed directory entries)).documents =
        (ofEntries directory entries).documents.filter (isKept removed)
  | [] => rfl
  | (name, node) :: rest => by
    have hnode := documents_without (directory.join name) name node
    have hrest := documents_entriesWithout directory rest
    rw [FileTree.entriesWithout, ofEntries, documents_append, List.filter_append, ← hnode, ← hrest]
    cases node.without removed (directory.join name) with
    | some left => rw [ofEntries]; rfl
    | none => rfl

end

end Removed

mutual

theorem row_of_mem_ofEntry (path : Path) (name : String) :
    ∀ node : FileTree, node.hasStepNames = true → ∀ p ∈ (ofEntry path name node).documents,
      ∃ row : List String, (∀ step ∈ row, isStepName step = true) ∧ p = row.foldl Path.join path
  | .file bytes modified, _, p, hp => by
    rw [ofEntry] at hp
    exact ⟨[], nofun, documents_ofFile path name p hp⟩
  | .directory entries, h, p, hp => by
    rw [ofEntry] at hp
    rw [FileTree.hasStepNames] at h
    split at hp
    · cases hp
    · exact row_of_mem_ofEntries path entries h p hp

theorem row_of_mem_ofEntries (directory : Path) :
    ∀ entries : List (String × FileTree), FileTree.haveStepNames entries = true →
      ∀ p ∈ (ofEntries directory entries).documents,
        ∃ row : List String, (∀ step ∈ row, isStepName step = true) ∧
          p = row.foldl Path.join directory
  | [], _, p, hp => by cases hp
  | (name, node) :: rest, h, p, hp => by
    rw [FileTree.haveStepNames, Bool.and_eq_true, Bool.and_eq_true] at h
    rw [ofEntries, documents_append, List.mem_append] at hp
    rcases hp with hp | hp
    · obtain ⟨row, hrow, hp⟩ := row_of_mem_ofEntry (directory.join name) name node h.1.2 p hp
      refine ⟨name :: row, ?_, hp⟩
      intro step hstep
      rcases List.mem_cons.1 hstep with rfl | hstep
      · exact h.1.1
      · exact hrow step hstep
    · exact row_of_mem_ofEntries directory rest h.2 p hp

end

theorem ofTree_eq_ok {t : FileTree} {root : Path} {found : DocumentListing}
    (h : ofTree t root = .ok found) :
    ∃ entries, t.list root = .ok entries ∧
      found.documents = (ofEntries root entries).documents.mergeSort Path.le := by
  obtain ⟨entries, hlist, h⟩ := bind_eq_ok.1 h
  cases h
  exact ⟨entries, hlist, rfl⟩

theorem ofTree_of_pairwise {t : FileTree} {root : Path} {entries : List (String × FileTree)}
    {found : DocumentListing} (hlist : t.list root = .ok entries)
    (hfound : ofEntries root entries = found)
    (hsorted : found.documents.Pairwise fun a b => a.le b = true) : ofTree t root = .ok found := by
  refine bind_eq_ok.2 ⟨entries, hlist, ?_⟩
  rw [hfound, sorted, List.mergeSort_of_pairwise hsorted]
  rfl

theorem ofTree_removeUnder {t : FileTree} {root : Path} {found : DocumentListing}
    (h : ofTree t root = .ok found) (removed : List Path) :
    ∃ left, ofTree (t.removeUnder root removed) root = .ok left ∧
      left.documents = found.documents.filter (isKept removed) := by
  obtain ⟨entries, hlist, hfound⟩ := ofTree_eq_ok h
  refine ⟨(ofEntries root (FileTree.entriesWithout removed root entries)).sorted, ?_, ?_⟩
  · rw [ofTree, (FileTree.removeUnder_spec hlist removed).1]
    rfl
  · rw [hfound, ← List.mergeSort_filter Path.le_trans Path.le_total, ← documents_entriesWithout]
    rfl

end DocumentListing

namespace CompiledDocument

theorem find_of_ofPath {t : FileTree} {p : Path} {d : CompiledDocument} (h : ofPath t p = .ok d) :
    ∃ bytes modified, t.find p = .ok (.file bytes modified) := by
  unfold ofPath at h
  cases hfind : t.find p with
  | error e => simp [FileTree.readText, FileTree.readBytes, hfind, bind, Except.bind] at h
  | ok node =>
    cases node with
    | file bytes modified => exact ⟨bytes, modified, rfl⟩
    | directory entries =>
      simp [FileTree.readText, FileTree.readBytes, FileTree.bytesOf, hfind, bind, Except.bind] at h

theorem ofPath_congr {t u : FileTree} {p : Path} (h : t.find p = u.find p) :
    ofPath t p = ofPath u p := by
  unfold ofPath FileTree.readText FileTree.readBytes FileTree.modifiedAt?
  rw [h]

/-- A document that compiles and is not removed gives what it gave before. -/
theorem ofPath_removeUnder {t : FileTree} {root : Path} {found : DocumentListing}
    (h : DocumentListing.ofTree t root = .ok found) (hnames : t.hasStepNames = true)
    {removed : List Path} {p : Path} (hp : p ∈ found.documents) (hkept : p ∉ removed)
    {d : CompiledDocument} (hd : ofPath t p = .ok d) :
    ofPath (t.removeUnder root removed) p = .ok d := by
  obtain ⟨entries, hlist, hfound⟩ := DocumentListing.ofTree_eq_ok h
  rw [hfound, List.mem_mergeSort] at hp
  obtain ⟨-, place, -, hnode⟩ := FileTree.find_eq_ok.1 (FileTree.list_eq_ok.1 hlist)
  have hentries : FileTree.haveStepNames entries = true := by
    cases place with
    | outside => cases hnode; rfl
    | inside names => exact FileTree.haveStepNames_of_at? hnames hnode
  obtain ⟨row, hrow, rfl⟩ := DocumentListing.row_of_mem_ofEntries root entries hentries p hp
  obtain ⟨bytes, modified, hfind⟩ := find_of_ofPath hd
  rw [← hd]
  refine ofPath_congr ?_
  rw [(FileTree.removeUnder_spec hlist removed).2 row hrow hkept bytes modified hfind, hfind]

end CompiledDocument

end NativeCatalogue
