import Mathlib.Data.Set.Card
import NativeCatalogue.Compilation.Documents
import NativeCatalogue.Proofs.Compilation.Documents
import NativeCatalogue.Proofs.FileTree.Order

set_option autoImplicit false

namespace NativeCatalogue

/-- From the entries of a directory one gets to a file with a name, at a path. -/
inductive ReachesFile : Path → List (String × FileTree) → Path → String → Prop
  | here {directory : Path} {entries : List (String × FileTree)} {name : String}
      {bytes : ByteArray} {modified : Calendar.Instant} :
    (name, .file bytes modified) ∈ entries →
      ReachesFile directory entries (directory.join name) name
  | inside {directory path : Path} {entries inner : List (String × FileTree)}
      {child name : String} :
    (child, .directory inner) ∈ entries → isHidden child = false →
      ReachesFile (directory.join child) inner path name →
      ReachesFile directory entries path name

instance : Std.LawfulEqOrd PathStep where
  eq_of_compare {a b} h := by
    obtain ⟨hrank, htext⟩ := compareLex_eq_eq.1 h
    have hrank : a.rank = b.rank := Std.LawfulEqOrd.eq_of_compare hrank
    have htext : a.nameText = b.nameText := Std.LawfulEqOrd.eq_of_compare htext
    cases a with
    | name text =>
      cases b with
      | name other => exact congrArg PathStep.name htext
      | _ => cases hrank
    | _ => cases b <;> first | rfl | cases hrank

namespace Path

theorem components_eq_of_le {a b : Path} (hab : a.le b = true) (hba : b.le a = true) :
    a.components = b.components :=
  Std.LawfulEqOrd.eq_of_compare (Std.OrientedCmp.isLE_antisymm hab hba)

def Before (a b : Path) : Prop :=
  compare a.components b.components = .lt

theorem before_of_le {a b : Path} (h : a.le b = true) (hne : a.components ≠ b.components) :
    a.Before b := by
  unfold Before
  cases hcompare : compare a.components b.components with
  | lt => rfl
  | eq => exact absurd (Std.LawfulEqOrd.eq_of_compare hcompare) hne
  | gt =>
    rw [le, hcompare] at h
    cases h

theorem mergeSort_eq_of_perm {as bs : List Path} (hperm : as.Perm bs)
    (hnodup : (as.map components).Nodup) : as.mergeSort le = bs.mergeSort le := by
  have hsorted : ∀ paths : List Path, (paths.mergeSort le).Pairwise fun a b => a.le b = true :=
    fun paths => List.pairwise_mergeSort le_trans le_total paths
  refine List.Perm.eq_of_pairwise (fun a b ha hb hab hba => ?_) (hsorted as) (hsorted bs)
    ((List.mergeSort_perm as le).trans (hperm.trans (List.mergeSort_perm bs le).symm))
  rw [List.mem_mergeSort] at ha hb
  exact List.inj_on_of_nodup_map hnodup ha (hperm.mem_iff.2 hb) (components_eq_of_le hab hba)

theorem before_mergeSort {paths : List Path} (hnodup : (paths.map components).Nodup) :
    (paths.mergeSort le).Pairwise Before := by
  have hsorted := List.pairwise_mergeSort le_trans le_total paths
  have hdistinct : ((paths.mergeSort le).map components).Nodup :=
    ((List.mergeSort_perm paths le).map components).nodup_iff.2 hnodup
  exact hsorted.imp₂ (fun _ _ => before_of_le) (List.pairwise_map.1 hdistinct)

theorem Before.ne {a b : Path} (h : a.Before b) : a ≠ b := by
  rintro rfl
  unfold Before at h
  rw [Std.ReflOrd.compare_self] at h
  cases h

end Path

theorem FileTree.isStepName_of_mem {entries : List (String × FileTree)} {name : String}
    {node : FileTree} (h : haveStepNames entries = true) (hmem : (name, node) ∈ entries) :
    isStepName name = true ∧ node.hasStepNames = true := by
  induction entries with
  | nil => cases hmem
  | cons e entries ih =>
    rw [haveStepNames, Bool.and_eq_true, Bool.and_eq_true] at h
    rcases List.mem_cons.1 hmem with rfl | hmem
    · exact h.1
    · exact ih h.2 hmem

namespace ReachesFile

theorem cons {directory path : Path} {entries : List (String × FileTree)} {name : String}
    (h : ReachesFile directory entries path name) (e : String × FileTree) :
    ReachesFile directory (e :: entries) path name := by
  cases h with
  | here hmem => exact .here (List.mem_cons_of_mem e hmem)
  | inside hmem hshown hinner => exact .inside (List.mem_cons_of_mem e hmem) hshown hinner

theorem fileName? {directory path : Path} {name : String} {entries : List (String × FileTree)}
    (h : ReachesFile directory entries path name) (hdirectory : directory.text ≠ "")
    (hnames : FileTree.haveStepNames entries = true) : path.fileName? = some name := by
  induction h with
  | here hmem => exact Path.fileName?_join hdirectory (FileTree.isStepName_of_mem hnames hmem).1
  | @inside directory _ _ _ child _ hmem _ _ ih =>
    refine ih (directory.text_join_ne child hdirectory) ?_
    have hchild := (FileTree.isStepName_of_mem hnames hmem).2
    rwa [FileTree.hasStepNames] at hchild

theorem isNativeDocument {directory path : Path} {name : String} {entries : List (String × FileTree)}
    (h : ReachesFile directory entries path name) (hdirectory : directory.text ≠ "")
    (hnames : FileTree.haveStepNames entries = true) :
    path.isNativeDocument = isDocumentName name := by
  rw [Path.isNativeDocument, h.fileName? hdirectory hnames]
  rfl

end ReachesFile

namespace DocumentListing

mutual

def filesAt (path : Path) (name : String) : FileTree → List (Path × String)
  | .file .. => [(path, name)]
  | .directory entries => if isHidden name then [] else filesIn path entries

def filesIn (directory : Path) : List (String × FileTree) → List (Path × String)
  | [] => []
  | (name, node) :: rest => filesAt (directory.join name) name node ++ filesIn directory rest

end

def ofFiles (files : List (Path × String)) : DocumentListing where
  documents := (files.filter fun f => isDocumentName f.2).map Prod.fst
  skipped := files.countP fun f => !isDocumentName f.2

theorem ofFiles_append (as bs : List (Path × String)) :
    ofFiles (as ++ bs) = ofFiles as ++ ofFiles bs := by
  simp only [ofFiles, List.filter_append, List.map_append, List.countP_append]
  rfl

theorem ofFile_eq (path : Path) (name : String) : ofFile path name = ofFiles [(path, name)] := by
  unfold ofFile ofFiles
  cases h : isDocumentName name <;> simp [h]

mutual

theorem ofEntry_eq (path : Path) (name : String) :
    ∀ node : FileTree, ofEntry path name node = ofFiles (filesAt path name node)
  | .file .. => by rw [ofEntry, filesAt, ofFile_eq]
  | .directory entries => by
    rw [ofEntry, filesAt]
    split
    · rfl
    · exact ofEntries_eq path entries

theorem ofEntries_eq (directory : Path) :
    ∀ entries : List (String × FileTree), ofEntries directory entries = ofFiles (filesIn directory entries)
  | [] => rfl
  | (name, node) :: rest => by
    rw [ofEntries, filesIn, ofFiles_append, ofEntry_eq (directory.join name) name node,
      ofEntries_eq directory rest]

end

theorem filesIn_eq_flatMap (directory : Path) (entries : List (String × FileTree)) :
    filesIn directory entries = entries.flatMap fun e => filesAt (directory.join e.1) e.1 e.2 := by
  induction entries with
  | nil => rfl
  | cons e entries ih => rw [filesIn, ih, List.flatMap_cons]

mutual

theorem reachesFile_of_mem_filesAt {directory path : Path} {name own : String}
    {entries : List (String × FileTree)} :
    ∀ node : FileTree, (own, node) ∈ entries →
      (path, name) ∈ filesAt (directory.join own) own node → ReachesFile directory entries path name
  | .file bytes modified, hmem, h => by
    rw [filesAt, List.mem_singleton] at h
    cases h
    exact .here hmem
  | .directory inner, hmem, h => by
    rw [filesAt] at h
    split at h
    · cases h
    · rename_i hshown
      exact .inside hmem (Bool.eq_false_of_not_eq_true hshown) (reachesFile_of_mem_filesIn inner h)

theorem reachesFile_of_mem_filesIn {directory path : Path} {name : String} :
    ∀ entries : List (String × FileTree), (path, name) ∈ filesIn directory entries →
      ReachesFile directory entries path name
  | [], h => by cases h
  | (own, node) :: rest, h => by
    rw [filesIn, List.mem_append] at h
    rcases h with h | h
    · exact reachesFile_of_mem_filesAt node List.mem_cons_self h
    · exact (reachesFile_of_mem_filesIn rest h).cons (own, node)

end

theorem mem_filesIn_of_reachesFile {directory path : Path} {name : String}
    {entries : List (String × FileTree)} (h : ReachesFile directory entries path name) :
    (path, name) ∈ filesIn directory entries := by
  induction h with
  | here hmem =>
    rw [filesIn_eq_flatMap, List.mem_flatMap]
    exact ⟨_, hmem, by rw [filesAt]; exact List.mem_singleton_self _⟩
  | inside hmem hshown _ ih =>
    rw [filesIn_eq_flatMap, List.mem_flatMap]
    refine ⟨_, hmem, ?_⟩
    rw [filesAt, hshown]
    exact ih

theorem mem_filesIn {directory path : Path} {name : String} {entries : List (String × FileTree)} :
    (path, name) ∈ filesIn directory entries ↔ ReachesFile directory entries path name :=
  ⟨reachesFile_of_mem_filesIn entries, mem_filesIn_of_reachesFile⟩

mutual

theorem prefix_filesAt {path : Path} (hpath : path.text ≠ "") (name : String) :
    ∀ node : FileTree, node.hasStepNames = true →
      ∀ f ∈ filesAt path name node, path.components <+: f.1.components
  | .file .., _, f, hf => by
    rw [filesAt, List.mem_singleton] at hf
    rw [hf]
  | .directory entries, h, f, hf => by
    rw [filesAt] at hf
    rw [FileTree.hasStepNames] at h
    split at hf
    · cases hf
    · obtain ⟨own, -, hprefix⟩ := prefix_filesIn hpath entries h f hf
      exact (List.prefix_append _ _).trans hprefix

theorem prefix_filesIn {directory : Path} (hdirectory : directory.text ≠ "") :
    ∀ entries : List (String × FileTree), FileTree.haveStepNames entries = true →
      ∀ f ∈ filesIn directory entries, ∃ own ∈ entries.map Prod.fst,
        directory.components ++ [.name own] <+: f.1.components
  | [], _, f, hf => by cases hf
  | (name, node) :: rest, h, f, hf => by
    rw [FileTree.haveStepNames, Bool.and_eq_true, Bool.and_eq_true] at h
    rw [filesIn, List.mem_append] at hf
    rcases hf with hf | hf
    · refine ⟨name, List.mem_cons_self, ?_⟩
      rw [← Path.components_join hdirectory h.1.1]
      exact prefix_filesAt (directory.text_join_ne name hdirectory) name node h.1.2 f hf
    · obtain ⟨own, hown, hprefix⟩ := prefix_filesIn hdirectory rest h.2 f hf
      exact ⟨own, List.mem_cons_of_mem _ hown, hprefix⟩

end

theorem eq_of_prefixes {steps : List PathStep} {a b : String} {components : List PathStep}
    (ha : steps ++ [.name a] <+: components) (hb : steps ++ [.name b] <+: components) : a = b := by
  obtain ⟨as, rfl⟩ := ha
  obtain ⟨bs, hb⟩ := hb
  rw [List.append_assoc, List.append_assoc] at hb
  have hb := List.append_cancel_left hb
  cases hb
  rfl

mutual

theorem nodup_filesAt {path : Path} (hpath : path.text ≠ "") (name : String) :
    ∀ node : FileTree, node.hasStepNames = true → node.hasDistinctNames = true →
      ((filesAt path name node).map fun f => f.1.components).Nodup
  | .file .., _, _ => by
    rw [filesAt]
    exact List.nodup_singleton _
  | .directory entries, h, hdistinct => by
    rw [filesAt]
    rw [FileTree.hasStepNames] at h
    obtain ⟨hnames, hinner⟩ := FileTree.hasDistinctNames_directory hdistinct
    split
    · exact List.nodup_nil
    · exact nodup_filesIn hpath entries h hnames hinner

theorem nodup_filesIn {directory : Path} (hdirectory : directory.text ≠ "") :
    ∀ entries : List (String × FileTree), FileTree.haveStepNames entries = true →
      (entries.map Prod.fst).Nodup → FileTree.haveDistinctNames entries = true →
        ((filesIn directory entries).map fun f => f.1.components).Nodup
  | [], _, _, _ => List.nodup_nil
  | (name, node) :: rest, h, hnames, hdistinct => by
    rw [FileTree.haveStepNames, Bool.and_eq_true, Bool.and_eq_true] at h
    rw [FileTree.haveDistinctNames, Bool.and_eq_true] at hdistinct
    obtain ⟨hnew, hnames⟩ := List.nodup_cons.1 hnames
    have hjoin := directory.text_join_ne name hdirectory
    rw [filesIn, List.map_append, List.nodup_append]
    refine ⟨nodup_filesAt hjoin name node h.1.2 hdistinct.1,
      nodup_filesIn hdirectory rest h.2 hnames hdistinct.2, fun as has bs hbs hsame => ?_⟩
    obtain ⟨f, hf, rfl⟩ := List.mem_map.1 has
    obtain ⟨g, hg, rfl⟩ := List.mem_map.1 hbs
    have hfirst := prefix_filesAt hjoin name node h.1.2 f hf
    rw [Path.components_join hdirectory h.1.1, hsame] at hfirst
    obtain ⟨own, hown, hrest⟩ := prefix_filesIn hdirectory rest h.2 g hg
    exact hnew (eq_of_prefixes hrest hfirst ▸ hown)

end

open FileTree (SameTree SameEntries)

mutual

theorem filesAt_perm (path : Path) (name : String) {s t : FileTree} :
    SameTree s t → (filesAt path name s).Perm (filesAt path name t)
  | .file bytes modified => .refl _
  | .directory h => by
    rw [filesAt, filesAt]
    split
    · exact .refl _
    · exact filesIn_perm path h

theorem filesIn_perm (directory : Path) {a b : List (String × FileTree)} :
    SameEntries a b → (filesIn directory a).Perm (filesIn directory b)
  | .nil => .refl _
  | .cons name hnode hrest => by
    rw [filesIn, filesIn]
    exact (filesAt_perm (directory.join name) name hnode).append (filesIn_perm directory hrest)
  | .swap (x, s) (y, t) rest => by
    simp only [filesIn, ← List.append_assoc]
    exact List.perm_append_comm.append_right _
  | .trans hab hbc => (filesIn_perm directory hab).trans (filesIn_perm directory hbc)

end

/-- What is found, as a list of files that differ in their components. -/
structure Discovers (root : Path) (entries : List (String × FileTree)) (found : DocumentListing) :
    Prop where
  /-- The documents are the files one gets to that are named like documents. -/
  mem : ∀ p, p ∈ found.documents ↔
    (∃ name, ReachesFile root entries p name) ∧ p.isNativeDocument = true
  /-- Each is there once, behind those whose paths come before its own. -/
  once : found.documents.Nodup
  ordered : found.documents.Pairwise Path.Before
  /-- All other files are counted. -/
  skipped : {p | (∃ name, ReachesFile root entries p name) ∧ p.isNativeDocument = false}.encard =
    found.skipped

section Sorted

variable {root : Path} {entries : List (String × FileTree)} (hroot : root.text ≠ "")
  (hnames : FileTree.haveStepNames entries = true)
  (hdistinct : (FileTree.directory entries).hasDistinctNames = true)

include hroot hnames hdistinct

theorem nodup_components : ((filesIn root entries).map fun f => f.1.components).Nodup := by
  obtain ⟨hnodup, hinner⟩ := FileTree.hasDistinctNames_directory hdistinct
  exact nodup_filesIn hroot entries hnames hnodup hinner

theorem nodup_documents :
    ((ofEntries root entries).documents.map Path.components).Nodup := by
  rw [ofEntries_eq, ofFiles, List.map_map]
  exact (nodup_components hroot hnames hdistinct).sublist (List.filter_sublist.map _)

omit hdistinct in
theorem mem_documents {p : Path} : p ∈ (ofEntries root entries).documents ↔
    (∃ name, ReachesFile root entries p name) ∧ p.isNativeDocument = true := by
  rw [ofEntries_eq, ofFiles, List.mem_map]
  constructor
  · rintro ⟨⟨path, name⟩, hf, rfl⟩
    obtain ⟨hmem, hdocument⟩ := List.mem_filter.1 hf
    have hreaches := mem_filesIn.1 hmem
    exact ⟨⟨name, hreaches⟩, (hreaches.isNativeDocument hroot hnames).trans hdocument⟩
  · rintro ⟨⟨name, hreaches⟩, hdocument⟩
    rw [hreaches.isNativeDocument hroot hnames] at hdocument
    exact ⟨(p, name), List.mem_filter.2 ⟨mem_filesIn.2 hreaches, hdocument⟩, rfl⟩

theorem encard_others :
    {p | (∃ name, ReachesFile root entries p name) ∧ p.isNativeDocument = false}.encard =
      (ofEntries root entries).skipped := by
  have hfiles : ((filesIn root entries).map Prod.fst).Nodup := by
    refine List.Nodup.of_map Path.components ?_
    rw [List.map_map]
    exact nodup_components hroot hnames hdistinct
  have hothers : (((filesIn root entries).filter fun f => !isDocumentName f.2).map Prod.fst).Nodup :=
    hfiles.sublist (List.filter_sublist.map _)
  have hset : {p | (∃ name, ReachesFile root entries p name) ∧ p.isNativeDocument = false} =
      ↑(((filesIn root entries).filter fun f => !isDocumentName f.2).map Prod.fst).toFinset := by
    ext p
    rw [Set.mem_ofPred_eq, List.coe_toFinset, Set.mem_ofPred_eq, List.mem_map]
    constructor
    · rintro ⟨⟨name, hreaches⟩, hother⟩
      rw [hreaches.isNativeDocument hroot hnames] at hother
      exact ⟨(p, name), List.mem_filter.2 ⟨mem_filesIn.2 hreaches, by rw [hother]; rfl⟩, rfl⟩
    · rintro ⟨⟨path, name⟩, hf, rfl⟩
      obtain ⟨hmem, hother⟩ := List.mem_filter.1 hf
      have hreaches := mem_filesIn.1 hmem
      exact ⟨⟨name, hreaches⟩, (hreaches.isNativeDocument hroot hnames).trans
        (Bool.not_eq_true' _ ▸ hother)⟩
  rw [hset, Set.encard_coe_eq_coe_finsetCard, List.toFinset_card_of_nodup hothers, List.length_map,
    ofEntries_eq, ofFiles, List.countP_eq_length_filter]

theorem discovers : Discovers root entries (ofEntries root entries).sorted where
  mem _ := List.mem_mergeSort.trans (mem_documents hroot hnames)
  once := (Path.before_mergeSort (nodup_documents hroot hnames hdistinct)).imp Path.Before.ne
  ordered := Path.before_mergeSort (nodup_documents hroot hnames hdistinct)
  skipped := encard_others hroot hnames hdistinct

theorem sorted_eq {others : List (String × FileTree)} (h : SameEntries entries others) :
    (ofEntries root entries).sorted = (ofEntries root others).sorted := by
  have hfiles := filesIn_perm root h
  have hdocuments : ((ofEntries root entries).documents).Perm (ofEntries root others).documents := by
    rw [ofEntries_eq, ofEntries_eq]
    exact (hfiles.filter _).map Prod.fst
  have hskipped : (ofEntries root entries).skipped = (ofEntries root others).skipped := by
    rw [ofEntries_eq, ofEntries_eq]
    exact hfiles.countP_eq _
  rw [sorted, sorted,
    Path.mergeSort_eq_of_perm hdocuments (nodup_documents hroot hnames hdistinct), hskipped]

end Sorted

theorem ofTree_of_list {t : FileTree} {root : Path} {entries : List (String × FileTree)}
    (h : t.list root = .ok entries) : ofTree t root = .ok (ofEntries root entries).sorted :=
  bind_eq_ok.2 ⟨entries, h, rfl⟩

theorem ofTree_of_error {t : FileTree} {root : Path} {e : FileError} (h : t.list root = .error e) :
    ofTree t root = .error e := by
  simp only [ofTree, h, bind, Except.bind]

theorem root_of_list {t : FileTree} {root : Path} {entries : List (String × FileTree)}
    (h : t.list root = .ok entries) (hnames : t.hasStepNames = true) :
    root.text ≠ "" ∧ FileTree.haveStepNames entries = true := by
  obtain ⟨hcheck, place, -, hnode⟩ := FileTree.find_eq_ok.1 (FileTree.list_eq_ok.1 h)
  refine ⟨fun hempty => by simp [FileTree.checkPath, hempty] at hcheck, ?_⟩
  cases place with
  | outside =>
    cases hnode
    rfl
  | inside names => exact FileTree.haveStepNames_of_at? hnames hnode

theorem ofTree_eq {t u : FileTree} (h : SameTree t u) (hnames : t.hasStepNames = true)
    (hdistinct : t.hasDistinctNames = true) (root : Path) : ofTree t root = ofTree u root := by
  rcases h.list hdistinct root with ⟨e, ht, hu⟩ | ⟨a, b, ht, hu, hsame⟩
  · rw [ofTree_of_error ht, ofTree_of_error hu]
  · obtain ⟨hroot, hsteps⟩ := root_of_list ht hnames
    have hinner := FileTree.hasDistinctNames_of_find hdistinct (FileTree.list_eq_ok.1 ht)
    rw [ofTree_of_list ht, ofTree_of_list hu, sorted_eq hroot hsteps hinner hsame]

end DocumentListing

namespace CompileRun

open FileTree (SameTree)

theorem ofPath_eq {t u : FileTree} (h : SameTree t u) (hdistinct : t.hasDistinctNames = true) :
    CompiledDocument.ofPath t = CompiledDocument.ofPath u := by
  funext path
  unfold CompiledDocument.ofPath
  rw [h.readText hdistinct, h.modifiedAt? hdistinct]

/-- The order in which directories list their entries does not show in what is found, nor in what comes
    of compiling it. -/
theorem ofTree_eq_of_sameTree {t u : FileTree} (h : SameTree t u) (hnames : t.hasStepNames = true)
    (hdistinct : t.hasDistinctNames = true) (root : Path) :
    DocumentListing.ofTree t root = DocumentListing.ofTree u root ∧
      ofTree t root = ofTree u root ∧
      ∀ entries, t.list root = .ok entries →
        ∃ found run, DocumentListing.ofTree t root = .ok found ∧ ofTree t root = .ok run ∧
          found.Discovers root entries := by
  have hfound := DocumentListing.ofTree_eq h hnames hdistinct root
  refine ⟨hfound, ?_, fun entries hlist => ?_⟩
  · rw [ofTree, ofTree, hfound, ofPath_eq h hdistinct]
  · obtain ⟨hroot, hsteps⟩ := DocumentListing.root_of_list hlist hnames
    have hinner := FileTree.hasDistinctNames_of_find hdistinct (FileTree.list_eq_ok.1 hlist)
    have hlisting := DocumentListing.ofTree_of_list hlist
    exact ⟨_, _, hlisting, bind_eq_ok.2 ⟨_, hlisting, rfl⟩,
      DocumentListing.discovers hroot hsteps hinner⟩

def listedTree : FileTree :=
  .directory [
    ("PLAYER", .directory [("b.md", .file .empty ⟨0, 0⟩), ("README.md", .file .empty ⟨0, 0⟩)]),
    (".git", .directory [("c.md", .file .empty ⟨0, 0⟩)]),
    ("a.md", .file .empty ⟨1, 0⟩),
    ("notes.txt", .file .empty ⟨0, 0⟩)]

def reversedTree : FileTree :=
  .directory [
    ("notes.txt", .file .empty ⟨0, 0⟩),
    ("a.md", .file .empty ⟨1, 0⟩),
    (".git", .directory [("c.md", .file .empty ⟨0, 0⟩)]),
    ("PLAYER", .directory [("README.md", .file .empty ⟨0, 0⟩), ("b.md", .file .empty ⟨0, 0⟩)])]

theorem ofTree_eq_of_sameTree_reversed :
    SameTree listedTree reversedTree ∧ listedTree.hasStepNames = true ∧
      listedTree.hasDistinctNames = true ∧
      DocumentListing.ofTree reversedTree ⟨"."⟩ = .ok ⟨[⟨"./PLAYER/b.md"⟩, ⟨"./a.md"⟩], 2⟩ ∧
      ofTree reversedTree ⟨"."⟩ = ofTree listedTree ⟨"."⟩ := by
  have hsame : SameTree listedTree reversedTree :=
    .directory (.trans
      (.cons "PLAYER" (.directory (.swap _ _ _)) (FileTree.sameEntries_refl _))
      (FileTree.sameEntries_of_perm (List.reverse_perm _).symm))
  have hlisted : DocumentListing.ofTree listedTree ⟨"."⟩ =
      .ok ⟨[⟨"./PLAYER/b.md"⟩, ⟨"./a.md"⟩], 2⟩ :=
    DocumentListing.ofTree_of_pairwise rfl (by decide +kernel) (by decide +kernel)
  obtain ⟨hfound, hrun, -⟩ := ofTree_eq_of_sameTree hsame (by decide) (by decide) ⟨"."⟩
  exact ⟨hsame, by decide, by decide, hfound ▸ hlisted, hrun.symm⟩

end CompileRun

end NativeCatalogue
