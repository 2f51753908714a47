import NativeCatalogue.Proofs.Compilation.Document
import NativeCatalogue.Proofs.Compilation.Documents
import NativeCatalogue.Proofs.Compilation.Record
import NativeCatalogue.Proofs.Run.Merging

set_option autoImplicit false

namespace NativeCatalogue

namespace CompiledDocument

theorem ofPath_eq_ok {t : FileTree} {p : Path} {d : CompiledDocument} (h : ofPath t p = .ok d) :
    ∃ text m c, t.readText p = .ok text ∧ CompiledNative.frontMatterOf (.parse text) = .ok m ∧
      CompiledNative.ofText text = .ok c ∧ d.path = p ∧
      d.ns = (m.ns <|> p.impliedNamespace?).getD "UNKNOWN" ∧
      d.native.record = putNamespace d.ns c.record := by
  unfold ofPath at h
  split at h
  · cases h
  · rename_i text htext
    split at h
    · cases h
    · rename_i c hc
      cases h
      obtain ⟨m, code, parameters, hm, -, -, -, hrecord⟩ := CompiledNative.ofDocument_eq_ok hc
      have hfrontMatter : c.record.frontMatter = m := by
        rw [hrecord, CompiledNative.frontMatter_withSections]
        exact CompiledNative.frontMatter_withHashComment _ code
      refine ⟨text, m, c, htext, hm, hc, rfl, ?_, rfl⟩
      rw [← hfrontMatter]
      rfl

theorem path_of_failure {t : FileTree} {p : Path} {e : DocumentFailure} (h : ofPath t p = .error e) :
    e.path = p := by
  unfold ofPath at h
  split at h
  · cases h
    rfl
  · split at h
    · cases h
      rfl
    · cases h

end CompiledDocument

namespace CompileRun

section Failing

variable {t : FileTree} (documents : List Path)

def resultsOf (t : FileTree) (documents : List Path) :
    List (Except DocumentFailure CompiledDocument) :=
  documents.map (CompiledDocument.ofPath t)

theorem mem_compiledOf {d : CompiledDocument} :
    d ∈ compiledOf (resultsOf t documents) ↔ ∃ p ∈ documents, CompiledDocument.ofPath t p = .ok d := by
  simp only [compiledOf, resultsOf, List.mem_filterMap, List.mem_map, exists_exists_and_eq_and]
  refine exists_congr fun p => and_congr_right fun _ => ?_
  cases CompiledDocument.ofPath t p <;> simp [Except.toOption]

theorem mem_paths_failuresOf {p : Path} (hp : p ∈ documents) :
    p ∈ (failuresOf (resultsOf t documents)).map (·.path) ↔
      ∃ e, CompiledDocument.ofPath t p = .error e := by
  constructor
  · intro hmem
    obtain ⟨e, he, rfl⟩ := List.mem_map.1 hmem
    obtain ⟨result, hresult, hfailure⟩ := List.mem_filterMap.1 he
    obtain ⟨q, -, rfl⟩ := List.mem_map.1 hresult
    split at hfailure
    · rename_i hq
      cases hfailure
      rw [CompiledDocument.path_of_failure hq]
      exact ⟨e, hq⟩
    · cases hfailure
  · rintro ⟨e, he⟩
    refine List.mem_map.2 ⟨e, List.mem_filterMap.2 ⟨.error e, ?_, rfl⟩, ?_⟩
    · rw [← he]
      exact List.mem_map_of_mem hp
    · exact CompiledDocument.path_of_failure he

theorem results_of_kept {u : FileTree} {kept : Path → Bool}
    (hkept : ∀ p ∈ documents, kept p = true →
      ∃ d, CompiledDocument.ofPath t p = .ok d ∧ CompiledDocument.ofPath u p = .ok d)
    (hrest : ∀ p ∈ documents, ¬ kept p = true → ∃ e, CompiledDocument.ofPath t p = .error e) :
    compiledOf (resultsOf u (documents.filter kept)) = compiledOf (resultsOf t documents) ∧
      failuresOf (resultsOf u (documents.filter kept)) = [] := by
  induction documents with
  | nil => exact ⟨rfl, rfl⟩
  | cons p documents ih =>
    obtain ⟨hcompiled, hfailures⟩ := ih
      (fun q hq => hkept q (List.mem_cons_of_mem _ hq))
      (fun q hq => hrest q (List.mem_cons_of_mem _ hq))
    by_cases hp : kept p = true
    · obtain ⟨d, ht, hu⟩ := hkept p List.mem_cons_self hp
      rw [List.filter_cons_of_pos hp]
      simp only [resultsOf, compiledOf, failuresOf] at hcompiled hfailures ⊢
      simp only [List.map_cons, ht, hu, List.filterMap_cons, Except.toOption, hcompiled, hfailures,
        and_self]
    · obtain ⟨e, ht⟩ := hrest p List.mem_cons_self hp
      rw [List.filter_cons_of_neg hp]
      simp only [resultsOf, compiledOf] at hcompiled ⊢
      simp only [List.map_cons, ht, List.filterMap_cons, Except.toOption, hcompiled]
      exact ⟨trivial, hfailures⟩

theorem ofTree_withoutFailures {root : Path} {found : DocumentListing}
    (hfound : DocumentListing.ofTree t root = .ok found) (hnames : t.hasStepNames = true)
    {removed : List Path}
    (hremoved : removed = (failuresOf (resultsOf t found.documents)).map (·.path)) :
    ∃ others, ofTree (t.removeUnder root removed) root = .ok others ∧
      others.catalogue = insertAll ∅ (compiledOf (resultsOf t found.documents)) ∧
      others.documents = compiledOf (resultsOf t found.documents) ∧ others.failures = [] := by
  have hmem : ∀ p ∈ found.documents, DocumentListing.isKept removed p = true ↔
      ¬ ∃ e, CompiledDocument.ofPath t p = .error e := by
    intro p hp
    rw [← mem_paths_failuresOf found.documents hp, ← hremoved, DocumentListing.isKept,
      Bool.not_eq_true', ← Bool.not_eq_true, List.contains_iff_mem]
  have hkeeps : ∀ p ∈ found.documents, DocumentListing.isKept removed p = true →
      ∃ d, CompiledDocument.ofPath t p = .ok d ∧
        CompiledDocument.ofPath (t.removeUnder root removed) p = .ok d := by
    intro p hp hthere
    cases hd : CompiledDocument.ofPath t p with
    | error e => exact absurd ⟨e, hd⟩ ((hmem p hp).1 hthere)
    | ok d =>
      have habsent : p ∉ removed := by
        intro hcontra
        rw [hremoved, mem_paths_failuresOf found.documents hp, hd] at hcontra
        obtain ⟨e, he⟩ := hcontra
        cases he
      exact ⟨d, rfl, CompiledDocument.ofPath_removeUnder hfound hnames hp habsent hd⟩
  have hdrops : ∀ p ∈ found.documents, ¬ DocumentListing.isKept removed p = true →
      ∃ e, CompiledDocument.ofPath t p = .error e := by
    intro p hp hgone
    rwa [hmem p hp, not_not] at hgone
  obtain ⟨left, hleft, hkept⟩ := DocumentListing.ofTree_removeUnder hfound removed
  obtain ⟨hcompiled, hfailures⟩ := results_of_kept found.documents hkeeps hdrops
  rw [← hkept] at hcompiled hfailures
  refine ⟨_, bind_eq_ok.2 ⟨left, hleft, rfl⟩, ?_, ?_, ?_⟩
  · rw [← hcompiled]
    exact catalogue_ofResults _ _
  · rw [← hcompiled]
    exact documents_ofResults _ _
  · rw [← hfailures]
    exact failures_ofResults _ _

end Failing

/-- How a run accounts for the documents found under a directory. -/
structure Accounts (t : FileTree) (root : Path) (found : DocumentListing) (run : CompileRun) :
    Prop where
  /-- The compiled documents are those that give a native, in the order of their paths. -/
  ordered : found.documents.Pairwise (fun a b => a.le b = true) ∧
    run.documents = compiledOf (resultsOf t found.documents)
  complete : run.documents.length + run.failures.length = found.documents.length
  balanced : run.catalogue.size + run.duplicates = run.documents.length
  /-- At each place stands the last document with its namespace and hash. -/
  last : ∀ ns hash, run.catalogue.get? ns hash = lastRecord? run.documents ns hash
  /-- Each record stands under its own hash and in its own namespace, which is that of the front matter,
      or else that of the directory. -/
  own : ∀ ns records hash r, (ns, records) ∈ run.catalogue.namespaces.toList →
    (hash, r) ∈ records.toList → r.hash = hash ∧ r.frontMatter.ns = some ns ∧
      ∃ d ∈ run.documents, ∃ text m c, t.readText d.path = .ok text ∧
        CompiledNative.frontMatterOf (.parse text) = .ok m ∧ CompiledNative.ofText text = .ok c ∧
        ns = (m.ns <|> d.path.impliedNamespace?).getD "UNKNOWN" ∧
        r = CompiledDocument.putNamespace ns c.record
  /-- Without the files that fail the run gives the same. -/
  rest : t.hasStepNames = true →
    ∃ others, ofTree (t.removeUnder root (run.failures.map (·.path))) root = .ok others ∧
      others.catalogue = run.catalogue ∧ others.documents = run.documents ∧ others.failures = []

theorem own_of_mem {t : FileTree} {documents : List Path} {ns hash : String}
    {records : SortedMap String NativeRecord} {r : NativeRecord} {c : Catalogue}
    (hc : c = insertAll ∅ (compiledOf (resultsOf t documents)))
    (hns : (ns, records) ∈ c.namespaces.toList) (hr : (hash, r) ∈ records.toList) :
    r.hash = hash ∧ r.frontMatter.ns = some ns ∧
      ∃ d ∈ compiledOf (resultsOf t documents), ∃ text m c, t.readText d.path = .ok text ∧
        CompiledNative.frontMatterOf (.parse text) = .ok m ∧ CompiledNative.ofText text = .ok c ∧
        ns = (m.ns <|> d.path.impliedNamespace?).getD "UNKNOWN" ∧
        r = CompiledDocument.putNamespace ns c.record := by
  have hget := Catalogue.get?_of_mem hns hr
  rw [hc] at hget
  obtain ⟨d, hd, rfl, rfl, hhash⟩ := document_of_get? hget
  obtain ⟨p, -, hpath⟩ := (mem_compiledOf documents).1 hd
  obtain ⟨text, m, native, htext, hm, hnative, rfl, hns, hrecord⟩ :=
    CompiledDocument.ofPath_eq_ok hpath
  refine ⟨hhash, ?_, d, hd, text, m, native, htext, hm, hnative, hns, hrecord⟩
  rw [hrecord]
  rfl

theorem accounts_ofTree {t : FileTree} {root : Path} {run : CompileRun}
    (h : ofTree t root = .ok run) :
    ∃ found, DocumentListing.ofTree t root = .ok found ∧ Accounts t root found run := by
  obtain ⟨found, hfound, h⟩ := bind_eq_ok.1 h
  cases h
  obtain ⟨entries, -, hsorted⟩ := DocumentListing.ofTree_eq_ok hfound
  have hdocuments := documents_ofResults found.skipped (resultsOf t found.documents)
  have hcatalogue := catalogue_ofResults found.skipped (resultsOf t found.documents)
  refine ⟨found, hfound, ⟨?_, hdocuments⟩, ?_, balanced_ofResults _ _, ?_, ?_, ?_⟩
  · rw [hsorted]
    exact List.pairwise_mergeSort Path.le_trans Path.le_total _
  · exact (length_ofResults _ _).trans (List.length_map _)
  · intro ns hash
    change (ofResults _ (resultsOf t found.documents)).catalogue.get? ns hash =
      lastRecord? (ofResults _ (resultsOf t found.documents)).documents ns hash
    rw [hcatalogue, hdocuments, get?_insertAll]
    exact Option.or_none
  · intro ns records hash r hns hr
    obtain ⟨hhash, hnamespace, d, hd, h⟩ := own_of_mem hcatalogue hns hr
    exact ⟨hhash, hnamespace, d, hdocuments.symm ▸ hd, h⟩
  · intro hnames
    obtain ⟨others, hothers, hsame, hcompiled, hfailures⟩ := ofTree_withoutFailures hfound hnames
      (congrArg (List.map (·.path)) (failures_ofResults found.skipped (resultsOf t found.documents)))
    exact ⟨others, hothers, hsame.trans hcatalogue.symm, hcompiled.trans hdocuments.symm, hfailures⟩

def sampleEntries : List (String × FileTree) :=
  [("PLAYER", .directory [
    ("b.md", .file "## WAIT\n\n```c\n// 0x1\nvoid WAIT(int ms);\n```\n".toUTF8 ⟨0, 0⟩),
    ("c.md", .file "## NOTHING\n".toUTF8 ⟨0, 0⟩)]),
  ("a.md",
    .file "---\nns: PLAYER\n---\n## WAIT\n\n```c\n// 0x1\nvoid WAIT();\n```\n".toUTF8 ⟨0, 0⟩)]

def sampleTree : FileTree :=
  .directory sampleEntries

def sampleListing : DocumentListing :=
  .ofEntries ⟨"."⟩ sampleEntries

theorem accounts_ofTree_sample :
    ∃ run, ofTree sampleTree ⟨"."⟩ = .ok run ∧ sampleTree.hasStepNames = true ∧
      (run.documents.length, run.failures.length, run.duplicates) = (2, 1, 1) ∧
      ∃ found, DocumentListing.ofTree sampleTree ⟨"."⟩ = .ok found ∧
        Accounts sampleTree ⟨"."⟩ found run := by
  have hsorted : sampleListing.documents.mergeSort Path.le = sampleListing.documents :=
    List.mergeSort_of_pairwise (by decide +kernel)
  have hfound : DocumentListing.ofTree sampleTree ⟨"."⟩ = .ok sampleListing := by
    refine bind_eq_ok.2 ⟨sampleEntries, rfl, ?_⟩
    change Except.ok sampleListing.sorted = _
    rw [DocumentListing.sorted, hsorted]
  have hrun : ofTree sampleTree ⟨"."⟩ = .ok (ofResults sampleListing.skipped
      (resultsOf sampleTree sampleListing.documents)) :=
    bind_eq_ok.2 ⟨sampleListing, hfound, rfl⟩
  exact ⟨_, hrun, by decide, by decide +kernel, accounts_ofTree hrun⟩

end CompileRun

end NativeCatalogue
