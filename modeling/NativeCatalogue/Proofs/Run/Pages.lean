import NativeCatalogue.Proofs.Run.Accounting
import NativeCatalogue.Proofs.SiteMap.Reading
import NativeCatalogue.Run.Program

/-!
The pages of a run and the natives of its catalogue. Every native has the page of its document; but a
document that a later one replaced keeps its page too, so the site map has an address twice where the
catalogue has one native.
-/

set_option autoImplicit false

namespace NativeCatalogue

namespace CompiledDocument

def entry (d : CompiledDocument) : String × NativeRecord :=
  (d.ns, d.native.record)

def isReplacedBy (later : List CompiledDocument) (d : CompiledDocument) : Bool :=
  later.any (·.isAt d.ns d.native.record.hash)

end CompiledDocument

namespace CompileRun

/-- The documents that no later one replaces. -/
def standing : List CompiledDocument → List CompiledDocument
  | [] => []
  | d :: later => if d.isReplacedBy later then standing later else d :: standing later

/-- The documents that a later one replaces. -/
def replaced : List CompiledDocument → List CompiledDocument
  | [] => []
  | d :: later => if d.isReplacedBy later then d :: replaced later else replaced later

theorem standing_append_replaced (documents : List CompiledDocument) :
    (standing documents ++ replaced documents).Perm documents := by
  induction documents with
  | nil => exact .nil
  | cons d later ih =>
    rw [standing, replaced]
    split
    · exact List.perm_middle.trans (ih.cons d)
    · exact ih.cons d

theorem standing_sublist (documents : List CompiledDocument) : (standing documents).Sublist documents := by
  induction documents with
  | nil => exact .slnil
  | cons d later ih =>
    rw [standing]
    split
    · exact ih.cons d
    · exact ih.cons_cons d

theorem filter_standing (documents : List CompiledDocument) (ns hash : String) :
    (standing documents).filter (·.isAt ns hash) =
      (documents.filter (·.isAt ns hash)).getLast?.toList := by
  induction documents with
  | nil => rfl
  | cons d later ih =>
    by_cases hd : d.isAt ns hash = true
    · obtain ⟨rfl, rfl⟩ := CompiledDocument.isAt_iff.1 hd
      rw [standing, List.filter_cons_of_pos hd]
      cases hlater : later.filter (·.isAt d.ns d.native.record.hash) with
      | nil =>
        have hfree : ¬ d.isReplacedBy later = true := by
          rw [CompiledDocument.isReplacedBy, List.any_eq_true]
          rintro ⟨e, he, hat⟩
          exact List.filter_eq_nil_iff.1 hlater e he hat
        rw [if_neg hfree, List.filter_cons_of_pos hd, ih, hlater]
        rfl
      | cons e more =>
        have htaken : d.isReplacedBy later = true := by
          have he : e ∈ later.filter (·.isAt d.ns d.native.record.hash) := hlater ▸ List.mem_cons_self
          exact List.any_eq_true.2 ⟨e, List.mem_filter.1 he⟩
        rw [if_pos htaken, ih, hlater, List.getLast?_cons_cons]
    · rw [List.filter_cons_of_neg hd, ← ih, standing]
      split
      · rfl
      · exact List.filter_cons_of_neg hd

theorem mem_standing_iff {documents : List CompiledDocument} {e : String × NativeRecord} :
    e ∈ (standing documents).map CompiledDocument.entry ↔
      lastRecord? documents e.1 e.2.hash = some e.2 := by
  have hfilter := filter_standing documents e.1 e.2.hash
  rw [lastRecord?, Option.map_eq_some_iff, List.mem_map]
  constructor
  · rintro ⟨d, hd, rfl⟩
    have hmem : d ∈ (standing documents).filter (·.isAt d.ns d.native.record.hash) :=
      List.mem_filter.2 ⟨hd, CompiledDocument.isAt_iff.2 ⟨rfl, rfl⟩⟩
    exact ⟨d, Option.mem_toList.1 (hfilter ▸ hmem), rfl⟩
  · rintro ⟨d, hd, hrecord⟩
    rw [← Option.mem_toList, ← hfilter, List.mem_filter, CompiledDocument.isAt_iff] at hd
    exact ⟨d, hd.1, Prod.ext hd.2.1 hrecord⟩

theorem nodup_standing (documents : List CompiledDocument) :
    ((standing documents).map CompiledDocument.entry).Nodup := by
  induction documents with
  | nil => exact .nil
  | cons d later ih =>
    rw [standing]
    split
    · exact ih
    · rename_i hfree
      refine List.nodup_cons.2 ⟨fun hmem => hfree ?_, ih⟩
      obtain ⟨e, he, hentry⟩ := List.mem_map.1 hmem
      obtain ⟨hns, hrecord⟩ := Prod.mk.inj hentry
      exact List.any_eq_true.2 ⟨e, (standing_sublist later).subset he,
        CompiledDocument.isAt_iff.2 ⟨hns, congrArg NativeRecord.hash hrecord⟩⟩

theorem exists_standing_of_mem {documents : List CompiledDocument} {d : CompiledDocument}
    (h : d ∈ documents) : ∃ e ∈ standing documents, e.isAt d.ns d.native.record.hash = true := by
  have hmem : d ∈ documents.filter (·.isAt d.ns d.native.record.hash) :=
    List.mem_filter.2 ⟨h, CompiledDocument.isAt_iff.2 ⟨rfl, rfl⟩⟩
  obtain ⟨e, he⟩ := Option.isSome_iff_exists.1 (List.getLast?_isSome.2 (List.ne_nil_of_mem hmem))
  rw [← Option.mem_toList, ← filter_standing] at he
  exact ⟨e, List.mem_filter.1 he⟩

theorem keepsHashes_insertAll (documents : List CompiledDocument) :
    (insertAll ∅ documents).KeepsHashes := by
  intro ns hash r hget
  obtain ⟨d, -, -, -, hhash⟩ := document_of_get? hget
  exact hhash

theorem standing_perm (documents : List CompiledDocument) :
    ((standing documents).map CompiledDocument.entry).Perm (insertAll ∅ documents).toList := by
  have hkeeps := keepsHashes_insertAll documents
  refine (List.perm_ext_iff_of_nodup (nodup_standing documents) hkeeps.nodup_toList).2 fun e => ?_
  rw [hkeeps.mem_toList_iff, get?_insertAll, mem_standing_iff]
  exact Iff.of_eq (congrArg (· = some e.2) Option.or_none.symm)

def nativeAddresses (base : String) (r : CompileRun) : List String :=
  r.catalogue.toList.map fun e => SitePage.addressOf base e.2.hash

/-- How the pages of a run and the natives of its catalogue belong together. -/
structure PagesOfNatives (base : String) (r : CompileRun) : Prop where
  natives : ((standing r.documents).map CompiledDocument.entry).Perm r.catalogue.toList
  /-- There is a page for each native, and one more for each document that was replaced. -/
  addresses : ((r.pages base).map SitePage.address).Perm
    (r.nativeAddresses base ++ (replaced r.documents).map fun d => (d.page base).address)
  counted : (replaced r.documents).length = r.duplicates
  /-- No native is without a page, and no page is of anything but a native. -/
  reached : ∀ address, address ∈ (r.pages base).map SitePage.address ↔ address ∈ r.nativeAddresses base
  /-- There are just the pages of the natives if no document was replaced, and only then. -/
  once : ((r.pages base).map SitePage.address).Perm (r.nativeAddresses base) ↔ r.duplicates = 0

theorem map_address_pages (base : String) (r : CompileRun) :
    (r.pages base).map SitePage.address = r.documents.map fun d => (d.page base).address :=
  List.map_map

section Pages

variable {r : CompileRun} (hcatalogue : r.catalogue = insertAll ∅ r.documents)

include hcatalogue

theorem standing_perm_nativeAddresses (base : String) :
    ((standing r.documents).map fun d => (d.page base).address).Perm (r.nativeAddresses base) := by
  have h := (standing_perm r.documents).map fun e => SitePage.addressOf base e.2.hash
  rwa [List.map_map, ← hcatalogue] at h

theorem pages_perm (base : String) : ((r.pages base).map SitePage.address).Perm
    (r.nativeAddresses base ++ (replaced r.documents).map fun d => (d.page base).address) := by
  have hparts := ((standing_append_replaced r.documents).map fun d => (d.page base).address).symm
  rw [List.map_append] at hparts
  rw [map_address_pages]
  exact hparts.trans ((standing_perm_nativeAddresses hcatalogue base).append_right _)

theorem length_replaced (hbalanced : r.Balanced) : (replaced r.documents).length = r.duplicates := by
  have hlength := (standing_append_replaced r.documents).length_eq
  have hstanding := (standing_perm r.documents).length_eq
  rw [← hcatalogue, List.length_map, Catalogue.length_toList] at hstanding
  rw [List.length_append, hstanding, ← hbalanced] at hlength
  exact Nat.add_left_cancel hlength

theorem mem_pages_iff (base address : String) : address ∈ (r.pages base).map SitePage.address ↔
    address ∈ r.nativeAddresses base := by
  refine ⟨fun h => ?_, fun h => (pages_perm hcatalogue base).symm.subset (List.mem_append_left _ h)⟩
  rw [map_address_pages] at h
  obtain ⟨d, hd, rfl⟩ := List.mem_map.1 h
  obtain ⟨e, he, hat⟩ := exists_standing_of_mem hd
  refine (standing_perm_nativeAddresses hcatalogue base).subset (List.mem_map.2 ⟨e, he, ?_⟩)
  exact congrArg (SitePage.addressOf base) (CompiledDocument.isAt_iff.1 hat).2

theorem pagesOfNatives (hbalanced : r.Balanced) (base : String) : PagesOfNatives base r := by
  have hperm := pages_perm hcatalogue base
  have hcount := length_replaced hcatalogue hbalanced
  refine ⟨hcatalogue ▸ standing_perm r.documents, hperm, hcount, mem_pages_iff hcatalogue base, ?_⟩
  constructor
  · intro h
    have hlength := (h.symm.trans hperm).length_eq
    rw [List.length_append, List.length_map] at hlength
    omega
  · intro hnone
    rw [hnone, List.length_eq_zero_iff] at hcount
    rwa [hcount, List.map_nil, List.append_nil] at hperm

end Pages

end CompileRun

/-- The site map that is printed for a directory reads back as the pages of its documents. These are one for
    each native of the catalogue, and one more for each document that a later one replaced. -/
theorem Surroundings.sitemap_pages {s : Surroundings} {directory : Path} {r : CompileRun}
    (h : CompileRun.ofTree s.files directory = .ok r) (settings : Settings) (base : String) :
    (∃ map listed, (s.sitemap settings directory (some base)).output = map ++ "\n" ∧
      SiteMap.read? map = some listed ∧
      listed.map ListedPage.address = (r.pages base).map SitePage.address) ∧
    r.PagesOfNatives base := by
  constructor
  · refine ⟨SiteMap.render (r.pages base), _, ?_, SiteMap.read?_render _, List.map_map⟩
    rw [Surroundings.sitemap, h]
    rfl
  · obtain ⟨found, -, h⟩ := bind_eq_ok.1 h
    cases h
    refine CompileRun.pagesOfNatives ?_ (CompileRun.balanced_ofResults _ _) base
    rw [CompileRun.catalogue_ofResults, CompileRun.documents_ofResults]

namespace CompileRun

def repeatedTree : FileTree :=
  .directory [
    ("CFX", .directory [
      ("A.md", .file "## FIRST\n\n```c\n// 0x1\nvoid FIRST();\n```\n".toUTF8 ⟨0, 0⟩),
      ("B.md", .file "## SECOND\n\n```c\n// 0x1\nvoid SECOND();\n```\n".toUTF8 ⟨0, 0⟩)]),
    ("ENTITY", .directory [
      ("C.md", .file "## THIRD\n\n```c\n// 0x1\nvoid THIRD();\n```\n".toUTF8 ⟨0, 0⟩)])]

def repeatedRun : CompileRun :=
  ofResults 0 (resultsOf repeatedTree [⟨"./CFX/A.md"⟩, ⟨"./CFX/B.md"⟩, ⟨"./ENTITY/C.md"⟩])

theorem ofTree_repeatedTree : ofTree repeatedTree ⟨"."⟩ = .ok repeatedRun := by
  refine bind_eq_ok.2 ⟨⟨[⟨"./CFX/A.md"⟩, ⟨"./CFX/B.md"⟩, ⟨"./ENTITY/C.md"⟩], 0⟩, ?_, rfl⟩
  exact DocumentListing.ofTree_of_pairwise rfl (by decide +kernel) (by decide +kernel)

theorem repeatedRun_eq :
    (repeatedRun.pages "u").map SitePage.address = ["u?_0x1", "u?_0x1", "u?_0x1"] ∧
      repeatedRun.nativeAddresses "u" = ["u?_0x1", "u?_0x1"] ∧
      repeatedRun.catalogue.counts = [("CFX", 1), ("ENTITY", 1)] ∧ repeatedRun.duplicates = 1 := by
  decide +kernel

end CompileRun

theorem Surroundings.sitemap_pages_repeated :
    CompileRun.ofTree CompileRun.repeatedTree ⟨"."⟩ = .ok CompileRun.repeatedRun ∧
      (∃ map listed,
        (sitemap ⟨CompileRun.repeatedTree, [], ⟨0, 0⟩⟩ {} ⟨"."⟩ (some "u")).output = map ++ "\n" ∧
        SiteMap.read? map = some listed ∧
        listed.map ListedPage.address = ["u?_0x1", "u?_0x1", "u?_0x1"]) ∧
      CompileRun.repeatedRun.duplicates = 1 ∧ CompileRun.repeatedRun.PagesOfNatives "u" := by
  have hrun := CompileRun.ofTree_repeatedTree
  obtain ⟨hthree, -, -, hone⟩ := CompileRun.repeatedRun_eq
  obtain ⟨⟨map, listed, houtput, hread, haddresses⟩, hpages⟩ :=
    sitemap_pages (s := ⟨CompileRun.repeatedTree, [], ⟨0, 0⟩⟩) hrun {} "u"
  exact ⟨hrun, ⟨map, listed, houtput, hread, haddresses.trans hthree⟩, hone, hpages⟩

/-- Two natives are in the catalogue, but there are three pages. -/
theorem CompileRun.replaced_keeps_page :
    ∃ run, ofTree repeatedTree ⟨"."⟩ = .ok run ∧ run.catalogue.counts = [("CFX", 1), ("ENTITY", 1)] ∧
      ¬ ((run.pages "u").map SitePage.address).Perm
        (run.catalogue.toList.map fun e => SitePage.addressOf "u" e.2.hash) := by
  obtain ⟨hthree, htwo, hcounts, -⟩ := repeatedRun_eq
  refine ⟨repeatedRun, ofTree_repeatedTree, hcounts, fun h => ?_⟩
  have hlength := h.length_eq
  rw [hthree] at hlength
  exact absurd (hlength.trans (congrArg List.length htwo)) (by decide)

end NativeCatalogue
