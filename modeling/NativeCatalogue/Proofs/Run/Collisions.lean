import NativeCatalogue.Proofs.Run.Accounting
import NativeCatalogue.Proofs.Run.Regeneration

/-!
When two documents meet. Their signatures share a group of a table if their hashes are one number, and
the native of the second takes the place of the first one's in a catalogue if moreover the hashes are
spelled alike: a catalogue goes by the text of a hash, in which zeros may lead and letters be capitals.
-/

set_option autoImplicit false

namespace NativeCatalogue

open SignatureGroups (hashes)

def Hash.Coincide (a b : String) : Prop :=
  ∃ hash, Hash.parse a = .ok hash ∧ Hash.parse b = .ok hash ∧ Hash.Alike a b

namespace SignatureTable

def InGroup (t : SignatureTable) (place : Nat) (hash : UInt64) (s : Signature) : Prop :=
  ∃ signatures, t.toList[place]? = some (hash, signatures) ∧ s ∈ signatures

theorem inGroup_of_has {t : SignatureTable} (h : t.Valid) {hash : UInt64} {s : Signature}
    (hhas : t.has hash s = true) : ∃ place, t.InGroup place hash s := by
  rw [has_eq h] at hhas
  cases hget : SignatureGroups.get? t.toList hash with
  | none => simp [hget] at hhas
  | some signatures =>
    obtain ⟨place, hplace⟩ := List.getElem?_of_mem (SignatureGroups.mem_of_get? hget)
    exact ⟨place, signatures, hplace, by simpa [hget] using hhas⟩

theorem InGroup.place_eq_iff {t : SignatureTable} (h : t.Valid) {p q : Nat} {a b : UInt64}
    {r s : Signature} (hp : t.InGroup p a r) (hq : t.InGroup q b s) : p = q ↔ a = b := by
  obtain ⟨as, hp, -⟩ := hp
  obtain ⟨bs, hq, -⟩ := hq
  have hpHash : (hashes t.toList)[p]? = some a := by simp [hashes, hp]
  have hqHash : (hashes t.toList)[q]? = some b := by simp [hashes, hq]
  constructor
  · rintro rfl
    exact Option.some.inj (hpHash.symm.trans hqHash)
  · rintro rfl
    rw [← h.place] at hpHash hqHash
    exact Option.some.inj (hpHash.symm.trans hqHash)

theorem valid_addEntries {t : SignatureTable} (h : t.Valid) (n : Nat)
    (entries : List (UInt64 × Signature)) : (addEntries (t, n) entries).1.Valid := by
  induction entries generalizing t n with
  | nil => exact h
  | cons e entries ih => exact ih (valid_insert h e.1 e.2) _

end SignatureTable

namespace CompiledDocument

theorem coincide_iff {first second : CompiledDocument} (hfirst : first.IsCompiled)
    (hsecond : second.IsCompiled) :
    Hash.Coincide first.native.record.hash second.native.record.hash ↔
      first.native.record.hash = second.native.record.hash := by
  constructor
  · rintro ⟨hash, ha, hb, halike⟩
    obtain ⟨as, has, hfirstHash⟩ := hashText_native hfirst
    obtain ⟨bs, hbs, hsecondHash⟩ := hashText_native hsecond
    rw [hfirstHash, hsecondHash] at halike ⊢
    rw [hfirstHash] at ha
    rw [hsecondHash] at hb
    rw [HashComment.hashText_inj has hbs ha hb halike]
  · intro he
    obtain ⟨hash, hhash⟩ := parse_of_isCompiled hfirst
    exact ⟨hash, hhash, he ▸ hhash, by rw [he]; rfl⟩

theorem mem_entries {documents : List CompiledDocument} {d : CompiledDocument} (hd : d ∈ documents)
    (hmanual : d.native.record.manualHash = true) {hash : UInt64}
    (hhash : Hash.parse d.native.record.hash = .ok hash) :
    (hash, Signature.ofPrototype d.native.prototype) ∈ entries documents := by
  refine List.mem_filterMap.2 ⟨d.native, List.mem_map_of_mem hd, ?_⟩
  simp [CompiledNative.entry?, hmanual, hhash, Except.toOption]

end CompiledDocument

namespace CompileRun

def Holds (r : CompileRun) (d : CompiledDocument) : Prop :=
  r.catalogue.get? d.ns d.native.record.hash = some d.native.record

section Second

variable {r : CompileRun} {first second : CompiledDocument}

theorem holds_add (r : CompileRun) (d : CompiledDocument) : (r.add (.ok d)).Holds d :=
  Catalogue.get?_insert_self _ _ _

theorem holds_add_of_ne (h : r.Holds first)
    (hne : second.native.record.hash ≠ first.native.record.hash) :
    (r.add (.ok second)).Holds first :=
  (Catalogue.get?_insert_of_ne _ _ _ fun he => hne he.2).trans h

theorem duplicates_add (r : CompileRun) (d : CompiledDocument) : (r.add (.ok d)).duplicates =
    if (r.catalogue.get? d.ns d.native.record.hash).isSome then r.duplicates + 1
    else r.duplicates := rfl

theorem duplicates_add_of_eq (h : r.Holds first) (hns : first.ns = second.ns)
    (hhash : first.native.record.hash = second.native.record.hash) :
    (r.add (.ok second)).duplicates = r.duplicates + 1 := by
  rw [Holds, hns, hhash] at h
  rw [duplicates_add, h, Option.isSome_some, if_pos rfl]

theorem duplicates_pair (hns : first.ns = second.ns) (skipped : Nat) :
    (ofResults skipped [.ok first, .ok second]).duplicates = 1 ↔
      first.native.record.hash = second.native.record.hash := by
  refine ⟨fun h => ?_, duplicates_add_of_eq (holds_add { skipped } first) hns⟩
  by_contra hne
  -- With another hash the second finds its place free: only the first is in the catalogue.
  have hfree : (add { skipped } (.ok first)).catalogue.get? second.ns second.native.record.hash =
      none := Catalogue.get?_insert_of_ne _ _ _ fun he => hne he.2
  have hnone : (add { skipped } (.ok first)).duplicates = 0 := rfl
  change ((add { skipped } (.ok first)).add (.ok second)).duplicates = 1 at h
  rw [duplicates_add, hfree, hnone] at h
  simp at h

theorem replaces_iff (h : r.Holds first) (hns : first.ns = second.ns) :
    (r.add (.ok second)).catalogue.get? first.ns first.native.record.hash =
        some second.native.record ↔
      first.native.record.hash = second.native.record.hash := by
  constructor
  · intro hsecond
    by_contra hne
    have hfirst : (r.add (.ok second)).Holds first := holds_add_of_ne h fun he => hne he.symm
    rw [Holds, hsecond, Option.some.injEq] at hfirst
    exact hne (congrArg NativeRecord.hash hfirst).symm
  · intro hhash
    rw [hns, hhash]
    exact holds_add r second

end Second

theorem compiled_of_get? {t : FileTree} {root : Path} {run : CompileRun} (h : ofTree t root = .ok run)
    {ns hash : String} {r : NativeRecord} (hget : run.catalogue.get? ns hash = some r) :
    ∃ d : CompiledDocument, d.IsCompiled ∧ d.native.record = r ∧ r.hash = hash := by
  obtain ⟨found, -, h⟩ := bind_eq_ok.1 h
  cases h
  rw [catalogue_ofResults] at hget
  obtain ⟨d, hd, -, hrecord, hhash⟩ := document_of_get? hget
  obtain ⟨p, -, hp⟩ := (mem_compiledOf found.documents).1 hd
  exact ⟨d, ⟨t, p, hp⟩, hrecord, hhash⟩

def Grouped (t : SignatureTable) (documents : List CompiledDocument)
    (first second : CompiledDocument) : Prop :=
  ∃ a b table added p q, Hash.parse first.native.record.hash = .ok a ∧
    Hash.parse second.native.record.hash = .ok b ∧
    t.collect (documents.map CompiledDocument.native) = .ok (table, added) ∧
    (∀ hash s, table.has hash s = true ↔
      t.has hash s = true ∨ (hash, s) ∈ CompiledDocument.entries documents) ∧
    table.InGroup p a (.ofPrototype first.native.prototype) ∧
    table.InGroup q b (.ofPrototype second.native.prototype) ∧ (p = q ↔ a = b)

theorem grouped_of_mem {first second : CompiledDocument}
    (hfirst : first.native.record.manualHash = true)
    (hsecond : second.native.record.manualHash = true) {t : SignatureTable}
    {documents : List CompiledDocument} (h : t.Valid) (hcompiled : ∀ d ∈ documents, d.IsCompiled)
    (hfirstMem : first ∈ documents) (hsecondMem : second ∈ documents) :
    Grouped t documents first second := by
  obtain ⟨a, ha⟩ := CompiledDocument.parse_of_isCompiled (hcompiled _ hfirstMem)
  obtain ⟨b, hb⟩ := CompiledDocument.parse_of_isCompiled (hcompiled _ hsecondMem)
  have hvalid := SignatureTable.valid_addEntries h 0 (CompiledDocument.entries documents)
  have hhas := SignatureTable.has_addEntries h 0 (CompiledDocument.entries documents)
  obtain ⟨p, hp⟩ := SignatureTable.inGroup_of_has hvalid
    ((hhas _).2 (.inr (CompiledDocument.mem_entries hfirstMem hfirst ha)))
  obtain ⟨q, hq⟩ := SignatureTable.inGroup_of_has hvalid
    ((hhas _).2 (.inr (CompiledDocument.mem_entries hsecondMem hsecond hb)))
  exact ⟨a, b, _, _, p, q, ha, hb,
    SignatureTable.collect_eq (CompiledDocument.hasHash_natives hcompiled),
    fun hash s => hhas (hash, s), hp, hq, hp.place_eq_iff hvalid hq⟩

/-- What two documents of one namespace do to each other. -/
structure Meet (first second : CompiledDocument) : Prop where
  /-- In a table their signatures share a group if their hashes are one number. -/
  grouped : ∀ (t : SignatureTable) (documents : List CompiledDocument), t.Valid →
    (∀ d ∈ documents, d.IsCompiled) → first ∈ documents → second ∈ documents →
      Grouped t documents first second
  /-- In a catalogue the second takes the place of the first if the hashes are spelled alike too. -/
  replaced : ∀ r : CompileRun, r.Holds first →
    ((r.add (.ok second)).catalogue.get? first.ns first.native.record.hash =
        some second.native.record ↔
      Hash.Coincide first.native.record.hash second.native.record.hash)
  counted : ∀ r : CompileRun, r.Holds first →
    Hash.Coincide first.native.record.hash second.native.record.hash →
      (r.add (.ok second)).duplicates = r.duplicates + 1
  kept : ∀ r : CompileRun, r.Holds first →
    ¬ Hash.Coincide first.native.record.hash second.native.record.hash →
      (r.add (.ok second)).Holds first ∧ (r.add (.ok second)).Holds second
  alone : ∀ skipped, (ofResults skipped [.ok first, .ok second]).duplicates = 1 ↔
    Hash.Coincide first.native.record.hash second.native.record.hash

/-- Two documents of one namespace, and the records of all documents of one namespace. -/
theorem meet_of_compiled :
    (∀ first second : CompiledDocument, first.IsCompiled → second.IsCompiled →
      first.ns = second.ns → first.native.record.manualHash = true →
      second.native.record.manualHash = true → Meet first second) ∧
    ∀ (t : FileTree) (root : Path) (run : CompileRun) (ns : String)
      (records : SortedMap String NativeRecord), ofTree t root = .ok run →
        (ns, records) ∈ run.catalogue.namespaces.toList →
        ∀ e ∈ records.toList, ∀ e' ∈ records.toList, Hash.Coincide e.2.hash e'.2.hash → e = e' := by
  constructor
  · intro first second hfirst hsecond hns hfirstManual hsecondManual
    have hiff := CompiledDocument.coincide_iff hfirst hsecond
    refine {
      grouped := fun t documents => grouped_of_mem hfirstManual hsecondManual
      replaced := fun r hr => (replaces_iff hr hns).trans hiff.symm
      counted := fun r hr h => duplicates_add_of_eq hr hns (hiff.1 h)
      kept := fun r hr h => ⟨holds_add_of_ne hr fun he => h (hiff.2 he.symm), holds_add r second⟩
      alone := fun skipped => ?_ }
    rw [hiff]
    exact duplicates_pair hns skipped
  · intro t root run ns records hrun hns e he e' he' hcoincide
    have hget := Catalogue.get?_of_mem hns he
    have hget' := Catalogue.get?_of_mem hns he'
    obtain ⟨d, hd, hrecord, hhash⟩ := compiled_of_get? hrun hget
    obtain ⟨d', hd', hrecord', hhash'⟩ := compiled_of_get? hrun hget'
    rw [← hrecord, ← hrecord', CompiledDocument.coincide_iff hd hd', hrecord, hrecord', hhash,
      hhash'] at hcoincide
    rw [hcoincide, hget', Option.some.injEq] at hget
    exact Prod.ext hcoincide hget.symm

def capitalTree : FileTree :=
  .directory [("CFX", .directory [
    ("A.md", .file "## FIRST\n\n```c\n// 0xA\nvoid FIRST();\n```\n".toUTF8 ⟨0, 0⟩),
    ("B.md", .file "## SECOND\n\n```c\n// 0xa\nvoid SECOND();\n```\n".toUTF8 ⟨0, 0⟩)])]

def capitalRun : CompileRun :=
  ofResults 0 (resultsOf capitalTree [⟨"./CFX/A.md"⟩, ⟨"./CFX/B.md"⟩])

theorem ofTree_capitalTree : ofTree capitalTree ⟨"."⟩ = .ok capitalRun := by
  refine bind_eq_ok.2 ⟨⟨[⟨"./CFX/A.md"⟩, ⟨"./CFX/B.md"⟩], 0⟩, ?_, rfl⟩
  exact DocumentListing.ofTree_of_pairwise rfl (by decide +kernel) (by decide +kernel)

theorem capitalRun_eq : capitalRun.documents.map
      (fun d => (d.ns, d.native.record.hash, d.native.record.manualHash)) =
        [("CFX", "0xA", true), ("CFX", "0xa", true)] ∧
    capitalRun.catalogue.counts = [("CFX", 2)] ∧ capitalRun.duplicates = 0 := by
  decide +kernel

theorem meet_of_compiled_sample :
    ∃ first second, CompiledDocument.ofPath capitalTree ⟨"./CFX/A.md"⟩ = .ok first ∧
      CompiledDocument.ofPath capitalTree ⟨"./CFX/B.md"⟩ = .ok second ∧ Meet first second ∧
      ∃ records, ("CFX", records) ∈ capitalRun.catalogue.namespaces.toList ∧
        ∀ e ∈ records.toList, ∀ e' ∈ records.toList, Hash.Coincide e.2.hash e'.2.hash → e = e' := by
  have hA : (CompiledDocument.ofPath capitalTree ⟨"./CFX/A.md"⟩).toOption.map
      (fun d => (d.ns, d.native.record.manualHash)) = some ("CFX", true) := by decide +kernel
  have hB : (CompiledDocument.ofPath capitalTree ⟨"./CFX/B.md"⟩).toOption.map
      (fun d => (d.ns, d.native.record.manualHash)) = some ("CFX", true) := by decide +kernel
  obtain ⟨first, hfirst, hfirstFacts⟩ := Except.map_toOption_eq_some.1 hA
  obtain ⟨second, hsecond, hsecondFacts⟩ := Except.map_toOption_eq_some.1 hB
  obtain ⟨⟨_, records⟩, hentry, hcount⟩ : ∃ e ∈ capitalRun.catalogue.namespaces.toList,
      (e.1, e.2.size) = ("CFX", 2) := List.mem_map.1 (by
        rw [← Catalogue.counts, capitalRun_eq.2.1]
        simp)
  cases (Prod.mk.inj hcount).1
  rw [Prod.mk.injEq] at hfirstFacts hsecondFacts
  refine ⟨first, second, hfirst, hsecond, ?_, records, hentry, ?_⟩
  · exact meet_of_compiled.1 first second ⟨_, _, hfirst⟩ ⟨_, _, hsecond⟩
      (hfirstFacts.1.trans hsecondFacts.1.symm) hfirstFacts.2 hsecondFacts.2
  · exact meet_of_compiled.2 _ _ _ _ records ofTree_capitalTree hentry

/-- Both natives stay in the catalogue, though their hashes are one number. -/
theorem capitals_kept : ∃ run, ofTree capitalTree ⟨"."⟩ = .ok run ∧
    run.documents.map (fun d => (d.ns, d.native.record.hash, d.native.record.manualHash)) =
      [("CFX", "0xA", true), ("CFX", "0xa", true)] ∧
    Hash.parse "0xA" = .ok 10 ∧ Hash.parse "0xa" = .ok 10 ∧
    run.catalogue.counts = [("CFX", 2)] ∧ run.duplicates = 0 := by
  obtain ⟨hdocuments, hcounts, hduplicates⟩ := capitalRun_eq
  exact ⟨_, ofTree_capitalTree, hdocuments, rfl, rfl, hcounts, hduplicates⟩

end CompileRun

end NativeCatalogue
