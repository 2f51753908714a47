import NativeCatalogue.Proofs.Run.Accounting
import NativeCatalogue.Proofs.Run.Regeneration
import NativeCatalogue.Run.Program

set_option autoImplicit false

namespace NativeCatalogue

namespace CompileRun

section Listed

variable (t : FileTree) (found : DocumentListing)

def ofListing : CompileRun :=
  ofResults found.skipped (resultsOf t found.documents)

def compiledIn : List CompiledDocument :=
  compiledOf (resultsOf t found.documents)

theorem catalogue_ofListing : (ofListing t found).catalogue = insertAll ∅ (compiledIn t found) :=
  catalogue_ofResults _ _

theorem documents_ofListing : (ofListing t found).documents = compiledIn t found :=
  documents_ofResults _ _

theorem isClean_ofListing : (ofListing t found).isClean = true ↔
    ∀ p ∈ found.documents, ∃ d, CompiledDocument.ofPath t p = .ok d := by
  rw [isClean, ofListing, failures_ofResults, List.isEmpty_iff, failuresOf,
    List.filterMap_eq_nil_iff, resultsOf, List.forall_mem_map]
  refine forall₂_congr fun p _ => ?_
  cases CompiledDocument.ofPath t p <;> simp

theorem isClean_ofListing_of_error {p : Path} {e : DocumentFailure} (hp : p ∈ found.documents)
    (he : CompiledDocument.ofPath t p = .error e) : (ofListing t found).isClean = false := by
  rw [← Bool.not_eq_true, isClean_ofListing]
  intro hall
  obtain ⟨d, hd⟩ := hall p hp
  cases he.symm.trans hd

variable {t found}

theorem ofTree_of_listed {root : Path} (h : DocumentListing.ofTree t root = .ok found) :
    ofTree t root = .ok (ofListing t found) :=
  bind_eq_ok.2 ⟨found, h, rfl⟩

theorem isCompiled_of_mem {d : CompiledDocument} (h : d ∈ compiledIn t found) : d.IsCompiled := by
  obtain ⟨p, -, hp⟩ := (mem_compiledOf found.documents).1 h
  exact ⟨t, p, hp⟩

end Listed

end CompileRun

namespace SignatureUpdate

section Previous

variable {t : FileTree} {p : Path} {ignoreMissing : Bool}

theorem readPrevious_missing (h : t.hasPath p = false) :
    readPrevious t (some p) false = .error (.missingInput p) := by
  simp [readPrevious, h]

theorem readPrevious_unreadable {e : FileError} (h : t.hasPath p = true)
    (hread : t.readText p = .error e) :
    readPrevious t (some p) ignoreMissing = .error (.unreadable p e) := by
  simp [readPrevious, h, hread]

theorem readPrevious_malformed {text : String} {e : SignatureFileError}
    (hread : t.readText p = .ok text) (hparse : SignatureFile.parse text = .error e) :
    readPrevious t (some p) ignoreMissing = .error (.badSignatureFile e) := by
  simp [readPrevious, FileTree.hasPath_of_readText hread, hread, hparse, Except.mapError]

theorem finds_or (t : FileTree) (input : Option Path) (ignoreMissing : Bool) :
    (∃ before, Finds t input ignoreMissing before) ∨
      ∃ p, input = some p ∧
        (t.hasPath p = false ∧ ignoreMissing = false ∨
          t.hasPath p = true ∧ (∃ e, t.readText p = .error e) ∨
          ∃ text e, t.readText p = .ok text ∧ SignatureFile.parse text = .error e) := by
  cases input with
  | none => exact .inl ⟨_, .nothing ignoreMissing⟩
  | some p =>
    cases hread : t.readText p with
    | ok text =>
      cases hparse : SignatureFile.parse text with
      | ok before => exact .inl ⟨before, .file ignoreMissing hread hparse⟩
      | error e => exact .inr ⟨p, rfl, .inr (.inr ⟨text, e, hread, hparse⟩)⟩
    | error e =>
      cases hpath : t.hasPath p with
      | true => exact .inr ⟨p, rfl, .inr (.inl ⟨hpath, e, hread⟩)⟩
      | false =>
        cases ignoreMissing with
        | true => exact .inl ⟨{}, .missing hpath⟩
        | false => exact .inr ⟨p, rfl, .inl ⟨hpath, rfl⟩⟩

end Previous

end SignatureUpdate

namespace SignatureTable

/-- A table with the signatures of documents, and how many of them it had not. -/
structure Merges (before : SignatureTable) (documents : List CompiledDocument)
    (table : SignatureTable) (added : Nat) : Prop where
  collected : before.collect (documents.map CompiledDocument.native) = .ok (table, added)
  grows : Grows before table
  has : ∀ hash s, table.has hash s = true ↔
    before.has hash s = true ∨ (hash, s) ∈ CompiledDocument.entries documents
  count : added = (newEntries before (CompiledDocument.entries documents)).card

theorem merges_of_isCompiled {before : SignatureTable} {documents : List CompiledDocument}
    (h : before.Valid) (hcompiled : ∀ d ∈ documents, d.IsCompiled) :
    ∃ table added, Merges before documents table added := by
  have hcount := addEntries_count h 0 (CompiledDocument.entries documents)
  rw [Nat.zero_add] at hcount
  exact ⟨_, _, collect_eq (CompiledDocument.hasHash_natives hcompiled), grows_addEntries h 0 _,
    fun hash s => has_addEntries h 0 _ (hash, s), hcount⟩

end SignatureTable

def Outcome.Leaves (o : Outcome) (files : FileTree) (code : Nat) : Prop :=
  o.files = files ∧ o.exitCode = code

namespace Surroundings

open CompileRun (compiledIn insertAll)
open SignatureUpdate (Finds)

structure CompileLeaves (s : Surroundings) (o : CompileOptions) (found : DocumentListing) : Prop where
  failed : o.keepGoing = false →
    (∃ p ∈ found.documents, ∃ e, CompiledDocument.ofPath s.files p = .error e) →
      (s.compile o).Leaves s.files 3
  written : (o.keepGoing = true ∨
      ∀ p ∈ found.documents, ∃ d, CompiledDocument.ofPath s.files p = .ok d) →
    s.files.CanWrite o.out → (s.compile o).exitCode = 0 ∧
      FileTree.Rewritten o.out
        ((insertAll ∅ (compiledIn s.files found)).write (if o.pretty then .pretty else .compact))
        s.now s.files (s.compile o).files

theorem compileLeaves {s : Surroundings} {o : CompileOptions} {found : DocumentListing}
    (h : DocumentListing.ofTree s.files o.directory = .ok found) : s.CompileLeaves o found := by
  constructor
  · rintro hstop ⟨p, hp, e, he⟩
    have hfails := CompileRun.isClean_ofListing_of_error s.files found hp he
    simp [compile, CompileRun.ofTree_of_listed h, hfails, hstop, Outcome.Leaves, Outcome.exitCode,
      RunError.exitCode]
  · intro hgo hwritable
    have hwrites : ((CompileRun.ofListing s.files found).isClean || o.keepGoing) = true := by
      rw [Bool.or_eq_true, CompileRun.isClean_ofListing]
      exact hgo.symm
    rw [← CompileRun.catalogue_ofListing]
    obtain ⟨next, hnext⟩ := FileTree.exists_write hwritable
      ((CompileRun.ofListing s.files found).catalogue.write (if o.pretty then .pretty else .compact))
      s.now
    simp only [compile, CompileRun.ofTree_of_listed h, hwrites, if_true, hnext]
    exact ⟨rfl, FileTree.rewritten_of_write hnext⟩

section Compat

variable (s : Surroundings) (settings : Settings) (o : CompatOptions)

def inputFile : Option Path :=
  Settings.resolveFile o.input settings.signatureFile

def outputFile : Option Path :=
  Settings.resolveFile o.output settings.signatureFile

def Skips (flag : Option String) : Prop :=
  ∃ text, flag = some text ∧ text.toList.map Char.toLower = "skip".toList

theorem resolveFile_eq_none {flag : Option String} {default : Path} :
    Settings.resolveFile flag default = none ↔ Skips flag := by
  cases flag <;> simp [Settings.resolveFile, Skips]

/-- What a run leaves that brings a file up to date to a table with so many new signatures. -/
structure Updates (found : DocumentListing) (before : SignatureFile) (table : SignatureTable)
    (added : Nat) : Prop where
  merges : before.table.Merges (compiledIn s.files found) table added
  idle : Skips o.output ∨ added = 0 ∧ o.force = false → (s.compat settings o).Leaves s.files 0
  written : ∀ p, outputFile settings o = some p → added ≠ 0 ∨ o.force = true → s.files.CanWrite p →
    (s.compat settings o).exitCode = 0 ∧
      FileTree.Rewritten p
        (SignatureFile.render table (o.version.next before.version (o.start.daysSince s.now.date)))
        s.now s.files (s.compat settings o).files

/-- What a run that brings the signature file up to date leaves. -/
structure CompatLeaves (found : DocumentListing) : Prop where
  missing : ∀ p, inputFile settings o = some p → s.files.hasPath p = false →
    o.ignoreMissing = false → (s.compat settings o).Leaves s.files 3
  unreadable : ∀ p e, inputFile settings o = some p → s.files.hasPath p = true →
    s.files.readText p = .error e → (s.compat settings o).Leaves s.files 2
  malformed : ∀ p text e, inputFile settings o = some p → s.files.readText p = .ok text →
    SignatureFile.parse text = .error e → (s.compat settings o).Leaves s.files 4
  updated : ∀ before, Finds s.files (inputFile settings o) o.ignoreMissing before →
    ∃ table added, s.Updates settings o found before table added
  complete : (∃ before, Finds s.files (inputFile settings o) o.ignoreMissing before) ∨
    ∃ p, inputFile settings o = some p ∧
      (s.files.hasPath p = false ∧ o.ignoreMissing = false ∨
        s.files.hasPath p = true ∧ (∃ e, s.files.readText p = .error e) ∨
        ∃ text e, s.files.readText p = .ok text ∧ SignatureFile.parse text = .error e)

variable {s settings o} {found : DocumentListing}

theorem compat_of_error (h : DocumentListing.ofTree s.files o.directory = .ok found) {e : RunError}
    (hrun : SignatureUpdate.run s.files s.now (s.updateOptions settings o)
      ((compiledIn s.files found).map CompiledDocument.native) = .error e) :
    s.compat settings o = .failed s e := by
  simp [compat, CompileRun.ofTree_of_listed h, CompileRun.documents_ofListing, hrun]

theorem compat_of_ok (h : DocumentListing.ofTree s.files o.directory = .ok found)
    {files : FileTree} {u : SignatureUpdate}
    (hrun : SignatureUpdate.run s.files s.now (s.updateOptions settings o)
      ((compiledIn s.files found).map CompiledDocument.native) = .ok (files, u)) :
    s.compat settings o = { files, output := Report.signatures u } := by
  simp [compat, CompileRun.ofTree_of_listed h, CompileRun.documents_ofListing, hrun]

/-- A run that does not get the file before leaves all files alone. -/
theorem leaves_of_unread (h : DocumentListing.ofTree s.files o.directory = .ok found) {e : RunError}
    (hread : SignatureUpdate.readPrevious s.files (inputFile settings o) o.ignoreMissing = .error e) :
    (s.compat settings o).Leaves s.files e.exitCode := by
  have hrun : SignatureUpdate.run s.files s.now (s.updateOptions settings o)
      ((compiledIn s.files found).map CompiledDocument.native) = .error e := by
    change SignatureUpdate.readPrevious s.files (s.updateOptions settings o).input
      (s.updateOptions settings o).ignoreMissing = .error e at hread
    simp only [SignatureUpdate.run, hread, bind, Except.bind]
  rw [compat_of_error h hrun]
  exact ⟨rfl, rfl⟩

theorem updates_of_finds (h : DocumentListing.ofTree s.files o.directory = .ok found)
    {before : SignatureFile} (hbefore : Finds s.files (inputFile settings o) o.ignoreMissing before) :
    ∃ table added, s.Updates settings o found before table added := by
  have hcompiled : ∀ d ∈ compiledIn s.files found, d.IsCompiled :=
    fun d hd => CompileRun.isCompiled_of_mem hd
  obtain ⟨table, added, hmerges⟩ := SignatureTable.merges_of_isCompiled
    hbefore.storable.toValid hcompiled
  obtain ⟨u, -, htable, hversion, hwritten, hrun⟩ := SignatureUpdate.run_eq
    (o := s.updateOptions settings o) hbefore hmerges.collected s.now
  change u.written = if o.force || added > 0 then outputFile settings o else none at hwritten
  refine ⟨table, added, hmerges, fun hidle => ?_, fun p hp hchanged hwritable => ?_⟩
  · have hnone : u.written = none := by
      rw [hwritten]
      rcases hidle with hskips | ⟨rfl, hforce⟩
      · simp [outputFile, resolveFile_eq_none.2 hskips]
      · simp [hforce]
    rw [hnone] at hrun
    rw [compat_of_ok h hrun]
    exact ⟨rfl, rfl⟩
  · have hsome : u.written = some p := by
      rw [hwritten, hp, if_pos]
      rw [Bool.or_eq_true, decide_eq_true_eq]
      exact hchanged.symm.imp_right Nat.pos_of_ne_zero
    have htext : u.text = SignatureFile.render table
        (o.version.next before.version (o.start.daysSince s.now.date)) := by
      rw [SignatureUpdate.text, htable, hversion]
      rfl
    obtain ⟨next, hnext⟩ := FileTree.exists_write hwritable u.text s.now
    -- The text depends on the file before, which may be the one that is written.
    simp only [hsome, hnext] at hrun
    rw [compat_of_ok h hrun, ← htext]
    exact ⟨rfl, FileTree.rewritten_of_write hnext⟩

theorem compatLeaves (h : DocumentListing.ofTree s.files o.directory = .ok found) :
    s.CompatLeaves settings o found where
  missing p hp hmissing hrequired := by
    refine leaves_of_unread (e := .missingInput p) h ?_
    rw [hp, hrequired]
    exact SignatureUpdate.readPrevious_missing hmissing
  unreadable p e hp hpath hread := by
    refine leaves_of_unread (e := .unreadable p e) h ?_
    rw [hp]
    exact SignatureUpdate.readPrevious_unreadable hpath hread
  malformed p text e hp hread hparse := by
    refine leaves_of_unread (e := .badSignatureFile e) h ?_
    rw [hp]
    exact SignatureUpdate.readPrevious_malformed hread hparse
  updated before hbefore := updates_of_finds h hbefore
  complete := SignatureUpdate.finds_or _ _ _

end Compat

theorem leaves_of_listed :
    (∀ (s : Surroundings) (o : CompileOptions) (found : DocumentListing),
      DocumentListing.ofTree s.files o.directory = .ok found → s.CompileLeaves o found) ∧
    ∀ (s : Surroundings) (settings : Settings) (o : CompatOptions) (found : DocumentListing),
      DocumentListing.ofTree s.files o.directory = .ok found → s.CompatLeaves settings o found :=
  ⟨fun _ _ _ => compileLeaves, fun _ _ _ _ => compatLeaves⟩

def failingSurroundings : Surroundings where
  files := CompileRun.sampleTree
  now := ⟨0, 0⟩

def failingCompile (keepGoing : Bool) : CompileOptions where
  directory := ⟨"."⟩
  out := ⟨"natives.json"⟩
  keepGoing := keepGoing
  pretty := false

def startingCompat (ignoreMissing : Bool) : CompatOptions where
  directory := ⟨"."⟩
  input := none
  output := none
  force := true
  version := .dated 2 0
  start := ⟨2023, 1, 1⟩
  ignoreMissing := ignoreMissing

theorem leaves_of_listed_sample :
    (failingSurroundings.compile (failingCompile false)).Leaves CompileRun.sampleTree 3 ∧
      (failingSurroundings.compile (failingCompile true)).exitCode = 0 ∧
      (failingSurroundings.compat {} (startingCompat false)).Leaves CompileRun.sampleTree 3 ∧
      (failingSurroundings.compat {} (startingCompat true)).exitCode = 0 := by
  have hfound : DocumentListing.ofTree CompileRun.sampleTree ⟨"."⟩ = .ok CompileRun.sampleListing :=
    DocumentListing.ofTree_of_pairwise rfl rfl (by decide +kernel)
  have hmem : Path.mk "./PLAYER/c.md" ∈ CompileRun.sampleListing.documents := by decide +kernel
  have hfails : (CompiledDocument.ofPath CompileRun.sampleTree ⟨"./PLAYER/c.md"⟩).isOk = false := by
    decide +kernel
  have hmissing : CompileRun.sampleTree.hasPath ⟨"natives_global_client_compat.lua"⟩ = false := by
    decide +kernel
  refine ⟨?_, ?_, ?_, ?_⟩
  · refine (leaves_of_listed.1 failingSurroundings (failingCompile false) _ hfound).failed rfl
      ⟨_, hmem, ?_⟩
    cases h : CompiledDocument.ofPath failingSurroundings.files ⟨"./PLAYER/c.md"⟩ with
    | ok d => cases hfails.symm.trans (congrArg Except.isOk h)
    | error e => exact ⟨e, rfl⟩
  · exact ((leaves_of_listed.1 failingSurroundings (failingCompile true) _ hfound).written (.inl rfl)
      ⟨["natives.json"], by decide +kernel⟩).1
  · exact (leaves_of_listed.2 failingSurroundings {} (startingCompat false) _ hfound).missing _ rfl
      hmissing rfl
  · obtain ⟨table, added, hupdates⟩ := (leaves_of_listed.2 failingSurroundings {}
      (startingCompat true) _ hfound).updated {} (.missing hmissing)
    exact (hupdates.written _ rfl (.inr rfl)
      ⟨["natives_global_client_compat.lua"], by decide +kernel⟩).1

end Surroundings

end NativeCatalogue
