import NativeCatalogue.Proofs.Compilation.Document
import NativeCatalogue.Proofs.FileTree.Write
import NativeCatalogue.Proofs.Signature.Collect
import NativeCatalogue.Proofs.Signature.RoundTrip

set_option autoImplicit false

namespace NativeCatalogue

open SignatureTable
open SignatureGroups (hashes)

namespace CompiledDocument

def IsCompiled (d : CompiledDocument) : Prop :=
  ∃ files path, ofPath files path = .ok d

theorem hashText_native {d : CompiledDocument} (h : d.IsCompiled) : ∃ digits,
    HashComment.IsDigits 16 digits ∧ d.native.record.hash = HashComment.hashText digits := by
  obtain ⟨files, path, h⟩ := h
  unfold ofPath at h
  split at h
  · cases h
  · split at h
    · cases h
    · rename_i c hc
      cases h
      exact CompiledNative.hashText_ofText (c := c) hc

theorem parse_of_isCompiled {d : CompiledDocument} (h : d.IsCompiled) :
    ∃ hash, Hash.parse d.native.record.hash = .ok hash := by
  obtain ⟨digits, hdigits, hhash⟩ := hashText_native h
  exact hhash ▸ HashComment.parse_hashText hdigits

theorem hasHash_natives {documents : List CompiledDocument} (h : ∀ d ∈ documents, d.IsCompiled) :
    ∀ c ∈ documents.map native, c.HasHash := by
  intro c hc
  obtain ⟨d, hd, rfl⟩ := List.mem_map.1 hc
  exact fun _ => parse_of_isCompiled (h d hd)

def entries (documents : List CompiledDocument) : List (UInt64 × Signature) :=
  (documents.map native).filterMap CompiledNative.entry?

theorem entries_perm {as bs : List CompiledDocument} (h : as.Perm bs) :
    (entries as).Perm (entries bs) :=
  (h.map native).filterMap CompiledNative.entry?

end CompiledDocument

namespace SignatureTable

/-- Adding the same natives to the table that they were added to changes nothing. -/
theorem collect_again {t u : SignatureTable} {n : Nat} {natives : List CompiledNative}
    (h : t.Valid) (hhash : ∀ c ∈ natives, c.HasHash) (hcollect : t.collect natives = .ok (u, n)) :
    u.collect natives = .ok (u, 0) := by
  rw [collect_eq hhash, Except.ok.injEq] at hcollect
  have hadded : u = (addEntries (t, 0) (natives.filterMap CompiledNative.entry?)).1 := by
    rw [hcollect]
  rw [collect_eq hhash, addEntries_of_has]
  intro e he
  rw [hadded]
  exact (has_addEntries h 0 _ e).2 (.inr he)

theorem newEntries_perm (t : SignatureTable) {as bs : List (UInt64 × Signature)} (h : as.Perm bs) :
    newEntries t as = newEntries t bs :=
  List.toFinset_eq_of_perm _ _ (h.filter _)

/-- The number of new entries does not depend on the order of the documents. -/
theorem collect_perm {t : SignatureTable} (h : t.Valid) {as bs : List CompiledDocument}
    (has : ∀ d ∈ as, d.IsCompiled) (hperm : as.Perm bs) : ∃ u,
      t.collect (as.map CompiledDocument.native) =
        .ok (u, (newEntries t (CompiledDocument.entries bs)).card) := by
  have hcount := addEntries_count h 0 (CompiledDocument.entries as)
  rw [newEntries_perm t (CompiledDocument.entries_perm hperm), Nat.zero_add] at hcount
  refine ⟨(addEntries (t, 0) (CompiledDocument.entries as)).1, ?_⟩
  rw [← hcount]
  exact collect_eq (CompiledDocument.hasHash_natives has)

end SignatureTable

namespace SignatureUpdate

/-- What an update starts from. -/
inductive Finds (t : FileTree) : Option Path → Bool → SignatureFile → Prop where
  | nothing (ignoreMissing : Bool) : Finds t none ignoreMissing {}
  | missing {p : Path} (h : t.hasPath p = false) : Finds t (some p) true {}
  | file {p : Path} {text : String} {before : SignatureFile} (ignoreMissing : Bool)
    (hread : t.readText p = .ok text) (hparse : SignatureFile.parse text = .ok before) :
    Finds t (some p) ignoreMissing before

theorem readPrevious_eq_ok {t : FileTree} {input : Option Path} {ignoreMissing : Bool}
    {before : SignatureFile} : readPrevious t input ignoreMissing = .ok before ↔
      Finds t input ignoreMissing before := by
  constructor
  · intro h
    unfold readPrevious at h
    split at h
    · cases h
      exact .nothing ignoreMissing
    · split at h
      · split at h
        · cases h
        · rename_i hread
          exact .file ignoreMissing hread (Except.mapError_eq_ok.1 h)
      · rename_i hmissing
        cases ignoreMissing with
        | false => cases h
        | true =>
          cases h
          exact .missing (Bool.eq_false_of_not_eq_true hmissing)
  · intro h
    cases h with
    | nothing => rfl
    | missing h => simp [readPrevious, h]
    | file _ hread hparse =>
      simp [readPrevious, FileTree.hasPath_of_readText hread, hread, hparse, Except.mapError]

theorem Finds.storable {t : FileTree} {input : Option Path} {ignoreMissing : Bool}
    {before : SignatureFile} (h : Finds t input ignoreMissing before) : before.table.Storable := by
  cases h with
  | nothing => exact storable_empty
  | missing => exact storable_empty
  | file _ _ hparse => exact SignatureFile.storable_parse hparse

theorem Finds.ignoring {t : FileTree} {input : Option Path} {ignored ignores : Bool}
    {before : SignatureFile} (h : Finds t input ignored before)
    (hignore : ignored = true → ignores = true) : Finds t input ignores before := by
  cases h with
  | nothing => exact .nothing ignores
  | missing h =>
    rw [hignore rfl]
    exact .missing h
  | file _ hread hparse => exact .file ignores hread hparse

theorem finds_write {files next : FileTree} {p : Path} {now : Calendar.Instant} {u : SignatureUpdate}
    (h : u.table.Storable) (hwrite : files.write p u.text now = .ok next) (ignoreMissing : Bool) :
    Finds next (some p) ignoreMissing ⟨u.table, u.version, u.table.signatureCount⟩ :=
  .file ignoreMissing (FileTree.readText_write hwrite)
    (SignatureFile.parse_render_of_storable h u.version)

theorem ofFile_eq_ok {o : UpdateOptions} {file : SignatureFile} {natives : List CompiledNative}
    {u : SignatureUpdate} (h : ofFile o file natives = .ok u) :
    file.table.collect natives = .ok (u.table, u.changes) ∧
      u.written = if o.force || u.changes > 0 then o.output else none := by
  obtain ⟨⟨table, changes⟩, hcollect, h⟩ := bind_eq_ok.1 h
  cases h
  exact ⟨Except.mapError_eq_ok.1 hcollect, rfl⟩

theorem changes_of_unwritten {o : UpdateOptions} {file : SignatureFile}
    {natives : List CompiledNative} {u : SignatureUpdate} {p : Path}
    (h : ofFile o file natives = .ok u) (houtput : o.output = some p) (hnone : u.written = none) :
    u.changes = 0 := by
  obtain ⟨-, hwritten⟩ := ofFile_eq_ok h
  rw [hnone, houtput] at hwritten
  split at hwritten
  · cases hwritten
  · rename_i hkeep
    simp only [Bool.or_eq_true, not_or, decide_eq_true_eq] at hkeep
    omega

theorem output_of_written {o : UpdateOptions} {file : SignatureFile}
    {natives : List CompiledNative} {u : SignatureUpdate} {output : Path}
    (h : ofFile o file natives = .ok u) (hsome : u.written = some output) :
    o.output = some output := by
  obtain ⟨-, hwritten⟩ := ofFile_eq_ok h
  rw [hsome] at hwritten
  split at hwritten
  · exact hwritten.symm
  · cases hwritten

theorem run_eq {files : FileTree} {o : UpdateOptions} {natives : List CompiledNative}
    {file : SignatureFile} {table : SignatureTable} {changes : Nat}
    (hfinds : Finds files o.input o.ignoreMissing file)
    (hcollect : file.table.collect natives = .ok (table, changes)) (now : Calendar.Instant) :
    ∃ u : SignatureUpdate, u.changes = changes ∧ u.table = table ∧
      u.version = o.version.next file.version (o.start.daysSince o.today) ∧
      u.written = (if o.force || changes > 0 then o.output else none) ∧
      run files now o natives = match u.written with
        | none => .ok (files, u)
        | some output => ((files.write output u.text now).mapError (.unwritable output)).map (·, u) := by
  refine ⟨⟨file.table.size, changes, o.version.next file.version (o.start.daysSince o.today), table,
    if o.force || changes > 0 then o.output else none⟩, rfl, rfl, rfl, rfl, ?_⟩
  have hfile : ofFile o file natives = .ok ⟨file.table.size, changes,
      o.version.next file.version (o.start.daysSince o.today), table,
      if o.force || changes > 0 then o.output else none⟩ := by
    simp [ofFile, hcollect, Except.mapError, bind, Except.bind, pure, Except.pure]
  simp only [run, readPrevious_eq_ok.2 hfinds, hfile, bind, Except.bind]
  cases (if o.force || changes > 0 then o.output else none) with
  | none => rfl
  | some output =>
    dsimp only
    cases (files.write output _ now) <;> rfl

theorem run_of_unchanged {files : FileTree} {o : UpdateOptions} {natives : List CompiledNative}
    {file : SignatureFile} {p : Path} (hfinds : Finds files o.input o.ignoreMissing file)
    (houtput : o.output = some p) {table : SignatureTable}
    (hcollect : file.table.collect natives = .ok (table, 0)) (now : Calendar.Instant) :
    ∃ u, u.changes = 0 ∧ u.table = table ∧ u.written = (if o.force then some p else none) ∧
      run files now o natives =
        if o.force then ((files.write p u.text now).mapError (.unwritable p)).map (·, u)
        else .ok (files, u) := by
  obtain ⟨u, hchanges, htable, -, hwritten, hrun⟩ := run_eq hfinds hcollect now
  rw [houtput] at hwritten
  refine ⟨u, hchanges, htable, ?_, ?_⟩
  · simpa using hwritten
  · rw [hrun, hwritten]
    cases o.force <;> rfl

/-- After an update of a file in place the file holds a table to which the same natives add nothing. -/
theorem finds_run {files next : FileTree} {now : Calendar.Instant} {o : UpdateOptions} {p : Path}
    {natives : List CompiledNative} {u : SignatureUpdate} {ignores : Bool}
    (hhash : ∀ c ∈ natives, c.HasHash) (hinput : o.input = some p) (houtput : o.output = some p)
    (hignore : o.ignoreMissing = true → ignores = true)
    (hrun : run files now o natives = .ok (next, u)) :
    ∃ file, Finds next (some p) ignores file ∧ file.table.collect natives = .ok (u.table, 0) := by
  obtain ⟨file, hread, hrun⟩ := bind_eq_ok.1 hrun
  obtain ⟨u', hfile, hrun⟩ := bind_eq_ok.1 hrun
  obtain ⟨hcollect, -⟩ := ofFile_eq_ok hfile
  rw [readPrevious_eq_ok] at hread
  -- The file is written if anything changed, and otherwise it is the one that was read.
  split at hrun
  · rename_i hnone
    cases hrun
    rw [changes_of_unwritten hfile houtput hnone] at hcollect
    rw [hinput] at hread
    exact ⟨file, hread.ignoring hignore, hcollect⟩
  · rename_i output hsome
    obtain ⟨written, hwrite, hrun⟩ := bind_eq_ok.1 hrun
    cases hrun
    have houtputs := output_of_written hfile hsome
    rw [houtput, Option.some.injEq] at houtputs
    rw [← houtputs, Except.mapError_eq_ok] at hwrite
    exact ⟨_, finds_write (storable_collect hread.storable hcollect) hwrite ignores,
      collect_again hread.storable.toValid hhash hcollect⟩

/-- Documents append to a table that was read, and once they have they change nothing: not the table,
and not the file either unless the update is told to write it. -/
theorem regenerate :
    (∀ (text : String) (file : SignatureFile) (documents : List CompiledDocument),
      SignatureFile.parse text = .ok file → (∀ d ∈ documents, d.IsCompiled) →
        ∃ table added, file.table.collect (documents.map CompiledDocument.native) =
            .ok (table, added) ∧
          Grows file.table table ∧
          hashes table.toList = hashes file.table.toList ++
            newHashes file.table (CompiledDocument.entries documents) ∧
          table.signatureCount = file.table.signatureCount + added ∧
          added = (newEntries file.table (CompiledDocument.entries documents)).card ∧
          (∀ others : List CompiledDocument, others.Perm documents → ∃ other,
            file.table.collect (others.map CompiledDocument.native) = .ok (other, added)) ∧
          table.collect (documents.map CompiledDocument.native) = .ok (table, 0)) ∧
    ∀ (files next : FileTree) (now later : Calendar.Instant) (o again : UpdateOptions) (p : Path)
      (documents : List CompiledDocument) (u : SignatureUpdate),
      (∀ d ∈ documents, d.IsCompiled) → o.input = some p → o.output = some p →
        again.input = some p → again.output = some p →
        (o.ignoreMissing = true → again.ignoreMissing = true) →
        run files now o (documents.map CompiledDocument.native) = .ok (next, u) →
          ∃ v, v.changes = 0 ∧ v.table = u.table ∧
            v.written = (if again.force then some p else none) ∧
            run next later again (documents.map CompiledDocument.native) =
              if again.force then ((next.write p v.text later).mapError (.unwritable p)).map (·, v)
              else .ok (next, v) := by
  refine ⟨fun text file documents hparse hcompiled => ?_, ?_⟩
  · have hvalid := (SignatureFile.storable_parse hparse).toValid
    have hcount := signatureCount_addEntries hvalid 0 (CompiledDocument.entries documents)
    have hadded := addEntries_count hvalid 0 (CompiledDocument.entries documents)
    rw [Nat.zero_add] at hadded
    have hcollect := collect_eq (t := file.table) (CompiledDocument.hasHash_natives hcompiled)
    refine ⟨_, _, hcollect, grows_addEntries hvalid 0 _, hashes_addEntries hvalid 0 _, hcount,
      hadded, fun others hperm => ?_, ?_⟩
    · obtain ⟨other, hother⟩ := collect_perm hvalid
        (fun d hd => hcompiled d (hperm.mem_iff.1 hd)) hperm
      rw [← hadded] at hother
      exact ⟨other, hother⟩
    · exact collect_again hvalid (CompiledDocument.hasHash_natives hcompiled) hcollect
  · intro files next now later o again p documents u hcompiled hinput houtput hagainInput hagainOutput
      hignore hrun
    obtain ⟨file, hfinds, hcollect⟩ := finds_run (CompiledDocument.hasHash_natives hcompiled) hinput
      houtput hignore hrun
    rw [← hagainInput] at hfinds
    exact run_of_unchanged hfinds hagainOutput hcollect later

def sampleFiles : FileTree :=
  .directory [("wait.md", .file "## WAIT\n\n```c\n// 0x1\nvoid WAIT(int ms);\n```\n".toUTF8 ⟨0, 0⟩)]

def sampleOptions : UpdateOptions where
  input := some ⟨"compat.lua"⟩
  output := some ⟨"compat.lua"⟩
  force := true
  ignoreMissing := true
  version := .dated 2 0
  start := ⟨2023, 1, 1⟩
  today := ⟨2023, 1, 11⟩

theorem regenerate_sample :
    ∃ d, CompiledDocument.ofPath sampleFiles ⟨"wait.md"⟩ = .ok d ∧
      (∃ file table added, SignatureFile.parse "[0x1] = \x7b\n\t\x7b \"void\" \x7d," = .ok file ∧
        file.table.collect [d.native] = .ok (table, added) ∧
        table.collect [d.native] = .ok (table, 0)) ∧
      ∃ next u v, run sampleFiles ⟨0, 0⟩ sampleOptions [d.native] = .ok (next, u) ∧ v.changes = 0 ∧
        run next ⟨1, 0⟩ { sampleOptions with force := false } [d.native] = .ok (next, v) := by
  have hread : ∃ d, CompiledDocument.ofPath sampleFiles ⟨"wait.md"⟩ = .ok d := by
    have hok : (CompiledDocument.ofPath sampleFiles ⟨"wait.md"⟩).isOk = true := by decide +kernel
    cases hd : CompiledDocument.ofPath sampleFiles ⟨"wait.md"⟩ with
    | ok d => exact ⟨d, rfl⟩
    | error e => rw [hd] at hok; cases hok
  obtain ⟨d, hd⟩ := hread
  have hcompiled : ∀ e ∈ [d], e.IsCompiled := by
    intro e he
    rw [List.mem_singleton.1 he]
    exact ⟨_, _, hd⟩
  have hparse : SignatureFile.parse "[0x1] = \x7b\n\t\x7b \"void\" \x7d," =
      .ok ⟨(((∅ : SignatureTable).reset 1).insert 1 ⟨["void"]⟩).1, {}, 1⟩ := rfl
  obtain ⟨table, added, hcollect, -, -, -, -, -, hagain⟩ := regenerate.1 _ _ [d] hparse hcompiled
  have hrun : ∃ next u, run sampleFiles ⟨0, 0⟩ sampleOptions [d.native] = .ok (next, u) := by
    have hmissing : sampleFiles.hasPath ⟨"compat.lua"⟩ = false := by decide +kernel
    have htarget : sampleFiles.target ⟨"compat.lua"⟩ = .ok ["compat.lua"] := by decide +kernel
    have hnone : readPrevious sampleFiles (some ⟨"compat.lua"⟩) true = .ok {} := by
      simp [readPrevious, hmissing]
    have hempty := collect_eq (t := ∅) (CompiledDocument.hasHash_natives hcompiled)
    obtain ⟨u, hfile, hwritten⟩ : ∃ u, ofFile sampleOptions {} [d.native] = .ok u ∧
        u.written = some ⟨"compat.lua"⟩ :=
      ⟨_, bind_eq_ok.2 ⟨_, Except.mapError_eq_ok.2 hempty, rfl⟩, rfl⟩
    have hwrite : ∃ next, sampleFiles.write ⟨"compat.lua"⟩ u.text ⟨0, 0⟩ = .ok next :=
      ⟨_, bind_eq_ok.2 ⟨_, htarget, rfl⟩⟩
    obtain ⟨next, hwrite⟩ := hwrite
    refine ⟨next, u, bind_eq_ok.2 ⟨_, hnone, bind_eq_ok.2 ⟨u, hfile, ?_⟩⟩⟩
    rw [hwritten]
    exact bind_eq_ok.2 ⟨next, Except.mapError_eq_ok.2 hwrite, rfl⟩
  obtain ⟨next, u, hrun⟩ := hrun
  obtain ⟨v, hchanges, -, -, hrerun⟩ := regenerate.2 _ next _ ⟨1, 0⟩ sampleOptions
    { sampleOptions with force := false } ⟨"compat.lua"⟩ [d] u hcompiled rfl rfl rfl rfl (fun h => h)
    hrun
  exact ⟨d, hd, ⟨_, table, added, hparse, hcollect, hagain⟩, next, u, v, hrun, hchanges, hrerun⟩

end SignatureUpdate

end NativeCatalogue
