import NativeCatalogue.Proofs.Run.Writing

set_option autoImplicit false

namespace NativeCatalogue

namespace CompiledNative

/-- The hash of a native with this code, as a text and as a number. -/
structure IsHashed (c : CompiledNative) (code : String) (hash : UInt64) : Prop where
  spelled : ∃ digits, HashComment.IsDigits 16 digits ∧ c.record.hash = HashComment.hashText digits
  parsed : Hash.parse c.record.hash = .ok hash
  given : ∀ comment, HashComment.find? code.toList = some comment →
    c.record.manualHash = true ∧ c.record.hash = HashComment.hashText comment.hash
  computed : HashComment.find? code.toList = none → c.record.manualHash = false ∧
    hash = (Hash.joaat
      (String.ofList (Text.lowerCase c.prototype.name.toList)).toUTF8.toList).toUInt64

theorem isHashed_ofText {source : String} {c : CompiledNative} (h : ofText source = .ok c) :
    ∃ code hash, codeOf (.parse source) = .ok code ∧ Prototype.parse code = .ok c.prototype ∧
      c.IsHashed code hash := by
  obtain ⟨m, code, parameters, -, hcode, hprototype, -, hrecord⟩ := ofDocument_eq_ok h
  -- The sections of the document leave the hash alone.
  have hhash : c.record.hash = (withHashComment (recordOf c.prototype m) code).hash := by
    rw [hrecord]
    rfl
  have hmanual : c.record.manualHash = (withHashComment (recordOf c.prototype m) code).manualHash := by
    rw [hrecord]
    rfl
  cases hcomment : HashComment.find? code.toList with
  | none =>
    have hplain : withHashComment (recordOf c.prototype m) code = recordOf c.prototype m := by
      rw [withHashComment, hcomment]
    rw [hplain] at hhash hmanual
    refine ⟨code, (Hash.ofName c.prototype.name).toUInt64, hcode, hprototype,
      ⟨_, HashComment.isDigits_upperHex _, hhash.trans (HashComment.text_eq _)⟩, ?_, ?_, ?_⟩
    · rw [hhash]
      exact HashComment.parse_text _
    · intro comment he
      rw [hcomment] at he
      cases he
    · exact fun _ => ⟨hmanual, rfl⟩
  | some comment =>
    rw [withHashComment, hcomment] at hhash hmanual
    have hdigits := (HashComment.isDigits_of_find? hcomment).1
    obtain ⟨hash, hparse⟩ := HashComment.parse_hashText hdigits
    refine ⟨code, hash, hcode, hprototype, ⟨_, hdigits, hhash⟩, hhash ▸ hparse, ?_, ?_⟩
    · intro other he
      rw [hcomment] at he
      cases he
      exact ⟨hmanual, hhash⟩
    · intro he
      rw [hcomment] at he
      cases he

end CompiledNative

namespace SignatureTable

theorem collect_of_isCompiled (t : SignatureTable) {documents : List CompiledDocument}
    (h : ∀ d ∈ documents, d.IsCompiled) :
    ∃ table added, t.collect (documents.map CompiledDocument.native) = .ok (table, added) :=
  ⟨_, _, collect_eq (CompiledDocument.hasHash_natives h)⟩

end SignatureTable

namespace SignatureUpdate

theorem readPrevious_ne_badHash (t : FileTree) (input : Option Path) (ignoreMissing : Bool)
    (e : Hash.BadHash) : readPrevious t input ignoreMissing ≠ .error (.badHash e) := by
  rcases finds_or t input ignoreMissing with ⟨before, hfinds⟩ | ⟨p, rfl, h⟩
  · rw [readPrevious_eq_ok.2 hfinds]
    exact fun he => by cases he
  · rcases h with ⟨hmissing, rfl⟩ | ⟨hpath, e', hread⟩ | ⟨text, e', hread, hparse⟩
    · rw [readPrevious_missing hmissing]
      exact fun he => by cases he
    · rw [readPrevious_unreadable hpath hread]
      exact fun he => by cases he
    · rw [readPrevious_malformed hread hparse]
      exact fun he => by cases he

theorem run_ne_badHash (t : FileTree) (now : Calendar.Instant) (o : UpdateOptions)
    {documents : List CompiledDocument} (h : ∀ d ∈ documents, d.IsCompiled) (e : Hash.BadHash) :
    run t now o (documents.map CompiledDocument.native) ≠ .error (.badHash e) := by
  cases hread : readPrevious t o.input o.ignoreMissing with
  | error e' =>
    have hne := readPrevious_ne_badHash t o.input o.ignoreMissing e
    rw [hread] at hne
    have hrun : run t now o (documents.map CompiledDocument.native) = .error e' := by
      rw [run, hread]
      rfl
    rw [hrun]
    intro he
    cases he
    exact hne rfl
  | ok before =>
    obtain ⟨table, added, hcollect⟩ := before.table.collect_of_isCompiled h
    obtain ⟨u, -, -, -, -, hrun⟩ := run_eq (readPrevious_eq_ok.1 hread) hcollect now
    rw [hrun]
    split
    · exact fun he => by cases he
    · cases t.write _ u.text now with
      | error e' => exact fun he => by cases he
      | ok files => exact fun he => by cases he

end SignatureUpdate

namespace Surroundings

theorem compat_ne_badHash (s : Surroundings) (settings : Settings) (o : CompatOptions)
    (e : Hash.BadHash) : (s.compat settings o).error ≠ some (.badHash e) := by
  cases hfound : DocumentListing.ofTree s.files o.directory with
  | error e' =>
    have hrun : CompileRun.ofTree s.files o.directory = .error e' := by
      simp only [CompileRun.ofTree, hfound, bind, Except.bind]
    simp [compat, hrun, Outcome.failed]
  | ok found =>
    have hcompiled : ∀ d ∈ CompileRun.compiledIn s.files found, d.IsCompiled :=
      fun _ => CompileRun.isCompiled_of_mem
    have hne := SignatureUpdate.run_ne_badHash s.files s.now (s.updateOptions settings o) hcompiled e
    cases hrun : SignatureUpdate.run s.files s.now (s.updateOptions settings o)
        ((CompileRun.compiledIn s.files found).map CompiledDocument.native) with
    | error e' =>
      rw [compat_of_error hfound hrun]
      rw [hrun] at hne
      exact fun he => hne (congrArg Except.error (Option.some.inj he))
    | ok next =>
      rw [compat_of_ok hfound hrun]
      exact fun he => by cases he

/-- The hash of every native is one that can be read, so that tables take the signatures of all documents
    that were compiled, and no run fails at a hash. -/
theorem hashes_are_read :
    (∀ (source : String) (c : CompiledNative), CompiledNative.ofText source = .ok c →
      ∃ code hash, CompiledNative.codeOf (.parse source) = .ok code ∧
        Prototype.parse code = .ok c.prototype ∧ c.IsHashed code hash) ∧
    (∀ (t : SignatureTable) (documents : List CompiledDocument), (∀ d ∈ documents, d.IsCompiled) →
      ∃ table added, t.collect (documents.map CompiledDocument.native) = .ok (table, added)) ∧
    ∀ (s : Surroundings) (settings : Settings) (o : CompatOptions) (e : Hash.BadHash),
      (s.compat settings o).error ≠ some (.badHash e) :=
  ⟨fun _ _ => CompiledNative.isHashed_ofText, fun t _ => t.collect_of_isCompiled, compat_ne_badHash⟩

def uncommentedText : String :=
  "## WAIT\n\n```c\nvoid WAIT(int ms);\n```\n"

theorem hashes_are_read_sample :
    (∃ c code hash, CompiledNative.ofText uncommentedText = .ok c ∧ c.record.hash = "0x7715C03B" ∧
      c.IsHashed code hash) ∧
    ∃ d table added, CompiledDocument.ofPath SignatureUpdate.sampleFiles ⟨"wait.md"⟩ = .ok d ∧
      (∅ : SignatureTable).collect [d.native] = .ok (table, added) := by
  constructor
  · have hcompiled : (CompiledNative.ofText uncommentedText).toOption.map (·.record.hash) =
        some "0x7715C03B" := by decide +kernel
    obtain ⟨c, hc, hhash⟩ := Except.map_toOption_eq_some.1 hcompiled
    obtain ⟨code, hash, -, -, hhashed⟩ := hashes_are_read.1 _ c hc
    exact ⟨c, code, hash, hc, hhash, hhashed⟩
  · have hread : (CompiledDocument.ofPath SignatureUpdate.sampleFiles ⟨"wait.md"⟩).toOption.map
        (fun _ => ()) = some () := by decide +kernel
    obtain ⟨d, hd, -⟩ := Except.map_toOption_eq_some.1 hread
    obtain ⟨table, added, hcollect⟩ := hashes_are_read.2.1 ∅ [d] fun d' hd' => by
      rw [List.mem_singleton.1 hd']
      exact ⟨_, _, hd⟩
    exact ⟨d, table, added, hd, hcollect⟩

end Surroundings

end NativeCatalogue
