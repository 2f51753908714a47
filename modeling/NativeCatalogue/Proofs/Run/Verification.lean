import NativeCatalogue.Proofs.Compilation.Document
import NativeCatalogue.Proofs.FileTree.Write
import NativeCatalogue.Run.Program

/-!
Verifying a document. A native is refused for want of a hash if its hash text is `0x0`, that is zero in a
single digit; zero in more digits, which a hash comment may have, passes for a hash.
-/

set_option autoImplicit false

namespace NativeCatalogue.Surroundings

section Compiled

variable {s : Surroundings} {p : Path} {text : String} {c : CompiledNative}

theorem verify_eq (hp : p.isNativeDocument = true) (hread : s.files.readText p = .ok text)
    (hc : CompiledNative.ofText text = .ok c) :
    s.verify p = if c.record.hash = "0x0" then .failed s (.badDocument .noHash)
      else { files := s.files, output := c.record.toJson.write .pretty ++ "\n" } := by
  simp [verify, hp, hread, hc]

/-- Of the documents that give a native, those are refused whose hash is zero in a single digit, and of
    all others the record is printed. -/
theorem verify_compiled (hp : p.isNativeDocument = true) (hread : s.files.readText p = .ok text)
    (hc : CompiledNative.ofText text = .ok c) :
    ∃ digits hash, HashComment.IsDigits 16 digits ∧
      c.record.hash = HashComment.hashText digits ∧ Hash.parse c.record.hash = .ok hash ∧
      (hash = 0 ∧ digits.length = 1 → (s.verify p).files = s.files ∧ (s.verify p).output = "" ∧
        (s.verify p).exitCode = 3 ∧
        (s.verify p).error.map RunError.message = some "No native hash was specified.") ∧
      (¬ (hash = 0 ∧ digits.length = 1) → (s.verify p).files = s.files ∧
        (s.verify p).output = c.record.toJson.write .pretty ++ "\n" ∧
        (s.verify p).exitCode = 0 ∧ (s.verify p).error = none) := by
  obtain ⟨digits, hdigits, hhash⟩ := CompiledNative.hashText_ofText hc
  obtain ⟨hash, hparse⟩ := HashComment.parse_hashText hdigits
  have hzero : c.record.hash = "0x0" ↔ hash = 0 ∧ digits.length = 1 := by
    rw [hhash, HashComment.hashText_eq_zero_iff hdigits, hparse, Except.ok.injEq]
  refine ⟨digits, hash, hdigits, hhash, hhash ▸ hparse, fun h => ?_, fun h => ?_⟩
  · rw [verify_eq hp hread hc, if_pos (hzero.2 h)]
    exact ⟨rfl, rfl, rfl, rfl⟩
  · rw [verify_eq hp hread hc, if_neg fun he => h (hzero.1 he)]
    exact ⟨rfl, rfl, rfl, rfl⟩

end Compiled

def sampleText (digits : String) : String :=
  "## ZERO\n\n```c\n// 0x" ++ digits ++ "\nvoid ZERO();\n```\n"

def sampleSurroundings (digits : String) : Surroundings where
  files := .directory [("zero.md", .file (sampleText digits).toUTF8 ⟨0, 0⟩)]
  now := ⟨0, 0⟩

theorem readText_sample (digits : String) :
    (sampleSurroundings digits).files.readText ⟨"zero.md"⟩ = .ok (sampleText digits) := by
  have hbytes : (sampleSurroundings digits).files.readBytes ⟨"zero.md"⟩ =
      .ok (sampleText digits).toUTF8 := rfl
  simp only [FileTree.readText, hbytes, bind, Except.bind, String.fromUTF8?_toUTF8]

theorem verify_compiled_sample :
    ∃ c, Path.isNativeDocument ⟨"zero.md"⟩ = true ∧
      (sampleSurroundings "0").files.readText ⟨"zero.md"⟩ = .ok (sampleText "0") ∧
      CompiledNative.ofText (sampleText "0") = .ok c ∧
      ((sampleSurroundings "0").verify ⟨"zero.md"⟩).exitCode = 3 := by
  have hp : Path.isNativeDocument ⟨"zero.md"⟩ = true := by decide +kernel
  have hcompiled : (CompiledNative.ofText (sampleText "0")).toOption.map (·.record.hash) =
      some "0x0" := by decide +kernel
  obtain ⟨c, hc, hhash⟩ := Except.map_toOption_eq_some.1 hcompiled
  refine ⟨c, hp, readText_sample "0", hc, ?_⟩
  obtain ⟨digits, hash, hdigits, htext, hparse, hfails, -⟩ := verify_compiled hp (readText_sample "0") hc
  rw [hhash] at htext hparse
  refine (hfails ?_).2.2.1
  rw [← Except.ok.injEq, ← hparse, htext]
  exact (HashComment.hashText_eq_zero_iff hdigits).1 htext.symm

/-- Zero in two digits is not refused. -/
theorem verify_zeros :
    ∃ c, Path.isNativeDocument ⟨"zero.md"⟩ = true ∧
      (sampleSurroundings "00").files.readText ⟨"zero.md"⟩ = .ok (sampleText "00") ∧
      CompiledNative.ofText (sampleText "00") = .ok c ∧ Hash.parse c.record.hash = .ok 0 ∧
      ((sampleSurroundings "00").verify ⟨"zero.md"⟩).error = none := by
  have hp : Path.isNativeDocument ⟨"zero.md"⟩ = true := by decide +kernel
  have hcompiled : (CompiledNative.ofText (sampleText "00")).toOption.map (·.record.hash) =
      some "0x00" := by decide +kernel
  obtain ⟨c, hc, hhash⟩ := Except.map_toOption_eq_some.1 hcompiled
  refine ⟨c, hp, readText_sample "00", hc, hhash ▸ rfl, ?_⟩
  rw [verify_eq hp (readText_sample "00") hc, hhash]
  rfl

end NativeCatalogue.Surroundings
