import NativeCatalogue.Proofs.Compilation.Document

set_option autoImplicit false

namespace NativeCatalogue

namespace CompiledNative

open HashComment

/-- A hash is a manual one if there is a hash comment. Then its digits are those of the first literal as
    written, up to the first sixteen: all digits of the literal, if it has no more. An older hash has those
    of a literal behind such digits, up to the first eight. -/
theorem hashes_of_ofText {source : String} {c : CompiledNative} (h : ofText source = .ok c) :
    ∃ code, codeOf (.parse source) = .ok code ∧
      (c.record.manualHash = true ↔ ∃ digits rest, First code.toList digits rest) ∧
      ∀ digits rest, First code.toList digits rest →
        c.record.hash = hashText (digits.take 16) ∧
        (c.record.hash = hashText digits ↔ digits.length ≤ 16) ∧
        ∀ jhash, c.record.jhash = some jhash ↔
          digits.length ≤ 16 ∧ ∃ older after, IsLiteral rest older after ∧
            jhash = hashText (older.take 8) ∧ (jhash = hashText older ↔ older.length ≤ 8) := by
  obtain ⟨m, code, parameters, -, hcode, -, -, hrecord⟩ := ofDocument_eq_ok h
  have hmanual : c.record.manualHash = (withHashComment (recordOf c.prototype m) code).manualHash := by
    rw [hrecord]
    rfl
  refine ⟨code, hcode, ?_, fun digits rest hfirst => ?_⟩
  · rw [hmanual, withHashComment]
    constructor
    · intro h
      split at h
      · cases h
      · rename_i comment hcomment
        exact exists_first hcomment
    · rintro ⟨digits, rest, hfirst⟩
      rw [find?_of_first hfirst]
  · have hread : withHashComment (recordOf c.prototype m) code =
        { recordOf c.prototype m with
          hash := hashText (digits.take 16)
          jhash := (ofLiteral digits rest).jhash.map hashText
          manualHash := true } := by
      rw [withHashComment, find?_of_first hfirst]
      rfl
    have hhash : c.record.hash = hashText (digits.take 16) := by
      rw [hrecord, hread]
      rfl
    have hjhash : c.record.jhash = (ofLiteral digits rest).jhash.map hashText := by
      rw [hrecord, hread]
      rfl
    obtain ⟨behind, hliteral⟩ := hfirst.exists_isLiteral
    refine ⟨hhash, by rw [hhash]; exact hashText_take_eq_iff, fun jhash => ?_⟩
    rw [hjhash, Option.map_eq_some_iff]
    constructor
    · rintro ⟨taken, htaken, rfl⟩
      obtain ⟨hlength, older, after, holder, rfl⟩ := (jhash_ofLiteral hliteral).1 htaken
      exact ⟨hlength, older, after, holder, rfl, hashText_take_eq_iff⟩
    · rintro ⟨hlength, older, after, holder, rfl, -⟩
      exact ⟨_, (jhash_ofLiteral hliteral).2 ⟨hlength, older, after, holder, rfl⟩, rfl⟩

def hashSample : String :=
  "## A\n\n```c\n// not 0x1\n//\t 0XaB 0x0123 0x4\nvoid A();\n```\n"

theorem hashes_of_ofText_sample :
    ∃ c code digits rest, ofText hashSample = .ok c ∧ codeOf (.parse hashSample) = .ok code ∧
      First code.toList digits rest ∧ c.record.hash = "0xaB" ∧ c.record.hash = hashText digits := by
  have hcompiled : (ofText hashSample).toOption.map (fun c => (c.record.manualHash, c.record.hash)) =
      some (true, "0xaB") := by decide +kernel
  obtain ⟨c, hc, hrecord⟩ := Except.map_toOption_eq_some.1 hcompiled
  obtain ⟨hmanual, hhash⟩ := Prod.mk.inj hrecord
  obtain ⟨code, hcode, hcomment, hdigits⟩ := hashes_of_ofText hc
  obtain ⟨digits, rest, hfirst⟩ := hcomment.1 hmanual
  obtain ⟨hcut, hwhole, -⟩ := hdigits digits rest hfirst
  refine ⟨c, code, digits, rest, hc, hcode, hfirst, hhash, hwhole.2 ?_⟩
  have hlength := congrArg (fun hash => hash.toList.length) (hhash.symm.trans hcut)
  simp [hashText] at hlength
  omega

def overlongCode : String :=
  "// 0x12345678901234567\nvoid A();"

def overlongSample : String :=
  "## A\n\n```c\n" ++ overlongCode ++ "\n```\n"

/-- A longer literal is cut: wherever the digits of the hash stand in the code, another one follows. -/
theorem hash_of_overlong :
    ∃ c, ofText overlongSample = .ok c ∧ (codeOf (.parse overlongSample)).toOption = some overlongCode ∧
      c.record.manualHash = true ∧ c.record.hash = hashText "1234567890123456".toList ∧
      ∀ front rest, overlongCode.toList = front ++ ("1234567890123456".toList ++ rest) →
        rest.head?.any Hash.isDigit = true := by
  have hcompiled : (ofText overlongSample).toOption.map (fun c => (c.record.manualHash, c.record.hash)) =
      some (true, hashText "1234567890123456".toList) := by decide +kernel
  obtain ⟨c, hc, hrecord⟩ := Except.map_toOption_eq_some.1 hcompiled
  obtain ⟨hmanual, hhash⟩ := Prod.mk.inj hrecord
  refine ⟨c, hc, by decide +kernel, hmanual, hhash, fun front rest hsplit => ?_⟩
  have hplaces : ∀ n ≤ overlongCode.toList.length,
      (overlongCode.toList.drop n).take 16 = "1234567890123456".toList →
        ((overlongCode.toList.drop n).drop 16).head?.any Hash.isDigit = true := by
    decide +kernel
  have hlength := congrArg List.length hsplit
  rw [List.length_append] at hlength
  have hfront := hplaces front.length (by omega)
  rw [hsplit, List.drop_left] at hfront
  simpa using hfront

end CompiledNative

end NativeCatalogue
