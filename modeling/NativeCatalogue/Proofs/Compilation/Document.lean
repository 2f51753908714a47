import NativeCatalogue.Compilation.Basic
import NativeCatalogue.Proofs.Basic
import NativeCatalogue.Proofs.Hash.Comment

set_option autoImplicit false

namespace NativeCatalogue

namespace CompiledNative

theorem documentParameters_eq_ok {r described : NativeRecord} {blocks : List Block}
    (h : r.documentParameters blocks = .ok described) :
    ∃ items parameters, firstList? blocks = some items ∧
      items.foldlM ParameterDoc.apply r.parameters = .ok parameters ∧
      described = { r with parameters := parameters } := by
  unfold NativeRecord.documentParameters at h
  split at h
  · cases h
  · rename_i items hitems
    obtain ⟨parameters, hparameters, hrecord⟩ := bind_eq_ok.1 h
    cases hrecord
    exact ⟨items, parameters, hitems, hparameters, rfl⟩

def parametersOf (doc : Document) (p : Prototype) : Except DocumentError (List ParameterRecord) :=
  match doc.sectionOf? "parameters" with
  | none => .ok (recordOf p {}).parameters
  | some blocks =>
    match firstList? blocks with
    | none => .error .noParameterList
    | some items => items.foldlM ParameterDoc.apply (recordOf p {}).parameters

theorem parameters_withHashComment (r : NativeRecord) (code : String) :
    (withHashComment r code).parameters = r.parameters := by
  unfold withHashComment
  split <;> rfl

theorem ofDocument_eq_ok {doc : Document} {c : CompiledNative} (h : ofDocument doc = .ok c) :
    ∃ m code parameters, frontMatterOf doc = .ok m ∧ codeOf doc = .ok code ∧
      Prototype.parse code = .ok c.prototype ∧ parametersOf doc c.prototype = .ok parameters ∧
      c.record = withSections { withHashComment (recordOf c.prototype m) code with
        parameters := parameters } doc c.prototype.name := by
  obtain ⟨m, hm, h⟩ := bind_eq_ok.1 h
  obtain ⟨code, hcode, h⟩ := bind_eq_ok.1 h
  obtain ⟨p, hp, h⟩ := bind_eq_ok.1 h
  rw [Except.mapError_eq_ok] at hp
  have hplain := parameters_withHashComment (recordOf p m) code
  dsimp only at h
  split at h
  · rename_i blocks hblocks
    obtain ⟨record, hrecord, h⟩ := bind_eq_ok.1 h
    obtain ⟨items, parameters, hitems, hparameters, rfl⟩ := documentParameters_eq_ok hrecord
    rw [hplain] at hparameters
    cases h
    refine ⟨m, code, parameters, hm, hcode, hp, ?_, rfl⟩
    simp only [parametersOf, hblocks, hitems]
    exact hparameters
  · rename_i hblocks
    cases h
    refine ⟨m, code, (withHashComment (recordOf p m) code).parameters, hm, hcode, hp, ?_, rfl⟩
    simp only [parametersOf, hblocks]
    exact congrArg Except.ok hplain.symm

/-- The hash of a native has the digits of its hash comment, or else those of the hash of its name. -/
theorem hashText_ofText {source : String} {c : CompiledNative} (h : ofText source = .ok c) :
    ∃ digits, HashComment.IsDigits 16 digits ∧ c.record.hash = HashComment.hashText digits := by
  obtain ⟨m, code, parameters, -, -, -, -, hrecord⟩ := ofDocument_eq_ok h
  have hhash : c.record.hash = (withHashComment (recordOf c.prototype m) code).hash := by
    rw [hrecord]
    rfl
  rw [hhash]
  unfold withHashComment
  split
  · exact ⟨_, HashComment.isDigits_upperHex _, HashComment.text_eq _⟩
  · rename_i comment hcomment
    exact ⟨comment.hash, (HashComment.isDigits_of_find? hcomment).1, rfl⟩

end CompiledNative

end NativeCatalogue
