import NativeCatalogue.Proofs.Compilation.Document
import NativeCatalogue.Proofs.Record.RoundTrip

set_option autoImplicit false

namespace NativeCatalogue.CompiledNative

def delivered? (doc : Document) : Option FrontMatter :=
  match doc.frontMatter with
  | none => some {}
  | some text => if text.allBlank then some {} else FrontMatter.ofYaml? text

theorem frontMatterOf_eq_ok {doc : Document} {m : FrontMatter} (h : frontMatterOf doc = .ok m) :
    ∃ read, delivered? doc = some read ∧ read.Delivered ∧ m = read.withoutReserved := by
  unfold frontMatterOf at h
  unfold delivered?
  cases htext : doc.frontMatter with
  | none =>
    rw [htext] at h
    cases h
    exact ⟨{}, rfl, FrontMatter.delivered_empty, rfl⟩
  | some text =>
    rw [htext] at h
    dsimp only at h ⊢
    split at h
    · rename_i hblank
      cases h
      rw [if_pos hblank]
      exact ⟨{}, rfl, FrontMatter.delivered_empty, rfl⟩
    · rename_i hblank
      rw [if_neg hblank]
      split at h
      · rename_i read hread
        cases h
        exact ⟨read, hread, FrontMatter.delivered_ofYaml? hread, rfl⟩
      · cases h

theorem frontMatter_withSections (r : NativeRecord) (doc : Document) (name : String) :
    (withSections r doc name).frontMatter = r.frontMatter := rfl

theorem frontMatter_withHashComment (r : NativeRecord) (code : String) :
    (withHashComment r code).frontMatter = r.frontMatter := by
  unfold withHashComment
  split <;> rfl

theorem frontMatter_ofDocument {doc : Document} {c : CompiledNative} (h : ofDocument doc = .ok c) :
    ∃ read, delivered? doc = some read ∧ read.Delivered ∧
      c.record.frontMatter = read.withoutReserved := by
  obtain ⟨m, code, parameters, hm, -, -, -, hrecord⟩ := ofDocument_eq_ok h
  obtain ⟨read, hread, hdelivered, rfl⟩ := frontMatterOf_eq_ok hm
  refine ⟨read, hread, hdelivered, ?_⟩
  rw [hrecord, frontMatter_withSections]
  exact frontMatter_withHashComment _ code

theorem separate_ofDocument {doc : Document} {c : CompiledNative} (h : ofDocument doc = .ok c) :
    c.record.Separate := by
  obtain ⟨read, -, hdelivered, hfrontMatter⟩ := frontMatter_ofDocument h
  constructor
  · rw [hfrontMatter]
    exact hdelivered.withoutReserved
  · rw [hfrontMatter]
    exact read.withoutReserved_unreserved

theorem fieldTable_withHashComment (p : Prototype) (m other : FrontMatter) (code : String)
    (parameters : List ParameterRecord) (doc : Document) (name : String) :
    (withSections { withHashComment (recordOf p m) code with parameters := parameters } doc
      name).fieldTable =
      (withSections { withHashComment (recordOf p other) code with parameters := parameters } doc
        name).fieldTable := by
  unfold withHashComment
  split <;> rfl

theorem fieldTable_frontMatter {doc : Document} {text : Option String} {c d : CompiledNative}
    (hc : ofDocument doc = .ok c) (hd : ofDocument { doc with frontMatter := text } = .ok d) :
    d.record.fieldTable = c.record.fieldTable := by
  obtain ⟨m, code, parameters, -, hcode, hp, hparameters, hrecord⟩ := ofDocument_eq_ok hc
  obtain ⟨m', code', parameters', -, hcode', hp', hparameters', hrecord'⟩ := ofDocument_eq_ok hd
  have hsame : code' = code := Except.ok.inj (hcode'.symm.trans hcode)
  subst hsame
  have hprototype : d.prototype = c.prototype := Except.ok.inj (hp'.symm.trans hp)
  rw [hprototype] at hparameters' hrecord'
  have hsame : parameters' = parameters := Except.ok.inj (hparameters'.symm.trans hparameters)
  subst hsame
  rw [hrecord, hrecord']
  exact fieldTable_withHashComment c.prototype m' m code' parameters' doc c.prototype.name

/-- The object of a compiled record has each key once. At the keys of the record's own fields it has
their values, which do not depend on front matter; at all other keys it has what the front matter sets.
The record is read back from it. -/
theorem toJson_ofText {source : String} {c : CompiledNative} (h : ofText source = .ok c) :
    ∃ members read, c.record.toJson = .object members ∧ delivered? (.parse source) = some read ∧
      (members.map Prod.fst).Nodup ∧
      c.record.fieldTable.map Prod.fst = FrontMatter.reservedKeys ∧
      (∀ e ∈ c.record.fieldTable, members.lookup e.1 = e.2) ∧
      (∀ text d, ofDocument { Document.parse source with frontMatter := text } = .ok d →
        d.record.fieldTable = c.record.fieldTable) ∧
      (∀ e ∈ read.knownTable, members.lookup e.1 = e.2) ∧
      (∀ key, key ∉ FrontMatter.reservedKeys → key ∉ FrontMatter.knownKeys →
        members.lookup key = read.extra.get? key) ∧
      NativeRecord.ofValue? c.record.toJson = some c.record := by
  obtain ⟨read, hread, hdelivered, hfrontMatter⟩ := frontMatter_ofDocument h
  have hseparate := separate_ofDocument h
  refine ⟨c.record.toOwnMembers ++ c.record.frontMatter.toMembers, read, rfl, hread,
    hseparate.nodup_members, c.record.keys_fieldTable, fun e he => hseparate.lookup_own he,
    fun text d hd => fieldTable_frontMatter h hd, ?_, ?_, hseparate.ofValue?_toJson⟩
  · intro e he
    have hkey : e.1 ∈ read.knownTable.map Prod.fst := List.mem_map_of_mem he
    rw [c.record.lookup_other (FrontMatter.known_unreserved e.1 hkey), hfrontMatter]
    exact hdelivered.withoutReserved.lookup_known he
  · intro key hreserved hknown
    rw [c.record.lookup_other hreserved, FrontMatter.lookup_extra _ hknown, hfrontMatter]
    exact read.get?_withoutReserved hreserved

def sampleDocument : String :=
  "---\nns: CFX\nhash: custom\nresults: nope\nflag: [1, ~]\n---\n## A\n```c\nvoid A(since(2) int x);\n```\n"

theorem toJson_ofText_sample :
    ∃ c members read, ofText sampleDocument = .ok c ∧ c.record.toJson = .object members ∧
      delivered? (.parse sampleDocument) = some read ∧
      (read.extra.get? "hash").bind Json.text? = some "custom" ∧
      members.lookup "hash" = some (.string c.record.hash) ∧
      members.lookup "flag" = read.extra.get? "flag" ∧
      NativeRecord.ofValue? c.record.toJson = some c.record := by
  have hcompiled : ∃ c, ofText sampleDocument = .ok c := by
    have hok : (ofText sampleDocument).isOk = true := by decide +kernel
    cases hc : ofText sampleDocument with
    | ok c => exact ⟨c, rfl⟩
    | error e => rw [hc] at hok; cases hok
  obtain ⟨c, hc⟩ := hcompiled
  obtain ⟨members, read, hjson, hread, -, -, hown, -, -, hextra, hvalue⟩ := toJson_ofText hc
  have hset : ((delivered? (.parse sampleDocument)).bind fun read =>
      (read.extra.get? "hash").bind Json.text?) = some "custom" := by
    decide +kernel
  rw [hread] at hset
  exact ⟨c, members, read, hc, hjson, hread, hset,
    hown ("hash", some (.string c.record.hash)) (by simp [NativeRecord.fieldTable]),
    hextra "flag" (by decide) (by decide), hvalue⟩

end NativeCatalogue.CompiledNative
