import NativeCatalogue.Proofs.Record.FrontMatter

set_option autoImplicit false

namespace NativeCatalogue

theorem Annotation.ofJson?_toJson (a : Annotation) :
    Annotation.ofJson? (.ofJson a.toJson) = some a := by
  cases a <;> rfl

theorem AnnotationSet.ofJson?_toJson (s : AnnotationSet) :
    AnnotationSet.ofJson? (.ofJson s.toJson) = some s := by
  have hitems : (JsonText.ofItems (s.items.map Annotation.toJson)).mapM Annotation.ofJson? =
      some s.items :=
    JsonText.mapM_ofItems fun a _ => a.ofJson?_toJson
  change ((JsonText.ofItems (s.items.map Annotation.toJson)).mapM Annotation.ofJson?).bind _ = _
  rw [hitems]
  rfl

def AnnotationSet.toValue (s : AnnotationSet) : Option Json :=
  if s.isEmpty then none else some s.toJson

namespace AnnotationSet

theorem toMember_eq (s : AnnotationSet) : s.toMember = present [("annotations", s.toValue)] := by
  unfold toMember toValue
  split <;> rfl

theorem toValue_eq (s : AnnotationSet) : s = ∅ ∧ s.toValue = none ∨ s.toValue = some s.toJson := by
  obtain ⟨items⟩ := s
  cases items with
  | nil => exact .inl ⟨rfl, rfl⟩
  | cons a items => exact .inr rfl

theorem read_toValue (s : AnnotationSet) :
    ((s.toValue.map JsonText.ofJson).map AnnotationSet.ofJson?).getD (some ∅) = some s := by
  rcases s.toValue_eq with ⟨rfl, hnone⟩ | hsome
  · rw [hnone]
    rfl
  · rw [hsome]
    exact s.ofJson?_toJson

theorem fieldOr_toValue {members : List (String × Json)} {key : String} {s : AnnotationSet}
    (h : members.lookup key = s.toValue) :
    JsonText.fieldOr (JsonText.texts members) key ∅ AnnotationSet.ofJson? = some s := by
  rw [JsonText.fieldOr, JsonText.lookup_texts, h, ← s.read_toValue]
  cases s.toValue <;> rfl

end AnnotationSet

namespace ParameterRecord

def fieldTable (p : ParameterRecord) : List (String × Option Json) :=
  [("name", some (.string p.name)), ("type", some (.string p.type)),
    ("description", p.description.map .string), ("annotations", p.annotations.toValue)]

theorem toJson_eq (p : ParameterRecord) : p.toJson = .object (present p.fieldTable) := by
  rw [toJson, FrontMatter.textMember_eq, AnnotationSet.toMember_eq, List.append_assoc,
    ← present_append]
  rfl

theorem ofJson?_object (members : List (String × Json)) :
    ParameterRecord.ofJson? (.ofJson (.object members)) = (do
      let fields ← JsonText.fields? ["name", "type", "description", "annotations"]
        (.ofJson (.object members))
      ofFields? (← fields.lookup "name") (← fields.lookup "type") (fields.lookup "description")
        (fields.lookup "annotations")) := rfl

theorem ofJson?_toJson (p : ParameterRecord) : ParameterRecord.ofJson? (.ofJson p.toJson) = some p := by
  have hkeys : (p.fieldTable.map Prod.fst).Nodup :=
    (by decide : ["name", "type", "description", "annotations"].Nodup)
  have hlookup : ∀ e ∈ p.fieldTable, (JsonText.texts (present p.fieldTable)).lookup e.1 =
      e.2.map JsonText.ofJson := by
    intro e he
    rw [JsonText.lookup_texts, lookup_present hkeys he]
  have hname := hlookup ("name", some (.string p.name)) (.head _)
  have htype := hlookup ("type", some (.string p.type)) (.tail _ (.head _))
  have hdescription := hlookup ("description", p.description.map .string) (.tail _ (.tail _ (.head _)))
  have hannotations :=
    hlookup ("annotations", p.annotations.toValue) (.tail _ (.tail _ (.tail _ (.head _))))
  rw [toJson_eq, ofJson?_object,
    JsonText.fields?_ofJson (hkeys.sublist (keys_present_sublist p.fieldTable)), Option.bind_eq_bind,
    Option.bind_some, hname, htype, hdescription, hannotations]
  change (do
    let description ← (((p.description.map Json.string).map JsonText.ofJson).map
      JsonText.optionalText?).getD (some none)
    let annotations ← ((p.annotations.toValue.map JsonText.ofJson).map
      AnnotationSet.ofJson?).getD (some ∅)
    return { p with description, annotations }) = some p
  rw [AnnotationSet.read_toValue]
  cases p with
  | mk name type description annotations =>
    cases description <;> rfl

end ParameterRecord

namespace ExampleRecord

theorem ofJson?_toJson (e : ExampleRecord) : ExampleRecord.ofJson? (.ofJson e.toJson) = some e := by
  obtain ⟨language, code⟩ := e
  cases language <;> rfl

end ExampleRecord

namespace NativeRecord

/-- The values of the record's own keys; keys without a value are left out of its object. -/
def fieldTable (r : NativeRecord) : List (String × Option Json) :=
  [("name", r.name.map .string),
    ("params", some (.array (r.parameters.map ParameterRecord.toJson))),
    ("results", some (.string r.results)),
    ("description", some (.string r.description)),
    ("examples", some (.array (r.examples.map ExampleRecord.toJson))),
    ("hash", some (.string r.hash)),
    ("jhash", r.jhash.map .string),
    ("manualHash", if r.manualHash then some (.bool true) else none),
    ("resultsDescription", r.resultsDescription.map .string),
    ("annotations", r.annotations.toValue)]

theorem keys_fieldTable (r : NativeRecord) : r.fieldTable.map Prod.fst = FrontMatter.reservedKeys :=
  rfl

theorem nodup_reservedKeys : FrontMatter.reservedKeys.Nodup := by
  decide

theorem toOwnMembers_eq (r : NativeRecord) : r.toOwnMembers = present r.fieldTable := by
  have hmanual : (if r.manualHash then [("manualHash", Json.bool true)] else []) =
      present [("manualHash", if r.manualHash then some (Json.bool true) else none)] := by
    split <;> rfl
  have hrequired : [("params", .array (r.parameters.map ParameterRecord.toJson)),
      ("results", .string r.results), ("description", .string r.description),
      ("examples", .array (r.examples.map ExampleRecord.toJson)), ("hash", .string r.hash)] =
      present ((r.fieldTable.drop 1).take 5) := rfl
  rw [toOwnMembers, hmanual, hrequired, AnnotationSet.toMember_eq, FrontMatter.textMember_eq,
    FrontMatter.textMember_eq, FrontMatter.textMember_eq, ← present_append, ← present_append,
    ← present_append, ← present_append, ← present_append]
  rfl

structure Separate (r : NativeRecord) : Prop where
  delivered : r.frontMatter.Delivered
  unreserved : ∀ e ∈ r.frontMatter.extra.toList, e.1 ∉ FrontMatter.reservedKeys

theorem lookup_other (r : NativeRecord) {key : String} (hkey : key ∉ FrontMatter.reservedKeys) :
    (r.toOwnMembers ++ r.frontMatter.toMembers).lookup key = r.frontMatter.toMembers.lookup key := by
  rw [toOwnMembers_eq]
  exact lookup_present_append_other r.fieldTable hkey

namespace Separate

variable {r : NativeRecord}

theorem toMembers_unreserved (h : r.Separate) :
    ∀ e ∈ r.frontMatter.toMembers, e.1 ∉ r.fieldTable.map Prod.fst := by
  intro e he
  rw [FrontMatter.toMembers_eq] at he
  rcases List.mem_append.1 he with hknown | hextra
  · have hkey := (keys_present_sublist r.frontMatter.knownTable).subset (List.mem_map_of_mem hknown)
    exact FrontMatter.known_unreserved e.1 hkey
  · exact h.unreserved e hextra

theorem nodup_members (h : r.Separate) :
    ((r.toOwnMembers ++ r.frontMatter.toMembers).map Prod.fst).Nodup := by
  rw [toOwnMembers_eq]
  exact nodup_present_append r.fieldTable nodup_reservedKeys h.delivered.nodup_toMembers h.toMembers_unreserved

theorem lookup_own (h : r.Separate) {key : String} {value : Option Json}
    (hmem : (key, value) ∈ r.fieldTable) :
    (r.toOwnMembers ++ r.frontMatter.toMembers).lookup key = value := by
  rw [toOwnMembers_eq]
  exact lookup_present_append r.fieldTable nodup_reservedKeys h.toMembers_unreserved hmem

theorem filter_other (h : r.Separate) :
    (r.toOwnMembers ++ r.frontMatter.toMembers).filter (!FrontMatter.reservedKeys.contains ·.1) =
      r.frontMatter.toMembers := by
  rw [toOwnMembers_eq]
  exact filter_present_append r.fieldTable h.toMembers_unreserved

theorem read_frontMatter (h : r.Separate) {limit : Nat} (hlimit : r.toJson.depth ≤ limit) :
    FrontMatter.ofMembers? (limit - 1) ((JsonText.texts (r.toOwnMembers ++
      r.frontMatter.toMembers)).filter (!FrontMatter.reservedKeys.contains ·.1)) =
      some r.frontMatter := by
  rw [JsonText.filter_texts, h.filter_other]
  apply h.delivered.ofMembers?_texts
  intro e he
  have hmem : e ∈ r.toOwnMembers ++ r.frontMatter.toMembers := by
    rw [FrontMatter.toMembers_eq]
    exact List.mem_append_right _ (List.mem_append_right _ he)
  have hdepth := JsonText.depth_le_depthOfMembers hmem
  rw [toJson, Json.depth] at hlimit
  omega

/-- A record is read back from its object if nesting as deep as its own is allowed. -/
theorem ofJson?_toJson (h : r.Separate) {limit : Nat} (hlimit : r.toJson.depth ≤ limit) :
    ofJson? limit (.ofJson r.toJson) = some r := by
  have hfields : JsonText.fields? FrontMatter.reservedKeys (.ofJson r.toJson) =
      some (JsonText.texts (r.toOwnMembers ++ r.frontMatter.toMembers)) :=
    JsonText.fields?_ofJson h.nodup_members FrontMatter.reservedKeys
  have hown : ∀ e ∈ r.fieldTable, (r.toOwnMembers ++ r.frontMatter.toMembers).lookup e.1 = e.2 :=
    fun e he => h.lookup_own he
  have hfrontMatter := h.read_frontMatter hlimit
  unfold ofJson?
  rw [hfields, Option.bind_eq_bind, Option.bind_some]
  generalize r.toOwnMembers ++ r.frontMatter.toMembers = members at hown hfrontMatter ⊢
  have hname := hown ("name", r.name.map .string) (by simp [fieldTable])
  have hparameters : JsonText.field? (JsonText.texts members) "params" (fun value => do
      (← value.items?).mapM ParameterRecord.ofJson?) = some r.parameters := by
    rw [JsonText.field?_texts (hown ("params",
      some (.array (r.parameters.map ParameterRecord.toJson))) (by simp [fieldTable]))]
    exact JsonText.mapM_ofItems fun p _ => p.ofJson?_toJson
  have hresults := hown ("results", some (.string r.results)) (by simp [fieldTable])
  have hdescription := hown ("description", some (.string r.description)) (by simp [fieldTable])
  have hexamples : JsonText.field? (JsonText.texts members) "examples" (fun value => do
      (← value.items?).mapM ExampleRecord.ofJson?) = some r.examples := by
    rw [JsonText.field?_texts (hown ("examples",
      some (.array (r.examples.map ExampleRecord.toJson))) (by simp [fieldTable]))]
    exact JsonText.mapM_ofItems fun e _ => e.ofJson?_toJson
  have hhash := hown ("hash", some (.string r.hash)) (by simp [fieldTable])
  have hjhash := hown ("jhash", r.jhash.map .string) (by simp [fieldTable])
  have hmanual : JsonText.fieldOr (JsonText.texts members) "manualHash" false JsonText.bool? =
      some r.manualHash := by
    rw [JsonText.fieldOr_texts, hown ("manualHash",
      if r.manualHash then some (.bool true) else none) (by simp [fieldTable])]
    cases r.manualHash <;> rfl
  have hresult := hown ("resultsDescription", r.resultsDescription.map .string)
    (by simp [fieldTable])
  have hannotations := hown ("annotations", r.annotations.toValue) (by simp [fieldTable])
  simp only [hparameters, hexamples, hmanual, hfrontMatter, JsonText.fieldOr_optionalText hname,
    JsonText.fieldOr_optionalText hjhash, JsonText.fieldOr_optionalText hresult,
    JsonText.field?_texts hresults, JsonText.field?_texts hdescription,
    JsonText.field?_texts hhash, AnnotationSet.fieldOr_toValue hannotations]
  rfl

theorem ofValue?_toJson (h : r.Separate) : ofValue? r.toJson = some r :=
  h.ofJson?_toJson (Nat.le_refl _)

end Separate

end NativeRecord

end NativeCatalogue
