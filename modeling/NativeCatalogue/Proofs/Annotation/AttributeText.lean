import NativeCatalogue.Proofs.Prototype.WellFormed

set_option autoImplicit false

namespace NativeCatalogue.Annotation

theorem make_eq_ok_iff {kind : AnnotationKind} {payload : Option String} {a : Annotation} :
    make kind payload = .ok a ↔
      a.kind = kind ∧ a.payload? = (payload.map normalizePayload).filter (· ≠ "") := by
  constructor
  · intro h
    refine ⟨?_, payload?_of_make h⟩
    unfold make at h
    split at h
    all_goals cases h
    all_goals rfl
  · rintro ⟨rfl, hpayload⟩
    unfold make
    rw [← hpayload]
    cases a <;> rfl

/-- An annotation can be made exactly if there is a payload where its kind takes one, and only there. -/
theorem exists_make_iff {kind : AnnotationKind} {payload : Option String} :
    (∃ a, make kind payload = .ok a) ↔
      ((∃ rest ∈ payload, rest.allBlank = false) ↔ kind.takesPayload = true) := by
  have hkept : ((payload.map normalizePayload).filter (· ≠ "")).isSome = true ↔
      ∃ rest ∈ payload, rest.allBlank = false := by
    cases payload with
    | none => simp
    | some rest => simp [Option.filter_some, normalizePayload_eq_empty_iff]
  rw [← hkept, ← Bool.eq_iff_iff]
  constructor
  · rintro ⟨a, ha⟩
    obtain ⟨rfl, hpayload⟩ := make_eq_ok_iff.1 ha
    rw [← hpayload, Prototype.takesPayload_kind]
  · intro h
    unfold make
    cases hpayload : (payload.map normalizePayload).filter (· ≠ "") with
    | none =>
      rw [hpayload] at h
      cases kind with
      | split => exact ⟨.split, rfl⟩
      | omitted => exact ⟨.omitted, rfl⟩
      | _ => cases h
    | some p =>
      rw [hpayload] at h
      cases kind with
      | since => exact ⟨.since p, rfl⟩
      | «until» => exact ⟨.until p, rfl⟩
      | displayType => exact ⟨.displayType p, rfl⟩
      | _ => cases h

/-- What stands before the first colon of a text and what stands behind it; all of a text without one. -/
inductive CutsAtColon : String → String → Option String → Prop
  | plain {s : String} : ':' ∉ s.toList → CutsAtColon s s none
  | colon {word rest : String} : ':' ∉ word.toList →
      CutsAtColon (word ++ ":" ++ rest) word (some rest)

theorem cutAtColon_of_cutsAtColon {s word : String} {payload : Option String}
    (h : CutsAtColon s word payload) : cutAtColon s = (word, payload) := by
  cases h with
  | plain h =>
    have hdrop : s.toList.dropWhile (· ≠ ':') = [] :=
      List.dropWhile_eq_nil_iff.2 fun c hc => decide_eq_true fun he => h (he ▸ hc)
    rw [cutAtColon, hdrop]
  | @colon word rest h =>
    have hlist : (word ++ ":" ++ rest).toList = word.toList ++ ':' :: rest.toList := by
      rw [String.toList_append, String.toList_append, List.append_assoc]
      rfl
    have hword : word.toList.all (fun c => decide (c ≠ ':')) = true :=
      List.all_eq_true.2 fun c hc => decide_eq_true fun he => h (he ▸ hc)
    have hcolon : ∀ c ∈ (':' :: rest.toList).head?, decide (c ≠ ':') = false := fun c hc => by
      cases hc
      rfl
    obtain ⟨htake, hdrop⟩ := List.takeWhile_append_of_head hword hcolon
    rw [cutAtColon, hlist, hdrop, htake, String.ofList_toList]
    exact congrArg (fun rest => (word, some rest)) String.ofList_toList

theorem exists_cutsAtColon (s : String) : ∃ word payload, CutsAtColon s word payload := by
  by_cases h : ':' ∈ s.toList
  · obtain ⟨word, rest, hs, hword⟩ := List.eq_append_cons_of_mem h
    have hcut : CutsAtColon (.ofList word ++ ":" ++ .ofList rest) (.ofList word) (some (.ofList rest)) :=
      .colon (by rwa [String.toList_ofList])
    have hjoin : String.ofList word ++ ":" ++ .ofList rest = s := by
      rw [← String.toList_inj, hs]
      simp
    exact ⟨_, _, hjoin ▸ hcut⟩
  · exact ⟨s, none, .plain h⟩

theorem ofKeyword?_eq_some_iff {word : String} {kind : AnnotationKind} :
    AnnotationKind.ofKeyword? word = some kind ↔ word = kind.keyword := by
  constructor
  · intro h
    unfold AnnotationKind.ofKeyword? at h
    have hkeyword := List.find?_some h
    exact (of_decide_eq_true hkeyword).symm
  · rintro rfl
    exact Prototype.ofKeyword?_keyword kind

theorem ofAttributeText_eq {s word : String} {payload : Option String} (h : CutsAtColon s word payload) :
    ofAttributeText s =
      match AnnotationKind.ofKeyword? word.trimBlanks with
      | some kind => make kind payload
      | none => .error (.unknownKind word.trimBlanks) := by
  unfold ofAttributeText
  cases hkind : AnnotationKind.ofKeyword? word.trimBlanks with
  | some kind => simp only [cutAtColon_of_cutsAtColon h, hkind]
  | none => simp only [cutAtColon_of_cutsAtColon h, hkind]

theorem ofAttributeText_eq_ok_iff {s word : String} {payload : Option String}
    (h : CutsAtColon s word payload) {a : Annotation} :
    ofAttributeText s = .ok a ↔ word.trimBlanks = a.kind.keyword ∧ make a.kind payload = .ok a := by
  rw [ofAttributeText_eq h]
  constructor
  · intro hread
    split at hread
    · rename_i kind hkind
      obtain rfl := (make_eq_ok_iff.1 hread).1
      exact ⟨ofKeyword?_eq_some_iff.1 hkind, hread⟩
    · cases hread
  · rintro ⟨hword, hmake⟩
    rw [ofKeyword?_eq_some_iff.2 hword]
    exact hmake

theorem cutsAtColon_attributeText (a : Annotation) :
    CutsAtColon a.attributeText a.kind.keyword a.payload? := by
  have hfree : ':' ∉ a.kind.keyword.toList := by
    cases a.kind <;> decide
  unfold attributeText
  cases a.payload? with
  | none => exact .plain hfree
  | some p => exact .colon hfree

/-- Annotations that were made of a kind and a raw payload, or read from a text. -/
inductive IsObtained : Annotation → Prop
  | made {kind : AnnotationKind} {payload : Option String} {a : Annotation} :
      make kind payload = .ok a → IsObtained a
  | read {s : String} {a : Annotation} : ofAttributeText s = .ok a → IsObtained a

theorem IsObtained.exists_make {a : Annotation} (h : IsObtained a) :
    ∃ payload, make a.kind payload = .ok a := by
  cases h with
  | made h =>
    obtain ⟨rfl, -⟩ := make_eq_ok_iff.1 h
    exact ⟨_, h⟩
  | @read s _ h =>
    obtain ⟨word, payload, hcut⟩ := exists_cutsAtColon s
    exact ⟨payload, ((ofAttributeText_eq_ok_iff hcut).1 h).2⟩

theorem IsObtained.kept {a : Annotation} (h : IsObtained a) :
    ∀ p ∈ a.payload?, p ≠ "" ∧ normalizePayload p = p := by
  obtain ⟨payload, hmake⟩ := h.exists_make
  exact kept_of_make hmake

theorem IsObtained.ofAttributeText {a : Annotation} (h : IsObtained a) :
    ofAttributeText a.attributeText = .ok a := by
  have hkept : a.hasKeptPayload = true := by
    rw [hasKeptPayload, Option.all_eq_true]
    intro p hp
    rw [Bool.and_eq_true, decide_eq_true_eq, decide_eq_true_eq]
    exact h.kept p hp
  have hkeyword : a.kind.keyword.trimBlanks = a.kind.keyword := by
    cases a.kind <;> decide
  exact (ofAttributeText_eq_ok_iff (cutsAtColon_attributeText a)).2
    ⟨hkeyword, Prototype.make_kind hkept⟩

theorem exists_ofAttributeText_iff {s : String} : (∃ a, ofAttributeText s = .ok a) ↔
    ∃ word payload, ∃ kind : AnnotationKind, CutsAtColon s word payload ∧
      word.trimBlanks = kind.keyword ∧ ((∃ rest ∈ payload, rest.allBlank = false) ↔ kind.takesPayload = true) := by
  constructor
  · rintro ⟨a, ha⟩
    obtain ⟨word, payload, hcut⟩ := exists_cutsAtColon s
    obtain ⟨hword, hmake⟩ := (ofAttributeText_eq_ok_iff hcut).1 ha
    exact ⟨word, payload, a.kind, hcut, hword, exists_make_iff.1 ⟨a, hmake⟩⟩
  · rintro ⟨word, payload, kind, hcut, hword, hpayload⟩
    obtain ⟨a, ha⟩ := exists_make_iff.2 hpayload
    obtain ⟨rfl, -⟩ := make_eq_ok_iff.1 ha
    exact ⟨a, (ofAttributeText_eq_ok_iff hcut).2 ⟨hword, ha⟩⟩

/-- Annotations that were made or read are read back from their attribute strings, which so tell them apart. A
    text is read exactly if a keyword stands before its first colon and something behind it where the kind takes
    a payload, and only there; what is kept of the payload stays as it is. -/
theorem attributeText_reads :
    (∀ a, IsObtained a → ofAttributeText a.attributeText = .ok a) ∧
    (∀ a b, IsObtained a → IsObtained b → a ≠ b → a.attributeText ≠ b.attributeText) ∧
    (∀ s, (∃ a, ofAttributeText s = .ok a) ↔
      ∃ word payload, ∃ kind : AnnotationKind, CutsAtColon s word payload ∧
        word.trimBlanks = kind.keyword ∧
          ((∃ rest ∈ payload, rest.allBlank = false) ↔ kind.takesPayload = true)) ∧
    ∀ s a, ofAttributeText s = .ok a →
      (∃ word payload, CutsAtColon s word payload ∧ word.trimBlanks = a.kind.keyword ∧
        a.payload? = (payload.map normalizePayload).filter (· ≠ "")) ∧
      (∀ p ∈ a.payload?, p ≠ "" ∧ normalizePayload p = p) ∧
        (ofAttributeText a.attributeText).map attributeText = .ok a.attributeText := by
  refine ⟨fun _ => IsObtained.ofAttributeText, fun a b ha hb hne he => hne ?_,
    fun _ => exists_ofAttributeText_iff, fun s a h => ⟨?_, (IsObtained.read h).kept, ?_⟩⟩
  · have hread := ha.ofAttributeText
    rw [he, hb.ofAttributeText] at hread
    exact (Except.ok.inj hread).symm
  · obtain ⟨word, payload, hcut⟩ := exists_cutsAtColon s
    obtain ⟨hword, hmake⟩ := (ofAttributeText_eq_ok_iff hcut).1 h
    exact ⟨word, payload, hcut, hword, (make_eq_ok_iff.1 hmake).2⟩
  · rw [(IsObtained.read h).ofAttributeText]
    rfl

theorem attributeText_reads_sample :
    ∃ a b : Annotation, make .displayType (some "\tA:\u00A0 B ") = .ok a ∧
      ofAttributeText " since :\n1.0 " = .ok b ∧ a ≠ b ∧ a.attributeText ≠ b.attributeText ∧
      ofAttributeText a.attributeText = .ok a ∧
      (∀ p ∈ b.payload?, p ≠ "" ∧ normalizePayload p = p) ∧
        (ofAttributeText b.attributeText).map attributeText = .ok b.attributeText := by
  have hmake : make .displayType (some "\tA:\u00A0 B ") = .ok (.displayType "A: B") := by decide
  have hread : ofAttributeText " since :\n1.0 " = .ok (.since "1.0") := by decide
  have hne : Annotation.displayType "A: B" ≠ .since "1.0" := nofun
  obtain ⟨hback, happart, -, hkept⟩ := attributeText_reads
  exact ⟨_, _, hmake, hread, hne, happart _ _ (.made hmake) (.read hread) hne, hback _ (.made hmake),
    (hkept _ _ hread).2⟩

end NativeCatalogue.Annotation
