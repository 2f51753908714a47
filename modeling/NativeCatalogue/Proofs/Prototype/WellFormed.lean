import NativeCatalogue.Proofs.Prototype.Declarations
import NativeCatalogue.Proofs.Prototype.Spelling

set_option autoImplicit false

namespace NativeCatalogue

structure AnnotationSet.IsWellFormed (s : AnnotationSet) : Prop where
  nodup : s.items.Nodup
  payload : ∀ a ∈ s.items, a.payload?.isSome = a.kind.takesPayload
  kept : ∀ a ∈ s.items, ∀ p ∈ a.payload?, p ≠ "" ∧ Annotation.normalizePayload p = p

def TypeSpec.IsWellFormed (t : TypeSpec) : Prop :=
  ∃ before e, t.IsSpelled before e ∧ Vocabulary.resolve? t.name = some e

structure Parameter.IsWellFormed (p : Parameter) : Prop where
  type : p.type.IsWellFormed
  name : p.name ≠ "" → isDeclarableName p.name = true
  annotations : p.annotations.IsWellFormed

structure Prototype.IsWellFormed (p : Prototype) : Prop where
  result : p.result.IsWellFormed
  name : isDeclarableName p.name = true
  parameters : ∀ q ∈ p.parameters, q.IsWellFormed
  annotations : p.annotations.IsWellFormed
  signature : (Signature.ofPrototype p).IsShapedFor p

theorem Annotation.normalizePayload_normalizePayload (raw : String) :
    normalizePayload (normalizePayload raw) = normalizePayload raw := by
  rw [normalizePayload, normalizePayload, String.toList_ofList, Text.collapse_collapse]

theorem Annotation.normalizePayload_eq_empty_iff {raw : String} :
    normalizePayload raw = "" ↔ raw.allBlank = true := by
  rw [← String.toList_inj, normalizePayload, String.toList_ofList, String.allBlank, List.all_eq_true]
  exact Text.collapse_eq_nil

theorem Annotation.payload?_of_make {kind : AnnotationKind} {payload : Option String} {a : Annotation}
    (h : make kind payload = .ok a) :
    a.payload? = (payload.map normalizePayload).filter (· ≠ "") := by
  unfold make at h
  split at h
  all_goals cases h
  all_goals
    rename_i hpayload
    exact hpayload.symm

theorem Annotation.kept_of_make {kind : AnnotationKind} {payload : Option String} {a : Annotation}
    (h : make kind payload = .ok a) : ∀ p ∈ a.payload?, p ≠ "" ∧ normalizePayload p = p := by
  intro p hp
  rw [payload?_of_make h] at hp
  obtain ⟨hmap, hne⟩ := Option.filter_eq_some_iff.1 hp
  obtain ⟨raw, -, rfl⟩ := Option.map_eq_some_iff.1 hmap
  exact ⟨of_decide_eq_true hne, normalizePayload_normalizePayload raw⟩

theorem Annotation.make_of_blank {kind : AnnotationKind} (htakes : kind.takesPayload = true) {text : String}
    (h : text.allBlank = true) : make kind (some text) = .error (.missingPayload kind) := by
  have hnone : ((some text).map normalizePayload).filter (· ≠ "") = none := by
    rw [Option.map_some, normalizePayload_eq_empty_iff.2 h]
    rfl
  unfold make
  rw [hnone]
  cases kind with
  | split => cases htakes
  | omitted => cases htakes
  | _ => rfl

theorem Annotation.make_of_not_blank {kind : AnnotationKind} (htakes : kind.takesPayload = true) {text : String}
    (h : text.allBlank = false) : ∃ a, make kind (some text) = .ok a := by
  have hsome : ((some text).map normalizePayload).filter (· ≠ "") =
      some (normalizePayload text) := by
    rw [Option.map_some, Option.filter_some, if_pos]
    refine decide_eq_true fun hempty => ?_
    rw [normalizePayload_eq_empty_iff.1 hempty] at h
    cases h
  unfold make
  rw [hsome]
  cases kind with
  | split => cases htakes
  | omitted => cases htakes
  | _ => exact ⟨_, rfl⟩

namespace AnnotationSet

theorem isWellFormed_empty : (∅ : AnnotationSet).IsWellFormed :=
  ⟨.nil, fun _ ha => absurd ha List.not_mem_nil, fun _ ha => absurd ha List.not_mem_nil⟩

variable {s : AnnotationSet}

theorem nodup_insert (hs : s.items.Nodup) (a : Annotation) : (s.insert a).items.Nodup := by
  unfold AnnotationSet.insert
  split
  · exact hs
  · rename_i hnew
    have hmem : a ∉ s.items := fun hmem => hnew (List.contains_iff_mem.2 hmem)
    rw [List.nodup_append]
    refine ⟨hs, List.pairwise_singleton _ a, fun b hb c hc he => hmem ?_⟩
    rwa [he, List.mem_singleton.1 hc] at hb

theorem IsWellFormed.insert (hs : s.IsWellFormed) {a : Annotation}
    (ha : ∀ p ∈ a.payload?, p ≠ "" ∧ Annotation.normalizePayload p = p) :
    (s.insert a).IsWellFormed := by
  refine ⟨nodup_insert hs.nodup a, fun b _ => (Prototype.takesPayload_kind b).symm, ?_⟩
  unfold AnnotationSet.insert
  split
  · exact hs.kept
  · exact List.forall_mem_append.2 ⟨hs.kept, List.forall_mem_singleton.2 ha⟩

theorem IsWellFormed.insertAll (hs : s.IsWellFormed) {xs : List Annotation}
    (hxs : ∀ a ∈ xs, ∀ p ∈ a.payload?, p ≠ "" ∧ Annotation.normalizePayload p = p) :
    (s.insertAll xs).IsWellFormed := by
  induction xs generalizing s with
  | nil => exact hs
  | cons a xs ih =>
    obtain ⟨ha, hxs⟩ := List.forall_mem_cons.1 hxs
    exact ih (hs.insert ha) hxs

end AnnotationSet

def SoundTokens (ts : List Token) : Prop :=
  ∀ t ∈ ts, t.kind.isSound = true

theorem SoundTokens.of_suffix {ts rest : List Token} (h : SoundTokens ts) (hrest : rest <:+ ts) :
    SoundTokens rest :=
  fun t ht => h t (hrest.subset ht)

theorem soundTokens_of_tokensFrom {ts : List Token} {offset : Nat} {cs : List Char}
    (h : tokensFrom offset cs = .ok ts) : SoundTokens ts := by
  induction ts generalizing offset cs with
  | nil => exact fun t ht => absurd ht List.not_mem_nil
  | cons t ts ih =>
    obtain ⟨c, rest, after, hgap, htoken, hts⟩ := tokensFrom_cons h
    exact List.forall_mem_cons.2 ⟨(tokenAt_sound htoken (opensGap_of_gapAt hgap)).1, ih hts⟩

namespace Prototype

variable {ts rest : List Token}

theorem suffix_of_expect {kind : TokenKind} {expected : Expectation} {x : Unit}
    (h : expect kind expected ts = .ok (x, rest)) : rest <:+ ts := by
  obtain ⟨t, rfl, -⟩ := expect_eq_ok.1 h
  exact List.suffix_cons t rest

theorem suffix_of_expectIdent {expected : Expectation} {word : String × Nat}
    (h : expectIdent expected ts = .ok (word, rest)) : rest <:+ ts := by
  obtain ⟨t, rfl, -⟩ := expectIdent_eq_ok.1 h
  exact List.suffix_cons t rest

theorem isDeclarableName_of_expectIdent (hts : SoundTokens ts) {expected : Expectation} {word : String}
    {offset : Nat} (h : expectIdent expected ts = .ok ((word, offset), rest)) :
    isDeclarableName word = true := by
  obtain ⟨t, rfl, hkind, -, hkeyword⟩ := expectIdent_eq_ok.1 h
  have hsound := hts t List.mem_cons_self
  rw [hkind] at hsound
  rw [isDeclarableName, hkeyword, Bool.and_eq_true]
  exact ⟨hsound, rfl⟩

theorem eatConst_suffix (ts : List Token) : (eatConst ts).2 <:+ ts := by
  cases ts with
  | nil => exact List.suffix_refl []
  | cons t ts =>
    rw [eatConst]
    split
    · exact List.suffix_cons t ts
    · exact List.suffix_refl (t :: ts)

theorem eatSemicolon_suffix (ts : List Token) : eatSemicolon ts <:+ ts := by
  cases ts with
  | nil => exact List.suffix_refl []
  | cons t ts =>
    rw [eatSemicolon]
    split
    · exact List.suffix_cons t ts
    · exact List.suffix_refl (t :: ts)

theorem suffix_of_readPayloadText {depth : Nat} {text : List Char}
    (h : readPayloadText depth ts = .ok (text, rest)) : rest <:+ ts := by
  fun_induction readPayloadText depth ts generalizing text with
  | case1 => cases h
  | case2 t ts =>
    cases h
    exact List.suffix_cons t rest
  | case3 t ts _ depth ih | case4 t ts _ depth ih | case5 t ts _ depth _ _ ih =>
    obtain ⟨⟨inner, after⟩, hinner, h⟩ := bind_eq_ok.1 h
    cases h
    exact (ih hinner).trans (List.suffix_cons t ts)

theorem suffix_of_readPayload {kind : AnnotationKind} {text : Option String}
    (h : readPayload kind ts = .ok (text, rest)) : rest <:+ ts := by
  unfold readPayload at h
  split at h
  · obtain ⟨⟨⟨⟩, inside⟩, hopen, h⟩ := bind_eq_ok.1 h
    obtain ⟨⟨inner, after⟩, hinner, h⟩ := bind_eq_ok.1 h
    cases h
    exact (suffix_of_readPayloadText hinner).trans (suffix_of_expect hopen)
  · cases h
    exact List.suffix_refl _

theorem isWellFormed_of_readAnnotationsInto {s out : AnnotationSet} (hs : s.IsWellFormed)
    (h : readAnnotationsInto s ts = .ok (out, rest)) : out.IsWellFormed ∧ rest <:+ ts := by
  fun_induction readAnnotationsInto s ts with
  | case1 =>
    cases h
    exact ⟨hs, List.suffix_refl []⟩
  | case2 s t ts =>
    cases h
    exact ⟨hs, List.suffix_refl (t :: ts)⟩
  | case3 => cases h
  | case4 => cases h
  | case5 s t ts kind _ text after hpayload a hmake ih =>
    have hkept := Annotation.kept_of_make hmake
    obtain ⟨hout, hrest⟩ := ih (hs.insert hkept) h
    exact ⟨hout, (hrest.trans (suffix_of_readPayload hpayload)).trans (List.suffix_cons t ts)⟩

theorem isWellFormed_of_readAnnotations {s : AnnotationSet}
    (h : readAnnotations ts = .ok (s, rest)) : s.IsWellFormed ∧ rest <:+ ts :=
  isWellFormed_of_readAnnotationsInto AnnotationSet.isWellFormed_empty h

/-- The words that are read are modifiers but for the last, which is builtin if it is not alone. -/
theorem readMoreWords_spec (last : String) (ts : List Token) :
    (readMoreWords last ts).2 <:+ ts ∧ ∃ before word, last :: (readMoreWords last ts).1 =
      before ++ [word] ∧ (∀ w ∈ before, w ∈ Vocabulary.modifiers) ∧
      (before ≠ [] → Vocabulary.isBuiltin word = true) := by
  fun_induction readMoreWords last ts with
  | case1 last => exact ⟨List.suffix_refl [], [], last, rfl, by simp, by simp⟩
  | case2 last t ts word _ htaken words after hmore ih =>
    obtain ⟨hsuffix, before, final, hwords, hbefore, hfinal⟩ := ih
    rw [hmore] at hsuffix hwords
    rw [Bool.and_eq_true] at htaken
    refine ⟨hsuffix.trans (List.suffix_cons t ts), last :: before, final, ?_, ?_, fun _ => ?_⟩
    · exact congrArg (last :: ·) hwords
    · exact List.forall_mem_cons.2 ⟨List.contains_iff_mem.1 htaken.1, hbefore⟩
    · cases before with
      | nil =>
        cases hwords
        exact htaken.2
      | cons first before => exact hfinal (List.cons_ne_nil first before)
  | case3 last t ts => exact ⟨List.suffix_refl _, [], last, rfl, by simp, by simp⟩
  | case4 last t ts => exact ⟨List.suffix_refl _, [], last, rfl, by simp, by simp⟩

theorem lastWord_of_concat {first word : String} {more before : List String}
    (h : first :: more = before ++ [word]) : more.getLast?.getD first = word := by
  have hlast := congrArg List.getLast? h
  rw [List.getLast?_cons, List.getLast?_concat] at hlast
  exact Option.some.inj hlast

theorem readStars_suffix (depth : UInt8) (afterStar : Bool) (ts : List Token) :
    (readStars depth afterStar ts).2 <:+ ts := by
  fun_induction readStars depth afterStar ts with
  | case1 => exact List.suffix_refl []
  | case2 _ _ t ts _ ih => exact ih.trans (List.suffix_cons t ts)
  | case3 _ _ t ts _ _ ih => exact ih.trans (List.suffix_cons t ts)
  | case4 => exact List.suffix_refl _

theorem isWellFormed_of_readType {t : TypeSpec} (h : readType ts = .ok (t, rest)) :
    t.IsWellFormed ∧ rest <:+ ts := by
  obtain ⟨first, offset, after, hfirst, hknown, ht, rfl⟩ := readType_eq_ok.1 h
  obtain ⟨hmore, before, word, hwords, hbefore, hbuiltin⟩ := readMoreWords_spec first after
  rw [lastWord_of_concat hwords] at hknown
  obtain ⟨e, he⟩ := Option.isSome_iff_exists.1 hknown
  obtain rfl := Vocabulary.name_of_find? he
  have hcategory : before ≠ [] → e.category = .builtin := by
    intro hne
    have hword := hbuiltin hne
    rw [Vocabulary.isBuiltin, he] at hword
    exact of_decide_eq_true hword
  have hspelled : t.IsSpelled before e := ⟨by rw [ht, hwords], hbefore, he, hcategory⟩
  refine ⟨⟨before, e, hspelled, hspelled.resolve?_eq⟩, ?_⟩
  have hafter : after <:+ ts := (suffix_of_expectIdent hfirst).trans (eatConst_suffix ts)
  exact ((readStars_suffix 0 false _).trans (eatConst_suffix _)).trans (hmore.trans hafter)

theorem isDeclarableName_of_readParameterName (hts : SoundTokens ts) {name : String}
    (h : readParameterName ts = .ok (name, rest)) :
    (name ≠ "" → isDeclarableName name = true) ∧ rest <:+ ts := by
  unfold readParameterName at h
  split at h
  · obtain ⟨⟨⟨word, offset⟩, after⟩, hword, h⟩ := bind_eq_ok.1 h
    cases h
    exact ⟨fun _ => isDeclarableName_of_expectIdent hts hword, suffix_of_expectIdent hword⟩
  · cases h
    exact ⟨fun hne => absurd rfl hne, List.suffix_refl _⟩

theorem isWellFormed_of_readParameter (hts : SoundTokens ts) {p : Parameter}
    (h : readParameter ts = .ok (p, rest)) : p.IsWellFormed ∧ rest <:+ ts := by
  obtain ⟨⟨notes, ts1⟩, h1, h⟩ := bind_eq_ok.1 h
  obtain ⟨⟨type, ts2⟩, h2, h⟩ := bind_eq_ok.1 h
  obtain ⟨⟨name, ts3⟩, h3, h⟩ := bind_eq_ok.1 h
  cases h
  obtain ⟨hnotes, l1⟩ := isWellFormed_of_readAnnotations h1
  obtain ⟨htype, l2⟩ := isWellFormed_of_readType h2
  obtain ⟨hname, l3⟩ := isDeclarableName_of_readParameterName (hts.of_suffix (l2.trans l1)) h3
  exact ⟨⟨htype, hname, hnotes⟩, (l3.trans l2).trans l1⟩

theorem isWellFormed_of_readParametersFrom (hts : SoundTokens ts) {ps : List Parameter}
    (h : readParametersFrom ts = .ok (ps, rest)) : (∀ p ∈ ps, p.IsWellFormed) ∧ rest <:+ ts := by
  fun_induction readParametersFrom ts generalizing ps rest with
  | case1 => cases h
  | case2 ts p hp =>
    cases h
    obtain ⟨hwell, hsuffix⟩ := isWellFormed_of_readParameter hts hp
    exact ⟨List.forall_mem_singleton.2 hwell, hsuffix⟩
  | case3 => cases h
  | case4 ts p t more _ _ others after hothers hp ih =>
    cases h
    obtain ⟨hwell, hsuffix⟩ := isWellFormed_of_readParameter hts hp
    have hmore := (List.suffix_cons t more).trans hsuffix
    obtain ⟨hrest, hafter⟩ := ih (hts.of_suffix hmore) hothers
    exact ⟨List.forall_mem_cons.2 ⟨hwell, hrest⟩, hafter.trans hmore⟩
  | case5 ts p t more hp _ =>
    cases h
    obtain ⟨hwell, hsuffix⟩ := isWellFormed_of_readParameter hts hp
    exact ⟨List.forall_mem_singleton.2 hwell, hsuffix⟩

theorem isWellFormed_of_readParameters (hts : SoundTokens ts) {ps : List Parameter}
    (h : readParameters ts = .ok (ps, rest)) : (∀ p ∈ ps, p.IsWellFormed) ∧ rest <:+ ts := by
  cases ts with
  | nil => exact isWellFormed_of_readParametersFrom hts h
  | cons t ts =>
    rw [readParameters] at h
    split at h
    · cases h
      exact ⟨fun p hp => absurd hp List.not_mem_nil, List.suffix_refl (t :: ts)⟩
    · split at h
      · cases h
        exact ⟨fun p hp => absurd hp List.not_mem_nil, List.suffix_cons t rest⟩
      · exact isWellFormed_of_readParametersFrom hts h

theorem isWellFormed_of_readPrototype (hts : SoundTokens ts) {p : Prototype}
    (h : readPrototype ts = .ok (p, rest)) : p.IsWellFormed ∧ rest <:+ ts := by
  obtain ⟨⟨before, ts1⟩, h1, h⟩ := bind_eq_ok.1 h
  obtain ⟨⟨result, ts2⟩, h2, h⟩ := bind_eq_ok.1 h
  obtain ⟨⟨⟨name, offset⟩, ts3⟩, h3, h⟩ := bind_eq_ok.1 h
  obtain ⟨⟨⟨⟩, ts4⟩, h4, h⟩ := bind_eq_ok.1 h
  obtain ⟨⟨ps, ts5⟩, h5, h⟩ := bind_eq_ok.1 h
  obtain ⟨⟨⟨⟩, ts6⟩, h6, h⟩ := bind_eq_ok.1 h
  obtain ⟨⟨after, ts7⟩, h7, h⟩ := bind_eq_ok.1 h
  cases h
  obtain ⟨hbefore, l1⟩ := isWellFormed_of_readAnnotations h1
  obtain ⟨hresult, l2⟩ := isWellFormed_of_readType h2
  have l2 : ts2 <:+ ts := l2.trans l1
  have hname := isDeclarableName_of_expectIdent (hts.of_suffix l2) h3
  have l4 : ts4 <:+ ts := ((suffix_of_expect h4).trans (suffix_of_expectIdent h3)).trans l2
  obtain ⟨hps, l5⟩ := isWellFormed_of_readParameters (hts.of_suffix l4) h5
  obtain ⟨hafter, l7⟩ := isWellFormed_of_readAnnotations h7
  have l7 : ts7 <:+ ts := ((l7.trans (suffix_of_expect h6)).trans l5).trans l4
  refine ⟨⟨hresult, hname, hps, hbefore.insertAll hafter.kept, ?_⟩, (eatSemicolon_suffix ts7).trans l7⟩
  refine Signature.isShapedFor_ofPrototype fun q hq => ?_
  obtain ⟨words, e, hspelled, -⟩ := (hps q hq).type
  exact ⟨words, e, hspelled⟩

theorem isWellFormed_of_readPrototypes (hts : SoundTokens ts) {ps : List Prototype}
    (h : readPrototypes ts = .ok ps) : ∀ p ∈ ps, p.IsWellFormed := by
  fun_induction readPrototypes ts generalizing ps with
  | case1 =>
    cases h
    exact fun p hp => absurd hp List.not_mem_nil
  | case2 => cases h
  | case3 => cases h
  | case4 t more p rest hp others hothers ih =>
    cases h
    obtain ⟨hwell, hsuffix⟩ := isWellFormed_of_readPrototype hts hp
    exact List.forall_mem_cons.2 ⟨hwell, ih (hts.of_suffix hsuffix) hothers⟩

theorem isWellFormed_of_parse {source : String} {p : Prototype} (h : parse source = .ok p) :
    p.IsWellFormed := by
  obtain ⟨ps, hps, h⟩ := bind_eq_ok.1 h
  obtain ⟨ts, hts, hread⟩ := bind_eq_ok.1 hps
  split at h
  · cases h
    exact isWellFormed_of_readPrototypes (soundTokens_of_tokensFrom hts) hread p List.mem_cons_self
  · cases h

theorem isWellFormed_of_parseAll {source : String} {ps : List Prototype}
    (h : parseAll source = .ok ps) : ∀ p ∈ ps, p.IsWellFormed := by
  obtain ⟨ts, hts, hread⟩ := bind_eq_ok.1 h
  exact isWellFormed_of_readPrototypes (soundTokens_of_tokensFrom hts) hread

def annotatedSample : String :=
  "since( 1.0  beta ) unsigned long int FIND(Vector3, const char*, cs_type(Blip) long blip) cs_split;"

theorem isWellFormed_of_parseAll_sample : ∃ p, parseAll annotatedSample = .ok [p] ∧ p.IsWellFormed := by
  have hparse : parseAll annotatedSample = .ok [⟨"FIND", .named "unsigned long int",
      [⟨"", .named "Vector3", ∅⟩, ⟨"", ⟨"char", true, 1⟩, ∅⟩,
        ⟨"blip", .named "long", ⟨[.displayType "Blip"]⟩⟩],
      ⟨[.since "1.0 beta", .split]⟩⟩] := by
    decide +kernel
  exact ⟨_, hparse, isWellFormed_of_parseAll hparse _ List.mem_cons_self⟩

end Prototype

end NativeCatalogue
