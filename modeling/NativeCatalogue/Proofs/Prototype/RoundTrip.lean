import NativeCatalogue.Proofs.Prototype.Declarations

set_option autoImplicit false

namespace NativeCatalogue

theorem lexemeChars_wordLexemes (words : List String) :
    lexemeChars (wordLexemes words) = words.flatMap fun word => ' ' :: word.toList := by
  induction words with
  | nil => rfl
  | cons word words ih =>
    change ' ' :: (word.toList ++ lexemeChars (wordLexemes words)) = _
    rw [ih, List.flatMap_cons, List.cons_append]

theorem lexemeChars_nameLexemes (words : List String) :
    lexemeChars (nameLexemes words) = Text.join [' '] (words.map String.toList) := by
  cases words with
  | nil => rfl
  | cons first more =>
    change first.toList ++ lexemeChars (wordLexemes more) = _
    rw [lexemeChars_wordLexemes]
    induction more generalizing first with
    | nil => rw [List.flatMap_nil, List.append_nil]; rfl
    | cons word more ih =>
      rw [List.flatMap_cons, List.cons_append, ih word]
      exact (List.append_assoc first.toList [' '] _).symm

theorem lexemeChars_starLexemes (count : Nat) :
    lexemeChars (starLexemes count) = List.replicate count '*' := by
  induction count with
  | zero => rfl
  | succ count ih =>
    change '*' :: lexemeChars (starLexemes count) = _
    rw [ih, List.replicate_succ]

theorem TypeSpec.lexemeChars_lexemes (t : TypeSpec) : lexemeChars t.lexemes = t.spelling.toList := by
  have hname : Text.join [' '] (t.words.map String.toList) = t.name.toList := by
    rw [TypeSpec.words, List.map_map]
    exact (congrArg _ (by simp)).trans (Text.join_cutAt ' ' t.name.toList)
  rw [lexemes, lexemeChars_append, lexemeChars_append, lexemeChars_nameLexemes, hname,
    lexemeChars_starLexemes, spelling, String.toList_append, String.toList_append,
    String.toList_ofList]
  cases t.isConst <;> rfl

theorem lexemeChars_payloadLexemes {payload : String} (h : isTokenSequence payload = true) :
    lexemeChars (payloadLexemes payload) = payload.toList := by
  obtain ⟨tokens, htokens, hchars, -⟩ := payload_of_isTokenSequence h
  simp only [payloadLexemes, htokens, lexemeChars_flatMap_lexemes, hchars]

theorem Annotation.lexemeChars_lexemes {a : Annotation} (h : a.hasReadablePayload = true) :
    lexemeChars a.lexemes = a.spelling.toList := by
  cases hpayload : a.payload? with
  | none => simp [lexemes, spelling, hpayload, Lexeme.chars, TokenKind.text]
  | some payload =>
    rw [hasReadablePayload, Bool.and_eq_true, hpayload] at h
    have hsequence : isTokenSequence payload = true := h.2
    have hchars := lexemeChars_payloadLexemes hsequence
    simp [lexemes, spelling, hpayload, Lexeme.chars, TokenKind.text, hchars]

theorem AnnotationSet.lexemeChars_lexemes {s : AnnotationSet} (h : s.isNormal = true) :
    lexemeChars (annotationLexemes s.items) = s.chars := by
  obtain ⟨items⟩ := s
  rw [isNormal, Bool.and_eq_true, List.all_eq_true] at h
  obtain ⟨h, -⟩ := h
  change lexemeChars (annotationLexemes items) = items.flatMap fun a => a.spelling.toList ++ [' ']
  induction items with
  | nil => rfl
  | cons a items ih =>
    rw [annotationLexemes, List.flatMap_cons, List.flatMap_cons, lexemeChars_append,
      lexemeChars_append, Annotation.lexemeChars_lexemes (h a (by simp))]
    exact congrArg _ (ih fun b hb => h b (List.mem_cons_of_mem a hb))

theorem Parameter.lexemeChars_lexemes {p : Parameter} (h : p.isNormal = true) :
    lexemeChars p.lexemes = p.chars := by
  simp only [isNormal, Bool.and_eq_true] at h
  rw [lexemes, chars, lexemeChars_append, lexemeChars_append,
    AnnotationSet.lexemeChars_lexemes h.1.1, TypeSpec.lexemeChars_lexemes]
  split
  · rfl
  · simp [Lexeme.chars, TokenKind.text]

theorem lexemeChars_parameterLexemes {ps : List Parameter} (h : ∀ p ∈ ps, p.isNormal = true) :
    lexemeChars (parameterLexemes ps) = Text.join [',', ' '] (ps.map Parameter.chars) := by
  fun_induction parameterLexemes ps with
  | case1 => rfl
  | case2 p => exact Parameter.lexemeChars_lexemes (h p (by simp))
  | case3 p q ps ih =>
    rw [lexemeChars_append, Parameter.lexemeChars_lexemes (h p (by simp)), lexemeChars_cons,
      lexemeChars_cons, ih fun r hr => h r (List.mem_cons_of_mem p hr)]
    exact (List.append_assoc p.chars [',', ' '] _).symm

theorem Prototype.lexemeChars_lexemes {p : Prototype} (h : p.isNormal = true) :
    lexemeChars p.lexemes = p.chars := by
  simp only [isNormal, Bool.and_eq_true] at h
  obtain ⟨⟨⟨⟨hnotes, -⟩, -⟩, hparameters⟩, -⟩ := h
  simp [lexemes, chars, AnnotationSet.lexemeChars_lexemes hnotes, TypeSpec.lexemeChars_lexemes,
    lexemeChars_parameterLexemes (List.all_eq_true.1 hparameters), Lexeme.chars, TokenKind.text]

theorem Prototype.lexemeChars_flatMap_lexemes {ps : List Prototype}
    (h : ∀ p ∈ ps, p.isNormal = true) :
    lexemeChars (ps.flatMap lexemes) = ps.flatMap chars := by
  induction ps with
  | nil => rfl
  | cons p ps ih =>
    rw [List.flatMap_cons, List.flatMap_cons, lexemeChars_append, lexemeChars_lexemes (h p (by simp)),
      ih fun q hq => h q (List.mem_cons_of_mem p hq)]

def StartsFresh (ls : List Lexeme) : Prop :=
  ∀ m ∈ ls.head?, ∀ l : Lexeme, l.MayPrecede m

def isDelimiter (c : Char) : Bool :=
  [' ', '(', ')', ',', ';'].contains c

theorem clashes_of_isDelimiter {c : Char} (h : isDelimiter c = true) (kind : TokenKind) :
    kind.clashes c = false := by
  have all : ∀ d ∈ [' ', '(', ')', ',', ';'],
      isIdentRest d = false ∧ isNumberRest d = false ∧ d ≠ '/' ∧ d ≠ '*' := by
    intro d hd
    simp only [List.mem_cons, List.not_mem_nil, or_false] at hd
    rcases hd with rfl | rfl | rfl | rfl | rfl <;> decide
  obtain ⟨hident, hnumber, hslash, hstar⟩ := all c (List.contains_iff_mem.1 h)
  cases kind with
  | ident name => exact hident
  | number text => exact hnumber
  | punct p => simp [TokenKind.clashes, hslash, hstar]
  | _ => rfl

theorem startsFresh_cons {m : Lexeme} {c : Char} (hm : m.chars = [c]) (hc : isDelimiter c = true)
    (ls : List Lexeme) : StartsFresh (m :: ls) := by
  intro n hn l
  cases hn
  cases l with
  | blank d => trivial
  | token kind =>
    intro d hd
    rw [hm] at hd
    cases hd
    exact clashes_of_isDelimiter hc kind

theorem Separated.cons {l : Lexeme} {ls : List Lexeme} (h : Separated ls) (hl : l.isSound = true)
    (hnext : ∀ m ∈ ls.head?, l.MayPrecede m) : Separated (l :: ls) := by
  refine ⟨fun m hm => ?_, List.isChain_cons.2 ⟨hnext, h.chain⟩⟩
  rcases List.mem_cons.1 hm with rfl | hm
  · exact hl
  · exact h.sound m hm

theorem Separated.space {ls : List Lexeme} (h : Separated ls) : Separated (.blank ' ' :: ls) :=
  h.cons (by decide) fun _ _ => trivial

theorem Separated.mark {kind : TokenKind} {ls : List Lexeme} (h : Separated ls)
    (hkind : kind.isSound = true) (hclash : ∀ c, kind.clashes c = false) :
    Separated (.token kind :: ls) :=
  h.cons hkind fun _ _ _ _ => hclash _

theorem Separated.word {name : String} {ls : List Lexeme} (h : Separated ls)
    (hname : isIdentifier name = true) (hfresh : StartsFresh ls) :
    Separated (.token (.ident name) :: ls) :=
  h.cons hname fun m hm => hfresh m hm _

theorem isIdentifier_of_allowsName {t : TypeSpec} {word : String} (h : t.allowsName word = true) :
    isIdentifier word = true := by
  simp only [TypeSpec.allowsName, isDeclarableName, Bool.and_eq_true] at h
  exact h.1.1.1

theorem separated_stars {ls : List Lexeme} (h : Separated ls) (count : Nat) :
    Separated (starLexemes count ++ ls) := by
  induction count with
  | zero => exact h
  | succ count ih => exact ih.mark rfl fun _ => rfl

theorem separated_words {words : List String} (count : Nat) {ls : List Lexeme} (h : Separated ls)
    (hfresh : StartsFresh ls) (hwords : ∀ word ∈ words, isIdentifier word = true) :
    Separated (nameLexemes words ++ (starLexemes count ++ ls)) := by
  have behind : ∀ word : String, ∀ m ∈ (starLexemes count ++ ls).head?,
      (Lexeme.token (.ident word)).MayPrecede m := by
    intro word m hm
    cases count with
    | zero => exact hfresh m hm _
    | succ count =>
      cases hm
      intro c hc
      cases hc
      exact (by decide : isIdentRest '*' = false)
  cases words with
  | nil => exact separated_stars h count
  | cons first more =>
    induction more generalizing first with
    | nil => exact (separated_stars h count).cons (hwords first (by simp)) (behind first)
    | cons word more ih =>
      have hrest := ih word fun w hw => hwords w (List.mem_cons_of_mem first hw)
      exact hrest.space.word (hwords first (by simp)) (startsFresh_cons rfl (by decide) _)

theorem separated_type {t : TypeSpec} (ht : t.isNormal = true) {ls : List Lexeme}
    (h : Separated ls) (hfresh : StartsFresh ls) : Separated (t.lexemes ++ ls) := by
  obtain ⟨first, more, hwords, -, -, -, hfind, -⟩ := TypeSpec.words_of_isNormal ht
  rw [TypeSpec.lexemes, hwords, List.append_assoc, List.append_assoc]
  have hname := separated_words t.pointerDepth.toNat h hfresh
    fun word hword => (Vocabulary.word_of_find? (hfind word hword)).1
  cases t.isConst with
  | true => exact hname.space.word (by decide) (startsFresh_cons rfl (by decide) _)
  | false => exact hname

theorem separated_payload {payload : String} (hp : isTokenSequence payload = true)
    {ls : List Lexeme} (h : Separated ls) (hfresh : StartsFresh ls) :
    Separated (payloadLexemes payload ++ ls) := by
  obtain ⟨tokens, htokens, hchars, hgap, -⟩ := payload_of_isTokenSequence hp
  simp only [payloadLexemes, htokens]
  exact (separated_of_tokensFrom htokens hchars hgap).append h fun l _ m hm => hfresh m hm l

theorem isIdentifier_keyword (kind : AnnotationKind) : isIdentifier kind.keyword = true := by
  cases kind <;> decide

theorem separated_annotation {a : Annotation} (ha : a.hasReadablePayload = true) {ls : List Lexeme}
    (h : Separated ls) (hfresh : StartsFresh ls) : Separated (a.lexemes ++ ls) := by
  unfold Annotation.lexemes
  cases hpayload : a.payload? with
  | none => exact h.word (isIdentifier_keyword a.kind) hfresh
  | some payload =>
    unfold Annotation.hasReadablePayload at ha
    rw [Bool.and_eq_true, hpayload] at ha
    have hsequence : isTokenSequence payload = true := ha.2
    have hclose : Separated (.token .closeParen :: ls) := h.mark rfl fun _ => rfl
    have hinside := separated_payload hsequence hclose
      (startsFresh_cons rfl (by decide) _)
    have hopen : Separated (.token .openParen ::
        (payloadLexemes payload ++ .token .closeParen :: ls)) := hinside.mark rfl fun _ => rfl
    have hword := hopen.word (isIdentifier_keyword a.kind) (startsFresh_cons rfl (by decide) _)
    simpa using hword

theorem separated_annotations {s : AnnotationSet} (hs : s.isNormal = true) {ls : List Lexeme}
    (h : Separated ls) : Separated (annotationLexemes s.items ++ ls) := by
  obtain ⟨items⟩ := s
  rw [AnnotationSet.isNormal, Bool.and_eq_true, List.all_eq_true] at hs
  obtain ⟨hs, -⟩ := hs
  change Separated (annotationLexemes items ++ ls)
  induction items with
  | nil => exact h
  | cons a items ih =>
    have hrest := ih fun b hb => hs b (List.mem_cons_of_mem a hb)
    have ha := separated_annotation (hs a (by simp)) hrest.space (startsFresh_cons rfl (by decide) _)
    simpa [annotationLexemes] using ha

theorem separated_parameter {p : Parameter} (hp : p.isNormal = true) {ls : List Lexeme}
    (h : Separated ls) (hfresh : StartsFresh ls) : Separated (p.lexemes ++ ls) := by
  simp only [Parameter.isNormal, Bool.and_eq_true, Bool.or_eq_true, decide_eq_true_eq] at hp
  obtain ⟨⟨hnotes, htype⟩, hname⟩ := hp
  rw [Parameter.lexemes, List.append_assoc, List.append_assoc]
  refine separated_annotations hnotes ?_
  by_cases hempty : p.name = ""
  · rw [if_pos hempty]
    exact separated_type htype h hfresh
  · rw [if_neg hempty]
    have hword := h.word (isIdentifier_of_allowsName (hname.resolve_left hempty)) hfresh
    exact separated_type htype hword.space (startsFresh_cons rfl (by decide) _)

theorem separated_parameters {ps : List Parameter} (hps : ∀ p ∈ ps, p.isNormal = true)
    {ls : List Lexeme} (h : Separated ls) (hfresh : StartsFresh ls) :
    Separated (parameterLexemes ps ++ ls) := by
  fun_induction parameterLexemes ps with
  | case1 => exact h
  | case2 p => exact separated_parameter (hps p (by simp)) h hfresh
  | case3 p q ps ih =>
    rw [List.append_assoc]
    have hrest := ih fun r hr => hps r (List.mem_cons_of_mem p hr)
    have hcomma : Separated (.token .comma :: .blank ' ' :: (parameterLexemes (q :: ps) ++ ls)) :=
      hrest.space.mark rfl fun _ => rfl
    exact separated_parameter (hps p (by simp)) hcomma (startsFresh_cons rfl (by decide) _)

theorem separated_prototype {p : Prototype} (hp : p.isNormal = true) {ls : List Lexeme}
    (h : Separated ls) : Separated (p.lexemes ++ ls) := by
  simp only [Prototype.isNormal, Bool.and_eq_true] at hp
  obtain ⟨⟨⟨⟨hnotes, hresult⟩, hname⟩, hparameters⟩, -⟩ := hp
  have hend : Separated (.token .closeParen :: .token .semicolon :: ls) :=
    Separated.mark (h.mark rfl fun _ => rfl) rfl fun _ => rfl
  have hinside := separated_parameters (List.all_eq_true.1 hparameters) hend
    (startsFresh_cons rfl (by decide) _)
  have hopen : Separated (.token .openParen :: (parameterLexemes p.parameters ++
      .token .closeParen :: .token .semicolon :: ls)) := hinside.mark rfl fun _ => rfl
  have hword := hopen.word (isIdentifier_of_allowsName hname) (startsFresh_cons rfl (by decide) _)
  have hall := separated_annotations hnotes
    (separated_type hresult hword.space (startsFresh_cons rfl (by decide) _))
  simpa [Prototype.lexemes] using hall

theorem separated_prototypes {ps : List Prototype} (h : ∀ p ∈ ps, p.isNormal = true) :
    Separated (ps.flatMap Prototype.lexemes) := by
  induction ps with
  | nil => exact separated_nil
  | cons p ps ih =>
    rw [List.flatMap_cons]
    exact separated_prototype (h p (by simp)) (ih fun q hq => h q (List.mem_cons_of_mem p hq))

namespace Prototype

theorem parseAll_print (ps : List Prototype) (h : ∀ p ∈ ps, p.isNormal = true) :
    parseAll (print ps) = .ok ps := by
  have htokens : tokenize (print ps) = .ok (tokensOf 0 [] (ps.flatMap lexemes)) := by
    rw [print, ← lexemeChars_flatMap_lexemes h]
    exact tokenize_lexemeChars (separated_prototypes h)
  have hread : readPrototypes (tokensOf 0 [] (ps.flatMap lexemes)) = .ok ps :=
    readPrototypes_spells h ⟨[], 0, rfl⟩
  simp only [parseAll, htokens, bind, Except.bind, hread]

def sample : List Prototype :=
  [⟨"GET_NAME", ⟨"unsigned long", true, 2⟩,
      [Parameter.void, ⟨"long", .pointerTo "long", ⟨[.displayType "Blip (any, /x)", .split]⟩⟩],
      ⟨[.since "1.0 (beta)"]⟩⟩,
    ⟨"WAIT", .named "void", [], ∅⟩]

theorem parseAll_print_sample :
    (∀ p ∈ sample, p.isNormal = true) ∧ parseAll (print sample) = .ok sample := by
  have h : ∀ p ∈ sample, p.isNormal = true := by decide +kernel
  exact ⟨h, parseAll_print sample h⟩

end Prototype

end NativeCatalogue
