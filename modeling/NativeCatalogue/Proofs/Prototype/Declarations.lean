import NativeCatalogue.Proofs.Prototype.Annotations

set_option autoImplicit false

namespace NativeCatalogue

def Parameter.lexemes (p : Parameter) : List Lexeme :=
  annotationLexemes p.annotations.items ++ p.type.lexemes ++
    if p.name = "" then [] else [.blank ' ', .token (.ident p.name)]

def parameterLexemes : List Parameter → List Lexeme
  | [] => []
  | [p] => p.lexemes
  | p :: q :: ps => p.lexemes ++ .token .comma :: .blank ' ' :: parameterLexemes (q :: ps)

def Prototype.lexemes (p : Prototype) : List Lexeme :=
  annotationLexemes p.annotations.items ++ p.result.lexemes ++
    .blank ' ' :: .token (.ident p.name) :: .token .openParen ::
      (parameterLexemes p.parameters ++ [.token .closeParen, .token .semicolon])

theorem TypeSpec.head_lexemes {t : TypeSpec} (h : t.isNormal = true) (ls : List Lexeme) :
    ∃ word, (kindsOf (t.lexemes ++ ls)).head? = some (.ident word) ∧
      AnnotationKind.ofKeyword? word = none := by
  obtain ⟨first, more, hwords, -, -, -, hfind, -⟩ := TypeSpec.words_of_isNormal h
  rw [TypeSpec.lexemes, hwords, nameLexemes]
  cases t.isConst with
  | true => exact ⟨"const", rfl, by decide⟩
  | false => exact ⟨first, rfl, (Vocabulary.word_of_find? (hfind first (by simp))).2.1⟩

namespace Prototype

theorem readAnnotations_type {s : AnnotationSet} {t : TypeSpec} (hs : s.isNormal = true)
    (ht : t.isNormal = true) {ts : List Token} {ls : List Lexeme}
    (h : Spells ts (annotationLexemes s.items ++ (t.lexemes ++ ls))) :
    ∃ rest, readAnnotations ts = .ok (s, rest) ∧ Spells rest (t.lexemes ++ ls) := by
  obtain ⟨word, hhead, hkeyword⟩ := TypeSpec.head_lexemes ht ls
  refine readAnnotations_spells hs h fun other hother => ?_
  rw [hhead] at hother
  cases hother
  exact hkeyword

theorem endsBefore_of_allowsName {t : TypeSpec} {word : String} (h : t.allowsName word = true) :
    EndsBefore t (some (.ident word)) ∧ AnnotationKind.ofKeyword? word = none := by
  simp only [TypeSpec.allowsName, isDeclarableName, Bool.and_eq_true, Bool.not_eq_true',
    Option.isNone_iff_eq_none, decide_eq_true_eq] at h
  obtain ⟨⟨⟨-, hkeyword⟩, hconst⟩, habsorbs⟩ := h
  refine ⟨⟨fun he => (by cases he), fun he => ?_, fun other hother => ?_⟩, hkeyword⟩
  · cases he
    exact hconst rfl
  · cases hother
    exact habsorbs

def EndsParameter (next : Option TokenKind) : Prop :=
  next = some .comma ∨ next = some .closeParen

theorem EndsParameter.endsBefore {next : Option TokenKind} (h : EndsParameter next) (t : TypeSpec) :
    EndsBefore t next := by
  rcases h with rfl | rfl
  · exact ⟨fun he => (by cases he), fun he => (by cases he), fun _ he => by cases he⟩
  · exact ⟨fun he => (by cases he), fun he => (by cases he), fun _ he => by cases he⟩

theorem readParameterName_unnamed {ts : List Token} {ls : List Lexeme} (h : Spells ts ls)
    (hend : EndsParameter (kindsOf ls).head?) : readParameterName ts = .ok ("", ts) := by
  rw [← h.kinds] at hend
  have hnone : ts.head?.bind Token.ident? = none := by
    cases ts with
    | nil => rfl
    | cons t rest =>
      rcases hend with he | he <;> simp_all [Token.ident?]
  rw [readParameterName, hnone]

theorem readParameterName_named {ts : List Token} {word : String} {ls : List Lexeme}
    (h : Spells ts (.token (.ident word) :: ls)) (hword : AnnotationKind.ofKeyword? word = none) :
    ∃ rest, readParameterName ts = .ok (word, rest) ∧ Spells rest ls := by
  obtain ⟨offset, rest, hread, hrest⟩ := expectIdent_spells h hword .parameterName
  obtain ⟨t, tail, rfl, hkind, -⟩ := h.token
  refine ⟨rest, ?_, hrest⟩
  have hhead : (t :: tail).head?.bind Token.ident? = some word := Token.ident?_eq hkind
  rw [readParameterName, hhead]
  simp only [hread, bind, Except.bind, pure, Except.pure]

theorem readParameter_spells {p : Parameter} (h : p.isNormal = true) {ts : List Token}
    {ls : List Lexeme} (hs : Spells ts (p.lexemes ++ ls)) (hend : EndsParameter (kindsOf ls).head?) :
    ∃ rest, readParameter ts = .ok (p, rest) ∧ Spells rest ls := by
  simp only [Parameter.isNormal, Bool.and_eq_true, Bool.or_eq_true, decide_eq_true_eq] at h
  obtain ⟨⟨hnotes, htype⟩, hname⟩ := h
  simp only [Parameter.lexemes, List.append_assoc] at hs
  obtain ⟨ts1, h1, hs1⟩ := readAnnotations_type hnotes htype hs
  have hafter : ∃ ts2 ts3, readType ts1 = .ok (p.type, ts2) ∧
      readParameterName ts2 = .ok (p.name, ts3) ∧ Spells ts3 ls := by
    by_cases hempty : p.name = ""
    · rw [if_pos hempty, List.nil_append] at hs1
      obtain ⟨ts2, h2, hs2⟩ := readType_spells htype hs1 (hend.endsBefore p.type)
      exact ⟨ts2, ts2, h2, by rw [hempty]; exact readParameterName_unnamed hs2 hend, hs2⟩
    · rw [if_neg hempty] at hs1
      obtain ⟨hbefore, hkeyword⟩ := endsBefore_of_allowsName (hname.resolve_left hempty)
      obtain ⟨ts2, h2, hs2⟩ := readType_spells htype hs1 hbefore
      obtain ⟨ts3, h3, hs3⟩ := readParameterName_named hs2.blank hkeyword
      exact ⟨ts2, ts3, h2, h3, hs3⟩
  obtain ⟨ts2, ts3, h2, h3, hs3⟩ := hafter
  refine ⟨ts3, ?_, hs3⟩
  simp only [readParameter, h1, h2, h3, bind, Except.bind, pure, Except.pure]

theorem readParametersFrom_eq (ts : List Token) :
    readParametersFrom ts = readParameter ts >>= fun (p, rest) =>
      match rest with
      | [] => .ok ([p], [])
      | t :: more =>
        if t.kind = .comma then
          readParametersFrom more >>= fun (others, after) => .ok (p :: others, after)
        else .ok ([p], t :: more) := by
  rw [readParametersFrom]
  split
  · rename_i he; rw [he]; rfl
  · rename_i p rest he
    refine Eq.trans ?_ (congrArg (· >>= _) he).symm
    cases rest with
    | nil => rfl
    | cons t more =>
      change (if t.kind = .comma then _ else _) = (if t.kind = .comma then _ else _)
      split
      · cases readParametersFrom more <;> rfl
      · rfl

theorem readParametersFrom_last {ts more : List Token} {t : Token} {p : Parameter}
    (h : readParameter ts = .ok (p, t :: more)) (ht : t.kind ≠ .comma) :
    readParametersFrom ts = .ok ([p], t :: more) := by
  rw [readParametersFrom]
  split
  · rename_i he; rw [h] at he; cases he
  · rename_i he
    rw [h] at he
    cases he
    exact if_neg ht

theorem readParametersFrom_comma {ts more after : List Token} {t : Token} {p : Parameter}
    {others : List Parameter} (h : readParameter ts = .ok (p, t :: more)) (ht : t.kind = .comma)
    (hmore : readParametersFrom more = .ok (others, after)) :
    readParametersFrom ts = .ok (p :: others, after) := by
  rw [readParametersFrom]
  split
  · rename_i he; rw [h] at he; cases he
  · rename_i he
    rw [h] at he
    cases he
    dsimp only
    rw [if_pos ht, hmore]

theorem readParametersFrom_spells {p : Parameter} {ps : List Parameter}
    (h : ∀ q ∈ p :: ps, q.isNormal = true) {ts : List Token} {ls : List Lexeme}
    (hs : Spells ts (parameterLexemes (p :: ps) ++ .token .closeParen :: ls)) :
    ∃ rest, readParametersFrom ts = .ok (p :: ps, rest) ∧
      Spells rest (.token .closeParen :: ls) := by
  induction ps generalizing p ts with
  | nil =>
    obtain ⟨rest, hread, hrest⟩ := readParameter_spells (h p (by simp)) hs (.inr rfl)
    obtain ⟨t, more, rfl, hkind, -⟩ := hrest.token
    exact ⟨t :: more, readParametersFrom_last hread (by rw [hkind]; decide), hrest⟩
  | cons q ps ih =>
    rw [parameterLexemes, List.append_assoc] at hs
    obtain ⟨rest, hread, hrest⟩ := readParameter_spells (h p (by simp)) hs (.inl rfl)
    obtain ⟨t, more, rfl, hkind, hmore⟩ := Spells.token hrest
    obtain ⟨after, hothers, hafter⟩ := ih (fun r hr => h r (List.mem_cons_of_mem p hr)) hmore.blank
    exact ⟨after, readParametersFrom_comma hread hkind hothers, hafter⟩

/-- A lone `void` would be read as a parameter, were it not taken for no parameters. -/
theorem readParametersFrom_void {t u : Token} (more : List Token) (ht : t.kind = .ident "void")
    (hu : u.kind = .closeParen) :
    readParametersFrom (t :: u :: more) = .ok ([Parameter.void], u :: more) := by
  obtain ⟨before, kind, start⟩ := t
  obtain ⟨between, next, stop⟩ := u
  cases ht
  cases hu
  refine readParametersFrom_last ?_ (by rintro ⟨⟩)
  have hnotes : readAnnotations (⟨before, .ident "void", start⟩ :: ⟨between, .closeParen, stop⟩ :: more) =
      .ok (∅, ⟨before, .ident "void", start⟩ :: ⟨between, .closeParen, stop⟩ :: more) := by
    rw [readAnnotations, readAnnotationsInto]
    rfl
  have htype : readType (⟨before, .ident "void", start⟩ :: ⟨between, .closeParen, stop⟩ :: more) =
      .ok (.named "void", ⟨between, .closeParen, stop⟩ :: more) := by
    have hfind : (Vocabulary.find? "void").isNone = false := by decide +kernel
    simp [readType, eatConst, expectIdent, Token.ident?, readMoreWords, readStars, hfind, bind,
      Except.bind, pure, Except.pure, TypeSpec.named, AnnotationKind.ofKeyword?, AnnotationKind.all,
      AnnotationKind.keyword]
  simp only [readParameter, hnotes, htype, bind, Except.bind]
  rfl

theorem head_parameterLexemes {p : Parameter} (h : p.isNormal = true) (ps : List Parameter)
    (ls : List Lexeme) : ∃ word, (kindsOf (parameterLexemes (p :: ps) ++ ls)).head? =
      some (.ident word) := by
  have hjoin : ∃ tail, parameterLexemes (p :: ps) ++ ls = p.lexemes ++ tail := by
    cases ps with
    | nil => exact ⟨ls, rfl⟩
    | cons q ps => exact ⟨_, List.append_assoc _ _ _⟩
  obtain ⟨tail, hjoin⟩ := hjoin
  rw [hjoin, Parameter.lexemes, List.append_assoc, List.append_assoc]
  simp only [Parameter.isNormal, Bool.and_eq_true] at h
  cases p.annotations.items with
  | nil =>
    obtain ⟨word, hhead, -⟩ := TypeSpec.head_lexemes h.1.2
      ((if p.name = "" then [] else [.blank ' ', .token (.ident p.name)]) ++ tail)
    exact ⟨word, hhead⟩
  | cons a items => exact ⟨a.kind.keyword, rfl⟩

theorem readParameters_spells {ps : List Parameter} (h : ∀ p ∈ ps, p.isNormal = true)
    (hvoid : ps ≠ [Parameter.void]) {ts : List Token} {ls : List Lexeme}
    (hs : Spells ts (parameterLexemes ps ++ .token .closeParen :: ls)) :
    ∃ rest, readParameters ts = .ok (ps, rest) ∧ Spells rest (.token .closeParen :: ls) := by
  cases ps with
  | nil =>
    obtain ⟨t, rest, rfl, hkind, -⟩ := Spells.token hs
    exact ⟨t :: rest, by rw [readParameters, if_pos hkind], hs⟩
  | cons p ps =>
    obtain ⟨after, hread, hafter⟩ := readParametersFrom_spells h hs
    refine ⟨after, ?_, hafter⟩
    cases ts with
    | nil => exact hread
    | cons t rest =>
      rw [readParameters, if_neg, if_neg]
      · exact hread
      · intro hlone
        rw [Bool.and_eq_true, decide_eq_true_eq, decide_eq_true_eq] at hlone
        obtain ⟨hword, hnext⟩ := hlone
        cases rest with
        | nil => cases hnext
        | cons u more =>
          rw [readParametersFrom_void more (Token.ident?_eq_some_iff.1 hword)
            (Option.some.inj hnext)] at hread
          exact hvoid (congrArg Prod.fst (Except.ok.inj hread)).symm
      · intro hclose
        obtain ⟨word, hhead⟩ := head_parameterLexemes (h p (by simp)) ps (.token .closeParen :: ls)
        rw [← Spells.kinds hs, List.map_cons, hclose] at hhead
        cases hhead

theorem readPrototype_spells {p : Prototype} (h : p.isNormal = true) {ts : List Token}
    {ls : List Lexeme} (hs : Spells ts (p.lexemes ++ ls)) :
    ∃ rest, readPrototype ts = .ok (p, rest) ∧ Spells rest ls := by
  simp only [isNormal, Bool.and_eq_true, decide_eq_true_eq] at h
  obtain ⟨⟨⟨⟨hnotes, hresult⟩, hname⟩, hparameters⟩, hvoid⟩ := h
  obtain ⟨hbefore, hkeyword⟩ := endsBefore_of_allowsName hname
  simp only [lexemes, List.append_assoc, List.cons_append, List.nil_append] at hs
  obtain ⟨ts1, h1, hs1⟩ := readAnnotations_type hnotes hresult hs
  obtain ⟨ts2, h2, hs2⟩ := readType_spells hresult hs1 hbefore
  obtain ⟨offset, ts3, h3, hs3⟩ := expectIdent_spells hs2.blank hkeyword .functionName
  obtain ⟨ts4, h4, hs4⟩ := expect_spells hs3 .openParameters
  obtain ⟨ts5, h5, hs5⟩ := readParameters_spells (List.all_eq_true.1 hparameters) hvoid hs4
  obtain ⟨ts6, h6, hs6⟩ := expect_spells hs5 .closeParameters
  -- No annotations are written behind the parameters.
  obtain ⟨ts7, h7, hs7⟩ := readAnnotations_spells (s := ∅) rfl hs6 (fun _ he => by cases he)
  refine ⟨eatSemicolon ts7, ?_, eatSemicolon_spells hs7⟩
  simp only [readPrototype, h1, h2, h3, h4, h5, h6, h7, bind, Except.bind]
  rfl

theorem readPrototypes_cons (t : Token) (ts : List Token) :
    readPrototypes (t :: ts) = readPrototype (t :: ts) >>= fun (p, rest) =>
      (readPrototypes rest).map (p :: ·) := by
  rw [readPrototypes]
  split
  · rename_i he; rw [he]; rfl
  · rename_i p rest he
    refine Eq.trans ?_ (congrArg (· >>= _) he).symm
    change _ = (readPrototypes rest).map (p :: ·)
    cases readPrototypes rest <;> rfl

theorem readPrototypes_cons_eq_ok {t : Token} {ts : List Token} {ps : List Prototype}
    (h : readPrototypes (t :: ts) = .ok ps) : ∃ p rest others, readPrototype (t :: ts) = .ok (p, rest) ∧
      readPrototypes rest = .ok others ∧ ps = p :: others := by
  rw [readPrototypes_cons] at h
  obtain ⟨⟨p, rest⟩, hp, h⟩ := bind_eq_ok.1 h
  dsimp only at h
  cases hothers : readPrototypes rest with
  | error e => rw [hothers] at h; cases h
  | ok others => rw [hothers] at h; exact ⟨p, rest, others, hp, hothers, (Except.ok.inj h).symm⟩

theorem readPrototypes_spells {ps : List Prototype} (h : ∀ p ∈ ps, p.isNormal = true)
    {ts : List Token} (hs : Spells ts (ps.flatMap lexemes)) : readPrototypes ts = .ok ps := by
  induction ps generalizing ts with
  | nil => rw [hs.nil, readPrototypes]
  | cons p ps ih =>
    obtain ⟨rest, hread, hrest⟩ := readPrototype_spells (h p (by simp)) hs
    have hmore := ih (fun q hq => h q (List.mem_cons_of_mem p hq)) hrest
    cases ts with
    | nil => exact absurd (readPrototype_length hread) (Nat.not_lt_zero _)
    | cons t more =>
      rw [readPrototypes]
      split
      · rename_i he; rw [hread] at he; cases he
      · rename_i he
        rw [hread] at he
        cases he
        rw [hmore]

end Prototype

end NativeCatalogue
