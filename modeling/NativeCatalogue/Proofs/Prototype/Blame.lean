import NativeCatalogue.Proofs.Prototype.Decomposition
import NativeCatalogue.Proofs.Prototype.Steadiness

/-!
Where the errors of a text point. All readers of declarations are steady, so an error blames a token, or the end
of the text, with nothing before it that could not be a part of a text of prototypes.
-/

set_option autoImplicit false

namespace NativeCatalogue.Prototype

theorem parenthesesPair_replicate (depth : Nat) :
    parenthesesPair depth (List.replicate depth (.ofKind .closeParen)) = true := by
  induction depth with
  | zero => rfl
  | succ depth ih => exact ih

/-- A payload without an end ends behind a word and closing parentheses. -/
theorem readPayloadText_eq_error {depth : Nat} {ts : List Token} {e : DeclarationError}
    (h : readPayloadText depth ts = .error e) : e = .unexpectedEnd .closePayload ∧
      ∃ n, parenthesesPair depth
        (ts ++ .ofKind (.ident "x") :: List.replicate n (.ofKind .closeParen)) = true := by
  induction ts generalizing depth with
  | nil => exact ⟨(Except.error.inj h).symm, depth, parenthesesPair_replicate depth⟩
  | cons t ts ih =>
    have more : ∀ d, (readPayloadText d ts >>= fun cut => pure (t.gap ++ t.kind.text ++ cut.1, cut.2)) =
        .error e → readPayloadText d ts = .error e := by
      intro d hd
      cases hinner : readPayloadText d ts with
      | error e' =>
        rw [hinner] at hd
        exact hd
      | ok result =>
        rw [hinner] at hd
        cases hd
    obtain ⟨gap, kind, start⟩ := t
    cases kind with
    | openParen => exact ih (more (depth + 1) h)
    | closeParen =>
      cases depth with
      | zero => cases h
      | succ depth => exact ih (more depth h)
    | _ => exact ih (more depth h)

theorem allBlank_of_word (before after : List Token) (gap : List Char) :
    (String.ofList (tokenChars (before ++ .ofKind (.ident "x") :: after) ++ gap)).allBlank = false := by
  rw [String.allBlank, String.toList_ofList, List.all_eq_false]
  exact ⟨'x', by simp [tokenChars, Token.ofKind, TokenKind.text], by decide⟩

section

variable {keyword : Token} {kind : AnnotationKind} {ts rest : List Token}

theorem readPayload_stay (hkeyword : keyword.ident?.bind AnnotationKind.ofKeyword? = some kind)
    {text : Option String} (h : readPayload kind ts = .ok (text, rest)) :
    ∃ used, ts = used ++ rest ∧ ∀ other, readPayload kind (used ++ other) = .ok (text, other) := by
  cases htakes : kind.takesPayload with
  | false =>
    rw [readPayload_of_not_takesPayload htakes] at h
    cases h
    exact ⟨[], rfl, readPayload_of_not_takesPayload htakes⟩
  | true =>
    obtain ⟨opening, inside, closing, rfl, hpayload, rfl⟩ := (readPayload_eq_ok hkeyword htakes).1 h
    refine ⟨opening :: (inside ++ [closing]), by simp, fun other => ?_⟩
    exact (readPayload_eq_ok hkeyword htakes).2 ⟨opening, inside, closing, by simp, hpayload, rfl⟩

/-- A payload that is not there can be put there. -/
theorem readPayload_fail (hkeyword : keyword.ident?.bind AnnotationKind.ofKeyword? = some kind)
    {e : DeclarationError} (h : readPayload kind ts = .error e) : ∃ before behind, ts = before ++ behind ∧
      Blamed e behind ∧ ∃ more a, ∀ rest, ∃ text,
        readPayload kind (before ++ (more ++ rest)) = .ok (text, rest) ∧ Annotation.make kind text = .ok a := by
  have htakes : kind.takesPayload = true := by
    by_contra hnot
    rw [readPayload_of_not_takesPayload (Bool.eq_false_iff.2 hnot)] at h
    cases h
  have hread : ∀ opening inside n, opening.kind = .openParen → parenthesesPair 0
      (inside ++ .ofKind (.ident "x") :: List.replicate n (.ofKind .closeParen)) = true →
      ∃ more a, ∀ rest, ∃ text, readPayload kind (opening :: (inside ++ (more ++ rest))) = .ok (text, rest) ∧
        Annotation.make kind text = .ok a := by
    intro opening inside n hopening hpair
    obtain ⟨a, ha⟩ := Annotation.make_of_not_blank htakes (allBlank_of_word inside (List.replicate n _) [])
    refine ⟨.ofKind (.ident "x") :: List.replicate n (.ofKind .closeParen) ++ [.ofKind .closeParen], a,
      fun rest => ⟨_, (readPayload_eq_ok hkeyword htakes).2 ⟨opening, _, .ofKind .closeParen, ?_,
        ⟨⟨kind, hkeyword, htakes⟩, hopening, hpair, rfl⟩, rfl⟩, ha⟩⟩
    simp
  rw [readPayload, if_pos htakes] at h
  cases hopen : expect .openParen .openPayload ts with
  | error e' =>
    rw [hopen] at h
    cases h
    obtain rfl := expect_eq_error hopen
    obtain ⟨more, a, hmore⟩ := hread (.ofKind .openParen) [] 0 rfl rfl
    exact ⟨[], ts, rfl, blamed_unexpected .openPayload ts, .ofKind .openParen :: more, a, hmore⟩
  | ok result =>
    obtain ⟨⟨⟩, inside⟩ := result
    obtain ⟨opening, rfl, hopening⟩ := expect_eq_ok.1 hopen
    rw [hopen] at h
    cases htext : readPayloadText 0 inside with
    | error e' =>
      simp only [bind, Except.bind, htext] at h
      cases h
      obtain ⟨rfl, n, hpair⟩ := readPayloadText_eq_error htext
      obtain ⟨more, a, hmore⟩ := hread opening inside n hopening hpair
      exact ⟨opening :: inside, [], (List.append_nil _).symm, .ended, more, a, hmore⟩
    | ok result =>
      simp only [bind, Except.bind, htext] at h
      cases h

end

theorem StartsPlain.of_sameStart {ts us : List Token} (h : StartsPlain ts) (hsame : SameStart ts us) :
    StartsPlain us := by
  cases ts with
  | nil =>
    rw [hsame.nil]
    exact startsPlain_nil
  | cons t ts =>
    obtain ⟨u, us, rfl, hu⟩ := hsame.cons
    refine startsPlain_cons ?_
    rw [Token.isKeyword, ident?_eq_of_kind hu]
    exact h t rfl

theorem startsPlain_of_startsWith {kind : TokenKind} {ts : List Token}
    (hword : ∀ word, kind = .ident word → AnnotationKind.ofKeyword? word = none) (h : StartsWith kind ts) :
    StartsPlain ts := by
  obtain ⟨t, rest, rfl, ht⟩ := h.cons
  refine startsPlain_cons ?_
  cases hident : t.ident? with
  | none => rw [Token.isKeyword, hident]; rfl
  | some word =>
    exact not_isKeyword_of_ident hident (hword word (ht.symm.trans (Token.ident?_eq_some_iff.1 hident)))

theorem readAnnotationsInto_stay {s out : AnnotationSet} {ts rest : List Token}
    (h : readAnnotationsInto s ts = .ok (out, rest)) : ∃ used, ts = used ++ rest ∧
      ∀ other, StartsPlain other → readAnnotationsInto s (used ++ other) = .ok (out, other) := by
  fun_induction readAnnotationsInto s ts with
  | case1 | case2 =>
    cases h
    exact ⟨[], rfl, fun other => readAnnotationsInto_plain _⟩
  | case3 => cases h
  | case4 => cases h
  | case5 s t ts kind hkeyword text after hpayload a hmake ih =>
    obtain ⟨used, rfl, hstay⟩ := readPayload_stay hkeyword hpayload
    obtain ⟨more, rfl, hmore⟩ := ih h
    refine ⟨t :: (used ++ more), by simp, fun other hother => ?_⟩
    rw [List.cons_append, List.append_assoc, readAnnotationsInto_keyword hkeyword, hstay]
    simp only [bind, Except.bind, hmake]
    exact hmore other hother

theorem readAnnotationsInto_fail {s : AnnotationSet} {ts : List Token} {e : DeclarationError}
    (h : readAnnotationsInto s ts = .error e) : ∃ before behind, ts = before ++ behind ∧ Blamed e behind ∧
      ∃ more out, ∀ rest, StartsPlain rest →
        readAnnotationsInto s (before ++ (more ++ rest)) = .ok (out, rest) := by
  fun_induction readAnnotationsInto s ts with
  | case1 => cases h
  | case2 => cases h
  | case3 s t ts kind hkeyword e' hpayload =>
    cases h
    obtain ⟨before, behind, rfl, hblamed, more, a, hmore⟩ := readPayload_fail hkeyword hpayload
    refine ⟨t :: before, behind, rfl, hblamed, more, s.insert a, fun rest hrest => ?_⟩
    obtain ⟨text, hread, hmake⟩ := hmore rest
    rw [List.cons_append, readAnnotationsInto_keyword hkeyword, hread]
    simp only [bind, Except.bind, hmake]
    exact readAnnotationsInto_plain _ hrest
  | case4 s t ts kind hkeyword text after hpayload cause hmake =>
    cases h
    refine ⟨[], t :: ts, rfl, ?_, [], s, fun rest hrest => readAnnotationsInto_plain s hrest⟩
    cases htakes : kind.takesPayload with
    | false =>
      rw [readPayload_of_not_takesPayload htakes] at hpayload
      cases hpayload
      cases kind with
      | split => cases hmake
      | omitted => cases hmake
      | _ => cases htakes
    | true =>
      obtain ⟨opening, inside, closing, rfl, htokens, rfl⟩ := (readPayload_eq_ok hkeyword htakes).1 hpayload
      cases hblank : (String.ofList (tokenChars inside ++ closing.gap)).allBlank with
      | true =>
        rw [ Annotation.make_of_blank htakes hblank] at hmake
        cases hmake
        exact .payload hkeyword htokens hblank
      | false =>
        obtain ⟨a, ha⟩ := Annotation.make_of_not_blank htakes hblank
        rw [ha] at hmake
        cases hmake
  | case5 s t ts kind hkeyword text after hpayload a hmake ih =>
    obtain ⟨used, rfl, hstay⟩ := readPayload_stay hkeyword hpayload
    obtain ⟨before, behind, rfl, hblamed, more, out, hmore⟩ := ih h
    refine ⟨t :: (used ++ before), behind, by simp, hblamed, more, out, fun rest hrest => ?_⟩
    rw [List.cons_append, List.append_assoc, readAnnotationsInto_keyword hkeyword, hstay]
    simp only [bind, Except.bind, hmake]
    exact hmore rest hrest

theorem steady_readAnnotations : Steady (left readAnnotations) (fun _ => True) StartsPlain where
  stay := by
    intro ts rest h
    obtain ⟨s, h⟩ := left_eq_ok.1 h
    obtain ⟨used, hused, hstay⟩ := readAnnotationsInto_stay h
    have hplain := startsPlain_of_readAnnotations h
    refine ⟨used, hused, fun other hother => left_eq_ok.2 ⟨s, hstay other ?_⟩, fun _ _ _ => trivial⟩
    exact hother.elim hplain.of_sameStart id
  fail := by
    intro ts e h
    obtain ⟨before, behind, hts, hblamed, more, out, hmore⟩ := readAnnotationsInto_fail (left_eq_error.1 h)
    exact ⟨before, behind, hts, hblamed, more, fun rest hrest => left_eq_ok.2 ⟨out, hmore rest hrest⟩⟩
  fresh := ⟨[], fun rest hrest => ⟨trivial, left_eq_ok.2 ⟨∅, readAnnotationsInto_plain ∅ hrest⟩⟩⟩

theorem readParameterName_of_not_word {ts : List Token} (h : ∀ word, ¬ StartsWith (.ident word) ts) :
    readParameterName ts = .ok ("", ts) := by
  unfold readParameterName
  split
  · rename_i word hword
    obtain ⟨t, ht, hword⟩ := Option.bind_eq_some_iff.1 hword
    exact absurd (by rw [StartsWith, ht, Option.map_some, Token.ident?_eq_some_iff.1 hword]) (h word)
  · rfl

theorem left_readParameterName_of_word {t : Token} {word : String} (h : t.kind = .ident word)
    (ts : List Token) : left readParameterName (t :: ts) = left (expectIdent .parameterName) (t :: ts) := by
  rw [left, left, readParameterName, List.head?_cons, Option.bind_some, Token.ident?_eq h]
  dsimp only
  cases expectIdent .parameterName (t :: ts) <;> rfl

theorem not_startsWith_of_ne {kind other : TokenKind} {ts : List Token} (hne : kind ≠ other)
    (h : StartsWith kind ts) : ¬ StartsWith other ts :=
  fun hother => hne (Option.some.inj (h.symm.trans hother))

theorem steady_readParameterName :
    Steady (left readParameterName) (StartsWith .closeParen) (StartsWith .closeParen) where
  stay := by
    intro ts rest h
    by_cases hword : ∃ word, StartsWith (.ident word) ts
    · obtain ⟨word, hword⟩ := hword
      obtain ⟨t, tail, rfl, ht⟩ := hword.cons
      rw [left_readParameterName_of_word ht] at h
      obtain ⟨a, h⟩ := left_eq_ok.1 h
      obtain ⟨t, he, hkind, hstart, hname⟩ := expectIdent_eq_ok.1 h
      cases he
      refine ⟨[t], rfl, fun other _ => ?_, fun h => by cases h⟩
      rw [List.singleton_append, left_readParameterName_of_word ht]
      exact left_eq_ok.2 ⟨a, expectIdent_eq_ok.2 ⟨t, rfl, hkind, hstart, hname⟩⟩
    · have hnone : ∀ word, ¬ StartsWith (.ident word) ts := fun word h => hword ⟨word, h⟩
      rw [left, readParameterName_of_not_word hnone] at h
      cases h
      refine ⟨[], rfl, fun other hother => left_eq_ok.2 ⟨"", readParameterName_of_not_word fun word h => ?_⟩,
        fun _ _ hother => hother⟩
      rcases hother with hsame | hclose
      · exact hnone word (h.of_sameStart hsame.symm)
      · exact not_startsWith_of_ne (by simp) hclose h
  fail := by
    intro ts e h
    have hclose : ∀ rest, StartsWith .closeParen rest → left readParameterName rest = .ok rest :=
      fun rest h => left_eq_ok.2 ⟨"", readParameterName_of_not_word fun _ => not_startsWith_of_ne (by simp) h⟩
    by_cases hword : ∃ word, StartsWith (.ident word) ts
    · obtain ⟨word, hword⟩ := hword
      obtain ⟨t, tail, rfl, ht⟩ := hword.cons
      rw [left_readParameterName_of_word ht, left_eq_error] at h
      obtain rfl := expectIdent_eq_error h
      exact ⟨[], t :: tail, rfl, blamed_unexpected .parameterName _, [], hclose⟩
    · rw [left, readParameterName_of_not_word fun word h => hword ⟨word, h⟩] at h
      cases h
  fresh := ⟨[], fun rest h => ⟨h, left_eq_ok.2
    ⟨"", readParameterName_of_not_word fun _ => not_startsWith_of_ne (by simp) h⟩⟩⟩

theorem steady_readParameter : Steady (left readParameter) (fun _ => True) (StartsWith .closeParen) := by
  have hleft : left readParameter =
      (left readAnnotations).andThen ((left readType).andThen (left readParameterName)) :=
    left_bind fun notes => left_bind fun type => left_map (f := fun name => Parameter.mk name type notes)
  rw [hleft]
  refine steady_readAnnotations.andThen (steady_readType.andThen steady_readParameterName ?_) ?_
  · exact fun ts => endsType_of_startsWith (by simp) (by simp) (by simp)
  · exact fun ts => startsPlain_of_startsWith fun word h => by cases h; decide

def behindParameter : Reading
  | [] => .ok []
  | t :: more => if t.kind = .comma then left readParametersFrom more else .ok (t :: more)

theorem behindParameter_comma {t : Token} (h : t.kind = .comma) (ts : List Token) :
    behindParameter (t :: ts) = left readParametersFrom ts :=
  if_pos h

theorem behindParameter_other {ts : List Token} (h : ¬ StartsWith .comma ts) : behindParameter ts = .ok ts := by
  cases ts with
  | nil => rfl
  | cons t ts => exact if_neg fun hcomma => h (startsWith_cons hcomma ts)

theorem left_readParametersFrom : left readParametersFrom = (left readParameter).andThen behindParameter := by
  have heq : readParametersFrom = fun ts => readParameter ts >>= _ := funext readParametersFrom_eq
  rw [heq]
  refine left_bind fun p => funext fun ts => ?_
  cases ts with
  | nil => rfl
  | cons t more =>
    rw [behindParameter, left]
    dsimp only
    split
    · rw [left]
      cases readParametersFrom more <;> rfl
    · rfl

theorem readParametersFrom_stay {ts rest : List Token} (h : left readParametersFrom ts = .ok rest) :
    ∃ used, ts = used ++ rest ∧ ∀ other, SameStart rest other ∨ StartsWith .closeParen other →
      left readParametersFrom (used ++ other) = .ok other := by
  induction hlength : ts.length using Nat.strongRecOn generalizing ts with
  | _ length ih =>
    rw [left_readParametersFrom] at h ⊢
    obtain ⟨mid, hmid, hbehind⟩ := bind_eq_ok.1 h
    obtain ⟨used, rfl, hstay, -⟩ := steady_readParameter.stay hmid
    by_cases hcomma : StartsWith .comma mid
    · obtain ⟨t, more, rfl, ht⟩ := hcomma.cons
      rw [behindParameter_comma ht] at hbehind
      rw [List.length_append, List.length_cons] at hlength
      obtain ⟨used', rfl, hmore⟩ := ih more.length (by omega) hbehind rfl
      refine ⟨used ++ t :: used', by simp, fun other hother => ?_⟩
      rw [List.append_assoc, List.cons_append]
      refine bind_eq_ok.2 ⟨_, hstay (t :: (used' ++ other)) (.inl rfl), ?_⟩
      rw [behindParameter_comma ht]
      exact hmore other hother
    · rw [behindParameter_other hcomma] at hbehind
      cases hbehind
      refine ⟨used, rfl, fun other hother => bind_eq_ok.2 ⟨other, hstay other hother, ?_⟩⟩
      refine behindParameter_other ?_
      rcases hother with hsame | hclose
      · exact fun h => hcomma (h.of_sameStart hsame.symm)
      · exact not_startsWith_of_ne (by simp) hclose

theorem readParametersFrom_fail {ts : List Token} {e : DeclarationError}
    (h : left readParametersFrom ts = .error e) : ∃ before behind, ts = before ++ behind ∧ Blamed e behind ∧
      ∃ more, ∀ rest, StartsWith .closeParen rest →
        left readParametersFrom (before ++ (more ++ rest)) = .ok rest := by
  have hclose : ∀ rest, StartsWith .closeParen rest → behindParameter rest = .ok rest :=
    fun rest h => behindParameter_other (not_startsWith_of_ne (by simp) h)
  induction hlength : ts.length using Nat.strongRecOn generalizing ts with
  | _ length ih =>
    rw [left_readParametersFrom] at h ⊢
    rw [Reading.andThen] at h
    cases hmid : left readParameter ts with
    | error e' =>
      rw [hmid] at h
      cases h
      obtain ⟨before, behind, hts, hblamed, more, hmore⟩ := steady_readParameter.fail hmid
      exact ⟨before, behind, hts, hblamed, more,
        fun rest hrest => bind_eq_ok.2 ⟨rest, hmore rest hrest, hclose rest hrest⟩⟩
    | ok mid =>
      obtain ⟨used, rfl, hstay, -⟩ := steady_readParameter.stay hmid
      rw [hmid] at h
      by_cases hcomma : StartsWith .comma mid
      · obtain ⟨t, tail, rfl, ht⟩ := hcomma.cons
        have h : left readParametersFrom tail = .error e := (behindParameter_comma ht tail).symm.trans h
        rw [List.length_append, List.length_cons] at hlength
        obtain ⟨before, behind, rfl, hblamed, more, hmore⟩ := ih tail.length (by omega) h rfl
        refine ⟨used ++ t :: before, behind, by simp, hblamed, more, fun rest hrest => ?_⟩
        rw [List.append_assoc, List.cons_append]
        refine bind_eq_ok.2 ⟨_, hstay (t :: (before ++ (more ++ rest))) (.inl rfl), ?_⟩
        rw [behindParameter_comma ht]
        exact hmore rest hrest
      · have h : behindParameter mid = .error e := h
        rw [behindParameter_other hcomma] at h
        cases h

theorem readParameters_closeParen {ts : List Token} (h : StartsWith .closeParen ts) :
    left readParameters ts = .ok ts := by
  obtain ⟨t, rest, rfl, ht⟩ := h.cons
  exact left_eq_ok.2 ⟨[], by rw [readParameters, if_pos ht]⟩

theorem readParameters_of_readParametersFrom {ts rest : List Token}
    (h : left readParametersFrom ts = .ok rest) : left readParameters ts = .ok rest := by
  cases ts with
  | nil => exact h
  | cons t ts =>
    rw [left, readParameters]
    split
    · rename_i hclose
      obtain ⟨e, he⟩ := readParametersFrom_closeParen hclose ts
      rw [left_eq_error.2 he] at h
      cases h
    · split
      · rename_i hvoid
        obtain ⟨t, u, more, he, ht, hu⟩ := startsVoid_iff.2 hvoid
        cases he
        rw [left, readParametersFrom_void more ht hu] at h
        exact h
      · exact h

theorem readParameters_void {t : Token} (ht : t.kind = .ident "void") {ts : List Token}
    (h : StartsWith .closeParen ts) : left readParameters (t :: ts) = .ok ts := by
  obtain ⟨u, more, rfl, hu⟩ := h.cons
  exact readParameters_of_readParametersFrom (left_eq_ok.2 ⟨_, readParametersFrom_void more ht hu⟩)

theorem steady_readParameters : Steady (left readParameters) (fun _ => True) (StartsWith .closeParen) where
  stay := by
    have hfrom : ∀ {ts rest}, left readParametersFrom ts = .ok rest → ∃ used, ts = used ++ rest ∧
        (∀ other, SameStart rest other ∨ StartsWith .closeParen other →
          left readParameters (used ++ other) = .ok other) ∧
        (used = [] → ∀ other, StartsWith .closeParen other → True) := by
      intro ts rest h
      obtain ⟨used, hused, hstay⟩ := readParametersFrom_stay h
      exact ⟨used, hused, fun other hother => readParameters_of_readParametersFrom (hstay other hother),
        fun _ _ _ => trivial⟩
    have hclose : ∀ {rest other}, StartsWith .closeParen rest →
        SameStart rest other ∨ StartsWith .closeParen other → StartsWith .closeParen other :=
      fun hrest hother => hother.elim hrest.of_sameStart id
    intro ts rest h
    cases ts with
    | nil => exact hfrom h
    | cons t ts =>
      rw [left, readParameters] at h
      split at h
      · rename_i ht
        cases h
        exact ⟨[], rfl, fun other hother => readParameters_closeParen (hclose (startsWith_cons ht ts) hother),
          fun _ _ _ => trivial⟩
      · split at h
        · rename_i hvoid
          obtain ⟨t, u, more, he, ht, hu⟩ := startsVoid_iff.2 hvoid
          cases he
          cases h
          exact ⟨[t], rfl, fun other hother => readParameters_void ht (hclose (startsWith_cons hu more) hother),
            fun _ _ _ => trivial⟩
        · exact hfrom h
  fail := by
    intro ts e h
    have hfrom : left readParametersFrom ts = .error e := by
      cases ts with
      | nil => exact h
      | cons t ts =>
        rw [left, readParameters] at h
        split at h
        · cases h
        · split at h
          · cases h
          · exact h
    obtain ⟨before, behind, hts, hblamed, more, hmore⟩ := readParametersFrom_fail hfrom
    exact ⟨before, behind, hts, hblamed, more,
      fun rest hrest => readParameters_of_readParametersFrom (hmore rest hrest)⟩
  fresh := ⟨[], fun _ h => ⟨trivial, readParameters_closeParen h⟩⟩

theorem steady_readPrototype : Steady (left readPrototype) (fun _ => True) (· = []) := by
  have hleft : left readPrototype = (left readAnnotations).andThen ((left readType).andThen
      ((left (expectIdent .functionName)).andThen ((left (expect .openParen .openParameters)).andThen
        ((left readParameters).andThen ((left (expect .closeParen .closeParameters)).andThen
          ((left readAnnotations).andThen fun ts => .ok (eatSemicolon ts))))))) :=
    left_bind fun before => left_bind fun result => left_bind fun name => left_bind fun _ =>
      left_bind fun ps => left_bind fun _ => left_bind fun after => rfl
  have hname : AnnotationKind.ofKeyword? "F" = none := by decide
  rw [hleft]
  refine steady_readAnnotations.andThen (steady_readType.andThen
    ((steady_expectIdent hname .functionName).andThen ((steady_expect .openParen .openParameters).andThen
      (steady_readParameters.andThen ((steady_expect .closeParen .closeParameters).andThen
        (steady_readAnnotations.andThen steady_eatSemicolon ?_) ?_) ?_) ?_) ?_) ?_) ?_
  · rintro ts rfl
    exact startsPlain_nil
  · exact fun _ _ => trivial
  · exact fun _ => id
  · exact fun _ _ => trivial
  · exact fun _ _ => trivial
  · refine fun ts => endsType_of_startsWith (by simp) (by simp) fun word h => ?_
    cases h
    decide +kernel
  · exact fun ts => startsPlain_of_startsWith fun word h => by cases h; decide

theorem readPrototypes_of_left {ts rest : List Token} {ps : List Prototype}
    (h : left readPrototype ts = .ok rest) (hrest : readPrototypes rest = .ok ps) :
    ∃ qs, readPrototypes ts = .ok qs := by
  obtain ⟨p, hp⟩ := left_eq_ok.1 h
  cases ts with
  | nil => exact absurd (readPrototype_length hp) (Nat.not_lt_zero _)
  | cons t ts =>
    refine ⟨p :: ps, ?_⟩
    rw [readPrototypes_cons, hp]
    simp only [bind, Except.bind, hrest]
    rfl

/-- The tokens before those that an error blames begin a row of prototypes. -/
theorem readPrototypes_fail {ts : List Token} {e : DeclarationError} (h : readPrototypes ts = .error e) :
    ∃ before behind, ts = before ++ behind ∧ Blamed e behind ∧
      ∃ more ps, readPrototypes (before ++ more) = .ok ps := by
  have hnil : readPrototypes [] = .ok [] := by rw [readPrototypes]
  induction hlength : ts.length using Nat.strongRecOn generalizing ts with
  | _ length ih =>
    cases ts with
    | nil =>
      rw [hnil] at h
      cases h
    | cons t ts =>
      rw [readPrototypes_cons] at h
      cases hp : readPrototype (t :: ts) with
      | error e' =>
        rw [hp] at h
        cases h
        obtain ⟨before, behind, hts, hblamed, more, hmore⟩ := steady_readPrototype.fail (left_eq_error.2 hp)
        have hread := hmore [] rfl
        rw [List.append_nil] at hread
        exact ⟨before, behind, hts, hblamed, more, readPrototypes_of_left hread hnil⟩
      | ok result =>
        obtain ⟨p, rest⟩ := result
        rw [hp] at h
        have hshort := readPrototype_length hp
        cases hothers : readPrototypes rest with
        | ok others =>
          simp only [bind, Except.bind, hothers] at h
          cases h
        | error e' =>
          simp only [bind, Except.bind, hothers] at h
          cases h
          obtain ⟨before, behind, rfl, hblamed, more, ps, hps⟩ := ih rest.length (hlength ▸ hshort) hothers rfl
          obtain ⟨used, hused, hstay, -⟩ := steady_readPrototype.stay (left_eq_ok.2 ⟨p, hp⟩)
          rw [hused]
          by_cases hempty : before = []
          · subst hempty
            -- The prototypes before may be all.
            exact ⟨used, behind, rfl, hblamed, [], readPrototypes_of_left (hstay [] (.inr rfl)) hnil⟩
          · refine ⟨used ++ before, behind, (List.append_assoc _ _ _).symm, hblamed, more, ?_⟩
            rw [List.append_assoc]
            exact readPrototypes_of_left (hstay _ (.inl (sameStart_append hempty behind more))) hps

/-- An error of a text that has tokens blames tokens of it, or its end, behind tokens that begin a text of
    prototypes; and no text has the wrong number of them. -/
theorem parseAll_blames (source : String) :
    (∀ n, parseAll source ≠ .error (.functionCount n)) ∧
    ∀ ts e, tokenize source = .ok ts → parseAll source = .error e →
      (∀ t ∈ ts, t.IsSpan source) ∧ (∀ ps, parseAll source ≠ .ok ps) ∧
      ∃ before behind, ts = before ++ behind ∧ Blamed e behind ∧
        ∃ more ps, readPrototypes (before ++ more) = .ok ps := by
  have hblames : ∀ ts e, tokenize source = .ok ts → parseAll source = .error e →
      ∃ before behind, ts = before ++ behind ∧ Blamed e behind ∧
        ∃ more ps, readPrototypes (before ++ more) = .ok ps := by
    intro ts e hts h
    rw [parseAll, hts] at h
    exact readPrototypes_fail h
  refine ⟨fun n h => ?_, fun ts e hts h => ⟨?_, fun ps hps => ?_, hblames ts e hts h⟩⟩
  · cases htokens : tokenize source with
    | ok ts =>
      obtain ⟨before, behind, -, hblamed, -⟩ := hblames ts _ htokens h
      cases hblamed
    | error e =>
      obtain ⟨ts, gap, rest, -, hstuck⟩ := stuck_of_tokensFrom htokens
      rw [parseAll, htokens] at h
      cases h
      cases hstuck
  · obtain ⟨gap, hdecomposes⟩ := decomposes_of_tokensFrom hts
    exact hdecomposes.isSpan
  · rw [h] at hps
    cases hps

theorem parseAll_blames_sample :
    (∃ ts before behind, tokenize "int f(); int g(since( ) int x)" = .ok ts ∧ ts = before ++ behind ∧
      Blamed (.badPayload (.missingPayload .since) 15) behind ∧
      ∃ more ps, readPrototypes (before ++ more) = .ok ps) ∧
    ∃ ts more ps, tokenize "int f(since(1" = .ok ts ∧ readPrototypes (ts ++ more) = .ok ps := by
  have tokens : ∀ source : String, (tokenize source).toOption.isSome = true →
      ∃ ts, tokenize source = .ok ts := by
    intro source h
    cases htokens : tokenize source with
    | ok ts => exact ⟨ts, rfl⟩
    | error e =>
      rw [htokens] at h
      cases h
  obtain ⟨ts, hts⟩ := tokens "int f(); int g(since( ) int x)" (by decide +kernel)
  obtain ⟨us, hus⟩ := tokens "int f(since(1" (by decide +kernel)
  obtain ⟨-, -, before, behind, hbefore, hblamed, hmore⟩ :=
    (parseAll_blames _).2 ts (.badPayload (.missingPayload .since) 15) hts (by decide +kernel)
  obtain ⟨-, -, start, final, hstart, hended, more, ps, hps⟩ :=
    (parseAll_blames _).2 us (.unexpectedEnd .closePayload) hus (by decide +kernel)
  refine ⟨⟨ts, before, behind, hts, hbefore, hblamed, hmore⟩, us, more, ps, hus, ?_⟩
  cases hended
  rw [hstart, List.append_nil]
  exact hps

end NativeCatalogue.Prototype
