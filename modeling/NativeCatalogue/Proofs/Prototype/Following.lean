import NativeCatalogue.Proofs.Prototype.Declarations

/-!
Two readings side by side. If the tokens of one text stand for those of another, kind by kind, then what
is read from the one is read from the other, with the annotations that the other has. Only the places
where annotations, the lone `void` and the semicolon are looked at depend on how the tokens stand for
each other.
-/

set_option autoImplicit false

namespace NativeCatalogue

def Token.isKeyword (t : Token) : Bool :=
  (t.ident?.bind AnnotationKind.ofKeyword?).isSome

theorem Token.keyword_eq_none {t : Token} (h : t.isKeyword = false) :
    t.ident?.bind AnnotationKind.ofKeyword? = none :=
  Option.not_isSome_iff_eq_none.1 (Bool.eq_false_iff.1 h)

def AnnotationSet.keep (kept : Bool) (s : AnnotationSet) : AnnotationSet :=
  if kept then s else ∅

def Parameter.keep (kept : Bool) (p : Parameter) : Parameter :=
  { p with annotations := p.annotations.keep kept }

def Prototype.keep (kept : Bool) (p : Prototype) : Prototype :=
  { p with parameters := p.parameters.map (·.keep kept), annotations := p.annotations.keep kept }

namespace Prototype

theorem keep_true (p : Prototype) : p.keep true = p := by
  have hparameters : p.parameters.map (·.keep true) = p.parameters := List.map_id _
  rw [keep, hparameters]
  rfl

def StartsPlain (ts : List Token) : Prop :=
  ∀ t ∈ ts.head?, t.isKeyword = false

def StartsVoid (ts : List Token) : Prop :=
  ∃ t u more, ts = t :: u :: more ∧ t.kind = .ident "void" ∧ u.kind = .closeParen

structure Follows (kept : Bool) (R : List Token → List Token → Prop) : Prop where
  nil : ∀ us, R [] us → us = []
  cons : ∀ t ts us, R (t :: ts) us → t.isKeyword = false →
    ∃ u vs, us = u :: vs ∧ u.kind = t.kind ∧ (t.kind ≠ .semicolon → R ts vs)
  annotations : ∀ ts us s rest, R ts us → readAnnotations ts = .ok (s, rest) →
    ∃ vs, readAnnotations us = .ok (s.keep kept, vs) ∧ R rest vs
  void : kept = true → ∀ ts us, R ts us → StartsVoid us → StartsVoid ts

theorem not_isKeyword_of_kind {t : Token} (h : ∀ word, t.kind ≠ .ident word) : t.isKeyword = false := by
  have hnone : t.ident? = none := by
    cases hword : t.ident? with
    | none => rfl
    | some word => exact absurd (Token.ident?_eq_some_iff.1 hword) (h word)
  rw [Token.isKeyword, hnone]
  rfl

theorem not_isKeyword_of_ident {t : Token} {word : String} (h : t.ident? = some word)
    (hword : AnnotationKind.ofKeyword? word = none) : t.isKeyword = false := by
  rw [Token.isKeyword, h, Option.bind_some, hword]
  rfl

theorem startsPlain_nil : StartsPlain [] :=
  fun t ht => absurd ht (Option.not_mem_none t)

theorem startsPlain_cons {t : Token} {ts : List Token} (h : t.isKeyword = false) :
    StartsPlain (t :: ts) :=
  fun _ hu => Option.some.inj hu ▸ h

theorem readAnnotationsInto_plain (s : AnnotationSet) {ts : List Token} (h : StartsPlain ts) :
    readAnnotationsInto s ts = .ok (s, ts) := by
  cases ts with
  | nil => rw [readAnnotationsInto]
  | cons t ts => exact readAnnotationsInto_other (Token.keyword_eq_none (h t rfl)) s ts

theorem ident?_eq_of_kind {t u : Token} (h : u.kind = t.kind) : u.ident? = t.ident? := by
  rw [Token.ident?, Token.ident?, h]

theorem readMoreWords_take {last word : String} {t : Token} (hword : t.ident? = some word)
    (h : (Vocabulary.modifiers.contains last && Vocabulary.isBuiltin word) = true) (ts : List Token) :
    readMoreWords last (t :: ts) =
      (word :: (readMoreWords word ts).1, (readMoreWords word ts).2) := by
  rw [readMoreWords, hword]
  exact if_pos h

theorem readMoreWords_stop {last : String} {t : Token}
    (h : ∀ word, t.ident? = some word →
      (Vocabulary.modifiers.contains last && Vocabulary.isBuiltin word) = false) (ts : List Token) :
    readMoreWords last (t :: ts) = ([], t :: ts) := by
  rw [readMoreWords]
  split
  · rename_i word hword
    exact if_neg (Bool.eq_false_iff.1 (h word hword))
  · rfl

theorem startsPlain_of_expect {kind : TokenKind} {expected : Expectation} {ts rest : List Token}
    {x : Unit} (h : expect kind expected ts = .ok (x, rest)) (hword : ∀ word, kind ≠ .ident word) :
    StartsPlain ts := by
  obtain ⟨t, rfl, hkind⟩ := expect_eq_ok.1 h
  exact startsPlain_cons (not_isKeyword_of_kind fun word => hkind ▸ hword word)

theorem startsPlain_of_expectIdent {expected : Expectation} {ts rest : List Token}
    {word : String × Nat} (h : expectIdent expected ts = .ok (word, rest)) : StartsPlain ts := by
  obtain ⟨t, rfl, hkind, -, hkeyword⟩ := expectIdent_eq_ok.1 h
  exact startsPlain_cons (not_isKeyword_of_ident (Token.ident?_eq hkind) hkeyword)

theorem startsPlain_of_eatConst {ts : List Token} (h : StartsPlain (eatConst ts).2) :
    StartsPlain ts := by
  cases ts with
  | nil => exact h
  | cons t ts =>
    rw [eatConst] at h
    split at h
    · rename_i hconst
      exact startsPlain_cons (not_isKeyword_of_ident hconst (by decide))
    · exact h

theorem not_isKeyword_of_isBuiltin {t : Token} {word : String} (h : t.ident? = some word)
    (hbuiltin : Vocabulary.isBuiltin word = true) : t.isKeyword = false :=
  not_isKeyword_of_ident h (Vocabulary.word_of_find? (Vocabulary.find?_of_isBuiltin hbuiltin)).2.1

theorem startsPlain_of_readMoreWords {last : String} {ts : List Token}
    (h : StartsPlain (readMoreWords last ts).2) : StartsPlain ts := by
  cases ts with
  | nil => exact h
  | cons t ts =>
    rw [readMoreWords] at h
    split at h
    · rename_i word hword
      split at h
      · rename_i hbuiltin
        rw [Bool.and_eq_true] at hbuiltin
        exact startsPlain_cons (not_isKeyword_of_isBuiltin hword hbuiltin.2)
      · exact h
    · exact h

theorem startsPlain_of_readStars {depth : UInt8} {afterStar : Bool} {ts : List Token}
    (h : StartsPlain (readStars depth afterStar ts).2) : StartsPlain ts := by
  cases ts with
  | nil => exact h
  | cons t ts =>
    rw [readStars] at h
    split at h
    · rename_i hstar
      exact startsPlain_cons (not_isKeyword_of_kind (by simp [hstar]))
    · split at h
      · rename_i hconst
        rw [Bool.and_eq_true, decide_eq_true_eq] at hconst
        exact startsPlain_cons (not_isKeyword_of_ident hconst.2 (by decide))
      · exact h

theorem startsPlain_of_readParameterName {name : String} {ts rest : List Token}
    (h : readParameterName ts = .ok (name, rest)) : StartsPlain ts := by
  cases ts with
  | nil => exact startsPlain_nil
  | cons t ts =>
    unfold readParameterName at h
    cases hword : t.ident? with
    | none =>
      exact startsPlain_cons (not_isKeyword_of_kind fun word hkind => by
        rw [Token.ident?_eq hkind] at hword
        cases hword)
    | some word =>
      rw [List.head?_cons, Option.bind_some, hword] at h
      obtain ⟨result, hread, -⟩ := bind_eq_ok.1 h
      exact startsPlain_of_expectIdent hread

theorem startsPlain_of_readAnnotations {s out : AnnotationSet} {ts rest : List Token}
    (h : readAnnotationsInto s ts = .ok (out, rest)) : StartsPlain rest := by
  fun_induction readAnnotationsInto s ts with
  | case1 =>
    cases h
    exact startsPlain_nil
  | case2 s t ts hkeyword =>
    cases h
    exact startsPlain_cons (by rw [Token.isKeyword, hkeyword]; rfl)
  | case3 => cases h
  | case4 => cases h
  | case5 s t ts kind _ text after hpayload a hmake ih => exact ih h

namespace Follows

variable {kept : Bool} {R : List Token → List Token → Prop} {ts us rest : List Token}

theorem word (h : Follows kept R) {t : Token} {ts : List Token} {word : String} (hR : R (t :: ts) us)
    (hword : t.ident? = some word) (hplain : t.isKeyword = false) :
    ∃ u vs, us = u :: vs ∧ u.kind = t.kind ∧ R ts vs := by
  obtain ⟨u, vs, hus, hkind, hrest⟩ := h.cons t ts us hR hplain
  refine ⟨u, vs, hus, hkind, hrest ?_⟩
  simp [Token.ident?_eq_some_iff.1 hword]

theorem expect (h : Follows kept R) {kind : TokenKind} {expected : Expectation} {x : Unit}
    (hR : R ts us) (hread : Prototype.expect kind expected ts = .ok (x, rest))
    (hword : ∀ word, kind ≠ .ident word) (hsemicolon : kind ≠ .semicolon) :
    ∃ vs, Prototype.expect kind expected us = .ok ((), vs) ∧ R rest vs := by
  have hplain := startsPlain_of_expect hread hword
  obtain ⟨t, rfl, hkind⟩ := expect_eq_ok.1 hread
  obtain ⟨u, vs, rfl, hu, hrest⟩ := h.cons t rest us hR (hplain t rfl)
  exact ⟨vs, expect_eq_ok.2 ⟨u, rfl, hu.trans hkind⟩, hrest (hkind ▸ hsemicolon)⟩

theorem expectIdent (h : Follows kept R) {expected : Expectation} {word : String} {offset : Nat}
    (hR : R ts us) (hread : Prototype.expectIdent expected ts = .ok ((word, offset), rest)) :
    ∃ place vs, Prototype.expectIdent expected us = .ok ((word, place), vs) ∧ R rest vs := by
  have hplain := startsPlain_of_expectIdent hread
  obtain ⟨t, rfl, hkind, -, hkeyword⟩ := expectIdent_eq_ok.1 hread
  obtain ⟨u, vs, rfl, hu, hrest⟩ := h.word hR (Token.ident?_eq hkind) (hplain t rfl)
  exact ⟨u.start, vs, expectIdent_eq_ok.2 ⟨u, rfl, hu.trans hkind, rfl, hkeyword⟩, hrest⟩

theorem eatConst (h : Follows kept R) (hR : R ts us) (hplain : StartsPlain (Prototype.eatConst ts).2) :
    ∃ vs, Prototype.eatConst us = ((Prototype.eatConst ts).1, vs) ∧
      R (Prototype.eatConst ts).2 vs := by
  have hfirst := startsPlain_of_eatConst hplain
  cases ts with
  | nil =>
    obtain rfl := h.nil us hR
    exact ⟨[], rfl, hR⟩
  | cons t ts =>
    rw [Prototype.eatConst]
    by_cases hconst : t.ident? = some "const"
    · obtain ⟨u, vs, rfl, hu, hrest⟩ := h.word hR hconst (hfirst t rfl)
      rw [if_pos hconst, Prototype.eatConst, if_pos (ident?_eq_of_kind hu ▸ hconst)]
      exact ⟨vs, rfl, hrest⟩
    · obtain ⟨u, vs, rfl, hu, -⟩ := h.cons t ts us hR (hfirst t rfl)
      rw [if_neg hconst, Prototype.eatConst, if_neg (ident?_eq_of_kind hu ▸ hconst)]
      exact ⟨u :: vs, rfl, hR⟩

theorem readMoreWords (h : Follows kept R) (last : String) (hR : R ts us)
    (hplain : StartsPlain (Prototype.readMoreWords last ts).2) :
    ∃ vs, Prototype.readMoreWords last us = ((Prototype.readMoreWords last ts).1, vs) ∧
      R (Prototype.readMoreWords last ts).2 vs := by
  induction ts generalizing last us with
  | nil =>
    obtain rfl := h.nil us hR
    exact ⟨[], rfl, hR⟩
  | cons t ts ih =>
    have hfirst := startsPlain_of_readMoreWords hplain
    by_cases htake : ∃ word, t.ident? = some word ∧
        (Vocabulary.modifiers.contains last && Vocabulary.isBuiltin word) = true
    · obtain ⟨word, hword, hbuiltin⟩ := htake
      obtain ⟨u, vs, rfl, hu, hrest⟩ := h.word hR hword (hfirst t rfl)
      rw [readMoreWords_take hword hbuiltin] at hplain ⊢
      obtain ⟨ws, hread, hrest⟩ := ih word hrest hplain
      rw [readMoreWords_take (ident?_eq_of_kind hu ▸ hword) hbuiltin, hread]
      exact ⟨ws, rfl, hrest⟩
    · have hstop : ∀ word, t.ident? = some word →
          (Vocabulary.modifiers.contains last && Vocabulary.isBuiltin word) = false :=
        fun word hword => Bool.eq_false_iff.2 fun hbuiltin => htake ⟨word, hword, hbuiltin⟩
      obtain ⟨u, vs, rfl, hu, -⟩ := h.cons t ts us hR (hfirst t rfl)
      rw [readMoreWords_stop hstop, readMoreWords_stop (ident?_eq_of_kind hu ▸ hstop)]
      exact ⟨u :: vs, rfl, hR⟩

theorem readStars (h : Follows kept R) (depth : UInt8) (afterStar : Bool) (hR : R ts us)
    (hplain : StartsPlain (Prototype.readStars depth afterStar ts).2) :
    ∃ vs, Prototype.readStars depth afterStar us = ((Prototype.readStars depth afterStar ts).1, vs) ∧
      R (Prototype.readStars depth afterStar ts).2 vs := by
  induction ts generalizing depth afterStar us with
  | nil =>
    obtain rfl := h.nil us hR
    exact ⟨[], rfl, hR⟩
  | cons t ts ih =>
    have hfirst := startsPlain_of_readStars hplain
    obtain ⟨u, vs, rfl, hu, hrest⟩ := h.cons t ts us hR (hfirst t rfl)
    rw [Prototype.readStars] at hplain
    rw [Prototype.readStars, Prototype.readStars, hu, ident?_eq_of_kind hu]
    split at hplain
    · rename_i hstar
      rw [if_pos hstar, if_pos hstar]
      exact ih _ _ (hrest (by simp [hstar])) hplain
    · rename_i hstar
      rw [if_neg hstar, if_neg hstar]
      split at hplain
      · rename_i hconst
        rw [if_pos hconst, if_pos hconst]
        rw [Bool.and_eq_true, decide_eq_true_eq, Token.ident?_eq_some_iff] at hconst
        exact ih _ _ (hrest (by simp [hconst.2])) hplain
      · rename_i hconst
        rw [if_neg hconst, if_neg hconst]
        exact ⟨u :: vs, rfl, hR⟩

theorem readType (h : Follows kept R) {type : TypeSpec} (hR : R ts us)
    (hread : Prototype.readType ts = .ok (type, rest)) (hplain : StartsPlain rest) :
    ∃ vs, Prototype.readType us = .ok (type, vs) ∧ R rest vs := by
  obtain ⟨first, offset, ts2, hfirst, hknown, rfl, rfl⟩ := readType_eq_ok.1 hread
  have hplain4 := startsPlain_of_readStars hplain
  have hplain3 := startsPlain_of_eatConst hplain4
  obtain ⟨us1, h1, hR1⟩ := h.eatConst hR (startsPlain_of_expectIdent hfirst)
  obtain ⟨place, us2, h2, hR2⟩ := h.expectIdent hR1 hfirst
  obtain ⟨us3, h3, hR3⟩ := h.readMoreWords first hR2 hplain3
  obtain ⟨us4, h4, hR4⟩ := h.eatConst hR3 hplain4
  obtain ⟨us5, h5, hR5⟩ := h.readStars 0 false hR4 hplain
  refine ⟨us5, readType_eq_ok.2 ⟨first, place, us2, ?_, ?_⟩, hR5⟩
  · rw [h1]
    exact h2
  · simp only [h1, h3, h4, h5, and_true]
    exact hknown

theorem readParameterName (h : Follows kept R) {name : String} (hR : R ts us)
    (hread : Prototype.readParameterName ts = .ok (name, rest)) :
    ∃ vs, Prototype.readParameterName us = .ok (name, vs) ∧ R rest vs := by
  have hplain := startsPlain_of_readParameterName hread
  unfold Prototype.readParameterName at hread ⊢
  have hhead : us.head?.bind Token.ident? = ts.head?.bind Token.ident? := by
    cases ts with
    | nil => rw [h.nil us hR]
    | cons t ts =>
      obtain ⟨u, vs, rfl, hu, -⟩ := h.cons t ts us hR (hplain t rfl)
      exact ident?_eq_of_kind hu
  rw [hhead]
  split at hread
  · obtain ⟨⟨⟨word, offset⟩, after⟩, hword, hread⟩ := bind_eq_ok.1 hread
    cases hread
    obtain ⟨place, vs, hvs, hrest⟩ := h.expectIdent hR hword
    exact ⟨vs, bind_eq_ok.2 ⟨_, hvs, rfl⟩, hrest⟩
  · cases hread
    exact ⟨us, rfl, hR⟩

theorem readParameter (h : Follows kept R) {p : Parameter} (hR : R ts us)
    (hread : Prototype.readParameter ts = .ok (p, rest)) :
    ∃ vs, Prototype.readParameter us = .ok (p.keep kept, vs) ∧ R rest vs := by
  obtain ⟨⟨notes, ts1⟩, h1, hread⟩ := bind_eq_ok.1 hread
  obtain ⟨⟨type, ts2⟩, h2, hread⟩ := bind_eq_ok.1 hread
  obtain ⟨⟨name, ts3⟩, h3, hread⟩ := bind_eq_ok.1 hread
  cases hread
  obtain ⟨us1, g1, hR1⟩ := h.annotations ts us notes ts1 hR h1
  obtain ⟨us2, g2, hR2⟩ := h.readType hR1 h2 (startsPlain_of_readParameterName h3)
  obtain ⟨us3, g3, hR3⟩ := h.readParameterName hR2 h3
  exact ⟨us3, bind_eq_ok.2 ⟨_, g1, bind_eq_ok.2 ⟨_, g2, bind_eq_ok.2 ⟨_, g3, rfl⟩⟩⟩, hR3⟩

theorem readParametersFrom (h : Follows kept R) {ps : List Parameter} (hR : R ts us)
    (hread : Prototype.readParametersFrom ts = .ok (ps, rest)) (hplain : StartsPlain rest) :
    ∃ vs, Prototype.readParametersFrom us = .ok (ps.map (·.keep kept), vs) ∧ R rest vs := by
  induction hlength : ts.length using Nat.strongRecOn generalizing ts us ps with
  | _ length ih =>
    rw [readParametersFrom_eq] at hread
    obtain ⟨⟨p, after⟩, hp, hread⟩ := bind_eq_ok.1 hread
    obtain ⟨vs, hvs, hafter⟩ := h.readParameter hR hp
    rw [readParametersFrom_eq, hvs]
    have hshort := readParameter_length hp
    cases after with
    | nil =>
      cases hread
      obtain rfl := h.nil vs hafter
      exact ⟨[], rfl, hafter⟩
    | cons t more =>
      dsimp only at hread
      split at hread
      · rename_i hcomma
        obtain ⟨⟨others, last⟩, hothers, hread⟩ := bind_eq_ok.1 hread
        cases hread
        obtain ⟨u, ws, rfl, hu, hws⟩ :=
          h.cons t more vs hafter (not_isKeyword_of_kind (by simp [hcomma]))
        rw [List.length_cons] at hshort
        obtain ⟨xs, hxs, hlast⟩ := ih more.length (by omega) (hws (by simp [hcomma])) hothers rfl
        refine ⟨xs, ?_, hlast⟩
        simp only [bind, Except.bind, hu, hcomma, if_true, hxs, List.map_cons]
      · rename_i hcomma
        cases hread
        obtain ⟨u, ws, rfl, hu, -⟩ := h.cons t more vs hafter (hplain t rfl)
        refine ⟨u :: ws, ?_, hafter⟩
        simp only [bind, Except.bind, hu, if_neg hcomma]
        rfl

end Follows

/-- Whether parameters are a lone `void` that only its annotations make a parameter. -/
def IsAnnotatedVoid (ps : List Parameter) : Prop :=
  ∃ notes, notes ≠ ∅ ∧ ps = [⟨"", .named "void", notes⟩]

theorem items_ne_nil_insert (s : AnnotationSet) (a : Annotation) : (s.insert a).items ≠ [] := by
  unfold AnnotationSet.insert
  split
  · rename_i hmem
    exact List.ne_nil_of_mem (List.contains_iff_mem.1 hmem)
  · exact List.append_ne_nil_of_right_ne_nil _ (List.cons_ne_nil _ _)

theorem readAnnotationsInto_ne_nil {s out : AnnotationSet} {ts rest : List Token} (hs : s.items ≠ [])
    (h : readAnnotationsInto s ts = .ok (out, rest)) : out.items ≠ [] := by
  fun_induction readAnnotationsInto s ts with
  | case1 => cases h; exact hs
  | case2 => cases h; exact hs
  | case3 => cases h
  | case4 => cases h
  | case5 s t ts kind _ text after hpayload a hmake ih => exact ih (items_ne_nil_insert s a) h

theorem startsPlain_of_empty {ts rest : List Token} (h : readAnnotations ts = .ok (∅, rest)) :
    StartsPlain ts ∧ rest = ts := by
  cases ts with
  | nil =>
    rw [readAnnotations, readAnnotationsInto] at h
    cases h
    exact ⟨startsPlain_nil, rfl⟩
  | cons t ts =>
    cases hkeyword : t.ident?.bind AnnotationKind.ofKeyword? with
    | none =>
      rw [readAnnotations, readAnnotationsInto_other hkeyword] at h
      cases h
      exact ⟨startsPlain_cons (by rw [Token.isKeyword, hkeyword]; rfl), rfl⟩
    | some kind =>
      rw [readAnnotations, readAnnotationsInto_keyword hkeyword] at h
      obtain ⟨⟨text, after⟩, hpayload, h⟩ := bind_eq_ok.1 h
      dsimp only at h
      split at h
      · cases h
      · rename_i a hmake
        exact absurd rfl (readAnnotationsInto_ne_nil (items_ne_nil_insert ∅ a) h)

theorem startsPlain_behind_word {t : Token} {ts rest : List Token} {type : TypeSpec}
    (hconst : t.ident? ≠ some "const") (h : readType (t :: ts) = .ok (type, rest))
    (hplain : StartsPlain rest) : StartsPlain ts := by
  obtain ⟨first, offset, after, hfirst, -, -, rfl⟩ := readType_eq_ok.1 h
  rw [eatConst, if_neg hconst] at hfirst
  obtain ⟨_, he, -⟩ := expectIdent_eq_ok.1 hfirst
  cases he
  exact startsPlain_of_readMoreWords (startsPlain_of_eatConst (startsPlain_of_readStars hplain))

theorem readParameter_of_cons {ts rest : List Token} {p : Parameter} {ps : List Parameter}
    (h : readParametersFrom ts = .ok (p :: ps, rest)) : ∃ after, readParameter ts = .ok (p, after) := by
  rw [readParametersFrom_eq] at h
  obtain ⟨⟨q, after⟩, hq, h⟩ := bind_eq_ok.1 h
  dsimp only at h
  split at h
  · cases h
    exact ⟨_, hq⟩
  · split at h
    · obtain ⟨others, -, h⟩ := bind_eq_ok.1 h
      cases h
      exact ⟨_, hq⟩
    · cases h
      exact ⟨_, hq⟩

theorem startsVoid_iff {t : Token} {ts : List Token} : StartsVoid (t :: ts) ↔
    (t.ident? = some "void" && ts.head?.map Token.kind = some .closeParen) = true := by
  rw [Bool.and_eq_true, decide_eq_true_eq, decide_eq_true_eq, Token.ident?_eq_some_iff]
  constructor
  · rintro ⟨t, u, more, he, ht, hu⟩
    cases he
    exact ⟨ht, congrArg some hu⟩
  · rintro ⟨ht, hu⟩
    obtain ⟨u, hhead, hu⟩ := Option.map_eq_some_iff.1 hu
    exact ⟨t, u, ts.tail, by rw [List.eq_cons_of_mem_head? hhead]; rfl, ht, hu⟩

theorem readParametersFrom_closeParen {t : Token} (ht : t.kind = .closeParen) (ts : List Token) :
    ∃ e, readParametersFrom (t :: ts) = .error e := by
  obtain ⟨gap, kind, start⟩ := t
  cases ht
  rw [readParametersFrom_eq, readParameter, readAnnotations, readAnnotationsInto_other rfl]
  exact ⟨_, rfl⟩

namespace Follows

variable {kept : Bool} {R : List Token → List Token → Prop} {ts us rest : List Token}

/-- A lone `void` stands for one, but for annotations. -/
theorem startsVoid (h : Follows kept R) {ps : List Parameter} (hR : R ts us)
    (hread : Prototype.readParametersFrom ts = .ok (ps, rest)) (hplain : StartsPlain rest)
    (hvoid : kept = false → ¬ IsAnnotatedVoid ps) (hus : StartsVoid us) : StartsVoid ts := by
  cases hkept : kept with
  | true => exact h.void hkept ts us hR hus
  | false =>
    obtain ⟨u, v, more, rfl, hu, hv⟩ := hus
    obtain ⟨vs, hvs, -⟩ := h.readParametersFrom hR hread hplain
    rw [readParametersFrom_void more hu hv, hkept] at hvs
    have hps : ps.map (·.keep false) = [Parameter.void] := (congrArg Prod.fst (Except.ok.inj hvs)).symm
    obtain ⟨p, rfl, hp⟩ := List.map_eq_singleton_iff.1 hps
    obtain ⟨after, hparameter⟩ := readParameter_of_cons hread
    obtain ⟨⟨notes, ts1⟩, h1, hparameter⟩ := bind_eq_ok.1 hparameter
    obtain ⟨⟨type, ts2⟩, h2, hparameter⟩ := bind_eq_ok.1 hparameter
    obtain ⟨⟨name, ts3⟩, h3, hparameter⟩ := bind_eq_ok.1 hparameter
    cases hparameter
    have hnotes : notes = ∅ := by
      by_contra hne
      exact hvoid hkept ⟨notes, hne, by cases hp; rfl⟩
    rw [hnotes] at h1
    obtain ⟨hfirst, rfl⟩ := startsPlain_of_empty h1
    cases ts1 with
    | nil => cases h.nil _ hR
    | cons t ts =>
      obtain ⟨u', vs', hcons, hu', hrest⟩ := h.cons t ts _ hR (hfirst t rfl)
      cases hcons
      have ht : t.kind = .ident "void" := hu'.symm.trans hu
      have hbehind := startsPlain_behind_word (t := t) (by rw [Token.ident?_eq ht]; decide) h2
        (startsPlain_of_readParameterName h3)
      have hrest := hrest (by simp [ht])
      cases ts with
      | nil => cases h.nil _ hrest
      | cons x xs =>
        obtain ⟨v', ws, hcons, hv', -⟩ := h.cons x xs _ hrest (hbehind x rfl)
        cases hcons
        exact ⟨t, x, xs, rfl, ht, hv'.symm.trans hv⟩

theorem readParameters (h : Follows kept R) {ps : List Parameter} (hR : R ts us)
    (hread : Prototype.readParameters ts = .ok (ps, rest)) (hplain : StartsPlain rest)
    (hvoid : kept = false → ¬ IsAnnotatedVoid ps) :
    ∃ vs, Prototype.readParameters us = .ok (ps.map (·.keep kept), vs) ∧ R rest vs := by
  cases ts with
  | nil =>
    obtain rfl := h.nil us hR
    exact h.readParametersFrom hR hread hplain
  | cons t ts =>
    rw [Prototype.readParameters] at hread
    split at hread
    · rename_i hclose
      cases hread
      obtain ⟨u, vs, rfl, hu, -⟩ := h.cons t ts us hR (hplain t rfl)
      exact ⟨u :: vs, by rw [Prototype.readParameters, if_pos (hu.trans hclose)]; rfl, hR⟩
    · rename_i hclose
      split at hread
      · rename_i hlone
        cases hread
        obtain ⟨t, x, more, he, ht, hx⟩ := startsVoid_iff.2 hlone
        cases he
        obtain ⟨u, vs, rfl, hu, hrest⟩ :=
          h.word hR (Token.ident?_eq ht) (not_isKeyword_of_ident (Token.ident?_eq ht) (by decide))
        obtain ⟨v, ws, rfl, hv, -⟩ := h.cons x more vs hrest (hplain x rfl)
        have hus : StartsVoid (u :: v :: ws) := ⟨u, v, ws, rfl, hu.trans ht, hv.trans hx⟩
        refine ⟨v :: ws, ?_, hrest⟩
        rw [Prototype.readParameters, if_neg (by simp [hu, ht]),
          if_pos (startsVoid_iff.1 hus)]
        rfl
      · rename_i hlone
        obtain ⟨vs, hvs, hrest⟩ := h.readParametersFrom hR hread hplain
        refine ⟨vs, ?_, hrest⟩
        cases us with
        | nil => exact hvs
        | cons u us =>
          rw [Prototype.readParameters, if_neg, if_neg]
          · exact hvs
          · intro hus
            exact hlone (startsVoid_iff.1 (h.startsVoid hR hread hplain hvoid (startsVoid_iff.2 hus)))
          · intro hu
            obtain ⟨e, he⟩ := readParametersFrom_closeParen hu us
            rw [he] at hvs
            cases hvs

theorem readPrototype (h : Follows kept R) {p : Prototype} (hR : R ts us)
    (hread : Prototype.readPrototype ts = .ok (p, rest))
    (hvoid : kept = false → ¬ IsAnnotatedVoid p.parameters) :
    ∃ last vs, rest = eatSemicolon last ∧ StartsPlain last ∧ R last vs ∧
      Prototype.readPrototype us = .ok (p.keep kept, eatSemicolon vs) := by
  obtain ⟨⟨before, ts1⟩, h1, hread⟩ := bind_eq_ok.1 hread
  obtain ⟨⟨result, ts2⟩, h2, hread⟩ := bind_eq_ok.1 hread
  obtain ⟨⟨⟨name, offset⟩, ts3⟩, h3, hread⟩ := bind_eq_ok.1 hread
  obtain ⟨⟨⟨⟩, ts4⟩, h4, hread⟩ := bind_eq_ok.1 hread
  obtain ⟨⟨ps, ts5⟩, h5, hread⟩ := bind_eq_ok.1 hread
  obtain ⟨⟨⟨⟩, ts6⟩, h6, hread⟩ := bind_eq_ok.1 hread
  obtain ⟨⟨after, ts7⟩, h7, hread⟩ := bind_eq_ok.1 hread
  cases hread
  obtain ⟨us1, g1, hR1⟩ := h.annotations ts us before ts1 hR h1
  obtain ⟨us2, g2, hR2⟩ := h.readType hR1 h2 (startsPlain_of_expectIdent h3)
  obtain ⟨place, us3, g3, hR3⟩ := h.expectIdent hR2 h3
  obtain ⟨us4, g4, hR4⟩ := h.expect hR3 h4 (by simp) (by simp)
  obtain ⟨us5, g5, hR5⟩ := h.readParameters hR4 h5 (startsPlain_of_expect h6 (by simp)) hvoid
  obtain ⟨us6, g6, hR6⟩ := h.expect hR5 h6 (by simp) (by simp)
  obtain ⟨us7, g7, hR7⟩ := h.annotations ts6 us6 after ts7 hR6 h7
  refine ⟨ts7, us7, rfl, startsPlain_of_readAnnotations h7, hR7, ?_⟩
  have hnotes : (before.insertAll after.items).keep kept =
      (before.keep kept).insertAll (after.keep kept).items := by
    cases kept <;> rfl
  simp only [Prototype.readPrototype, g1, g2, g3, g4, g5, g6, g7, bind, Except.bind, keep, hnotes]
  rfl

end Follows

end Prototype

end NativeCatalogue
