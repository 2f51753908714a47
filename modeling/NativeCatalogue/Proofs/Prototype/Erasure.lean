import NativeCatalogue.Binary.Basic
import NativeCatalogue.Proofs.Prototype.Following
import NativeCatalogue.Proofs.Prototype.Gaps
import NativeCatalogue.Prototype.Lexer
import NativeCatalogue.Signature.Basic

set_option autoImplicit false

namespace NativeCatalogue

open Arithmetic

def blankOut (cs : List Char) : List Char :=
  List.replicate (byteLength cs) ' '

/-- Where a token stands: outside annotations, behind a keyword that takes a payload, or inside so
    many open parentheses of one. -/
inductive ErasurePlace where
  | outside
  | beforePayload
  | inPayload (depth : Nat)
  deriving DecidableEq, Repr

namespace ErasurePlace

def afterKeyword (kind : AnnotationKind) : ErasurePlace :=
  if kind.takesPayload then .beforePayload else .outside

def afterPayloadToken (depth : Nat) : TokenKind → ErasurePlace
  | .openParen => .inPayload (depth + 1)
  | .closeParen => if depth ≤ 1 then .outside else .inPayload (depth - 1)
  | _ => .inPayload depth

def step (place : ErasurePlace) (t : Token) : List Char × ErasurePlace :=
  match place with
  | .outside =>
    match t.ident?.bind AnnotationKind.ofKeyword? with
    | some kind => (t.gap ++ blankOut t.kind.text, afterKeyword kind)
    | none => (t.gap ++ t.kind.text, .outside)
  | .beforePayload => (blankOut (t.gap ++ t.kind.text), afterPayloadToken 0 t.kind)
  | .inPayload depth => (blankOut (t.gap ++ t.kind.text), afterPayloadToken depth t.kind)

end ErasurePlace

def erasedChars (place : ErasurePlace) : List Token → List Char
  | [] => []
  | t :: rest => (place.step t).1 ++ erasedChars (place.step t).2 rest

def tokensLength (tokens : List Token) : Nat :=
  (tokens.map fun t => t.gap.length + t.kind.text.length).sum

/-- A text without annotations; what follows its last token is kept, and so is a text that has no
    tokens. -/
def eraseAnnotations (source : String) : String :=
  match tokenize source with
  | .ok tokens => .ofList (erasedChars .outside tokens ++ source.toList.drop (tokensLength tokens))
  | .error _ => source

namespace ErasurePlace

def kept (place : ErasurePlace) (t : Token) : List TokenKind :=
  match place with
  | .outside => if t.isKeyword then [] else [t.kind]
  | _ => []

end ErasurePlace

def keptKinds (place : ErasurePlace) : List Token → List TokenKind
  | [] => []
  | t :: ts => place.kept t ++ keptKinds (place.step t).2 ts

theorem keptKinds_plain {t : Token} (h : t.isKeyword = false) (ts : List Token) :
    keptKinds .outside (t :: ts) = t.kind :: keptKinds .outside ts := by
  rw [keptKinds, ErasurePlace.kept, if_neg (Bool.eq_false_iff.1 h), ErasurePlace.step,
    Token.keyword_eq_none h]
  rfl

theorem keptKinds_keyword {t : Token} {kind : AnnotationKind}
    (h : t.ident?.bind AnnotationKind.ofKeyword? = some kind) (ts : List Token) :
    keptKinds .outside (t :: ts) = keptKinds (.afterKeyword kind) ts := by
  rw [keptKinds, ErasurePlace.kept, if_pos (by rw [Token.isKeyword, h]; rfl), ErasurePlace.step, h]
  rfl

theorem plain_of_mem_keptKinds {place : ErasurePlace} {ts : List Token} {kind : TokenKind}
    (h : kind ∈ keptKinds place ts) : ∃ t : Token, t.kind = kind ∧ t.isKeyword = false := by
  induction ts generalizing place with
  | nil => cases h
  | cons t ts ih =>
    rw [keptKinds, List.mem_append] at h
    rcases h with hkept | hmore
    · cases place with
      | outside =>
        rw [ErasurePlace.kept] at hkept
        split at hkept
        · cases hkept
        · rename_i hplain
          exact ⟨t, (List.mem_singleton.1 hkept).symm, Bool.eq_false_iff.2 hplain⟩
      | beforePayload => cases hkept
      | inPayload depth => cases hkept
    · exact ih hmore

theorem startsPlain_of_kept {place : ErasurePlace} {ts us : List Token}
    (h : us.map Token.kind = keptKinds place ts) : Prototype.StartsPlain us := by
  intro u hu
  have hmem : u.kind ∈ us.map Token.kind := List.mem_map_of_mem (List.mem_of_mem_head? hu)
  rw [h] at hmem
  obtain ⟨t, hkind, hplain⟩ := plain_of_mem_keptKinds hmem
  rw [Token.isKeyword, ← Prototype.ident?_eq_of_kind hkind]
  exact hplain

namespace Prototype

theorem keptKinds_readPayloadText {depth : Nat} {ts rest : List Token} {text : List Char}
    (h : readPayloadText depth ts = .ok (text, rest)) :
    keptKinds (.inPayload (depth + 1)) ts = keptKinds .outside rest := by
  induction ts generalizing depth text with
  | nil => cases h
  | cons t ts ih =>
    obtain ⟨gap, kind, start⟩ := t
    cases kind with
    | closeParen =>
      cases depth with
      | zero =>
        cases h
        rfl
      | succ depth =>
        obtain ⟨⟨inner, after⟩, hinner, h⟩ := bind_eq_ok.1 h
        cases h
        have hplace : ErasurePlace.afterPayloadToken (depth + 2) .closeParen = .inPayload (depth + 1) := by
          rw [ErasurePlace.afterPayloadToken, if_neg (by omega)]
          rfl
        change keptKinds (.afterPayloadToken (depth + 2) .closeParen) ts = _
        rw [hplace]
        exact ih hinner
    | _ =>
      obtain ⟨⟨inner, after⟩, hinner, h⟩ := bind_eq_ok.1 h
      cases h
      exact ih hinner

theorem keptKinds_readPayload {kind : AnnotationKind} {ts rest : List Token} {text : Option String}
    (h : readPayload kind ts = .ok (text, rest)) :
    keptKinds (.afterKeyword kind) ts = keptKinds .outside rest := by
  unfold readPayload at h
  unfold ErasurePlace.afterKeyword
  split at h
  · rename_i htakes
    rw [if_pos htakes]
    obtain ⟨⟨⟨⟩, inside⟩, hopen, h⟩ := bind_eq_ok.1 h
    obtain ⟨⟨raw, after⟩, hraw, h⟩ := bind_eq_ok.1 h
    cases h
    obtain ⟨t, rfl, hkind⟩ := expect_eq_ok.1 hopen
    change keptKinds (.afterPayloadToken 0 t.kind) _ = _
    rw [hkind]
    exact keptKinds_readPayloadText hraw
  · rename_i htakes
    rw [if_neg htakes]
    cases h
    rfl

theorem keptKinds_readAnnotationsInto {s out : AnnotationSet} {ts rest : List Token}
    (h : readAnnotationsInto s ts = .ok (out, rest)) :
    keptKinds .outside ts = keptKinds .outside rest := by
  fun_induction readAnnotationsInto s ts with
  | case1 => cases h; rfl
  | case2 => cases h; rfl
  | case3 => cases h
  | case4 => cases h
  | case5 s t ts kind hkeyword text after hpayload a hmake ih =>
    rw [keptKinds_keyword hkeyword, keptKinds_readPayload hpayload]
    exact ih h

theorem follows_kept : Follows false fun ts us => us.map Token.kind = keptKinds .outside ts where
  nil us h := List.map_eq_nil_iff.1 h
  cons := by
    intro t ts us h hplain
    rw [keptKinds_plain hplain] at h
    obtain ⟨u, vs, rfl, hu, hvs⟩ := List.map_eq_cons_iff.1 h
    exact ⟨u, vs, rfl, hu, fun _ => hvs⟩
  annotations := by
    intro ts us s rest h hread
    exact ⟨us, readAnnotationsInto_plain ∅ (startsPlain_of_kept h),
      h.trans (keptKinds_readAnnotationsInto hread)⟩
  void h := by cases h

theorem readPrototypes_kept {ts us : List Token} {ps : List Prototype}
    (h : readPrototypes ts = .ok ps) (hus : us.map Token.kind = keptKinds .outside ts)
    (hvoid : ∀ p ∈ ps, ¬ IsAnnotatedVoid p.parameters) :
    readPrototypes us = .ok (ps.map (·.keep false)) := by
  induction hlength : ts.length using Nat.strongRecOn generalizing ts us ps with
  | _ length ih =>
    cases ts with
    | nil =>
      obtain rfl := follows_kept.nil us hus
      rw [readPrototypes] at h ⊢
      cases h
      rfl
    | cons t ts =>
      obtain ⟨p, rest, others, hp, hothers, rfl⟩ := readPrototypes_cons_eq_ok h
      obtain ⟨last, vs, rfl, hplain, hlast, hread⟩ :=
        follows_kept.readPrototype hus hp fun _ => hvoid p List.mem_cons_self
      have hrest : (eatSemicolon vs).map Token.kind = keptKinds .outside (eatSemicolon last) := by
        cases last with
        | nil =>
          obtain rfl := follows_kept.nil vs hlast
          rfl
        | cons x xs =>
          rw [keptKinds_plain (hplain x rfl)] at hlast
          obtain ⟨v, ws, rfl, hv, hws⟩ := List.map_eq_cons_iff.1 hlast
          rw [eatSemicolon, eatSemicolon, hv]
          split
          · exact hws
          · rw [List.map_cons, keptKinds_plain (hplain x rfl), hv, hws]
      have hshort := readPrototype_length hp
      have hmore := ih _ (hlength ▸ hshort) hothers hrest
        (fun q hq => hvoid q (List.mem_cons_of_mem p hq)) rfl
      cases us with
      | nil => exact absurd (readPrototype_length hread) (Nat.not_lt_zero _)
      | cons u us =>
        rw [readPrototypes_cons, hread]
        simp only [bind, Except.bind, hmore]
        rfl

end Prototype

theorem isGap_blankOut (cs : List Char) : IsGap (blankOut cs) :=
  isGap_blanks fun _ hc => (List.eq_of_mem_replicate hc) ▸ rfl

theorem byteLength_blankOut (cs : List Char) : byteLength (blankOut cs) = byteLength cs := by
  rw [byteLength, blankOut, List.map_replicate, List.sum_replicate_nat]
  exact Nat.mul_one _

theorem byteLength_pos {cs : List Char} (h : cs ≠ []) : 0 < byteLength cs := by
  obtain ⟨c, cs, rfl⟩ := List.exists_cons_of_ne_nil h
  have hc := Char.utf8Size_pos c
  rw [byteLength, List.map_cons, List.sum_cons]
  omega

namespace ErasurePlace

theorem step_plain {t : Token} (h : t.isKeyword = false) :
    step .outside t = (t.gap ++ t.kind.text, .outside) := by
  rw [step, Token.keyword_eq_none h]

theorem step_keyword {t : Token} (h : t.isKeyword = true) :
    (step .outside t).1 = t.gap ++ blankOut t.kind.text := by
  obtain ⟨kind, hkind⟩ := Option.isSome_iff_exists.1 h
  rw [step, hkind]

theorem byteLength_step (place : ErasurePlace) (t : Token) :
    byteLength (place.step t).1 = byteLength (t.gap ++ t.kind.text) := by
  cases place with
  | outside =>
    cases hkeyword : t.isKeyword with
    | true => rw [step_keyword hkeyword, byteLength_append, byteLength_append, byteLength_blankOut]
    | false => rw [step_plain hkeyword]
  | beforePayload => exact byteLength_blankOut _
  | inPayload depth => exact byteLength_blankOut _

theorem isGap_step {place : ErasurePlace} {t : Token} (hgap : IsGap t.gap)
    (h : place = .outside → t.isKeyword = true) : IsGap (place.step t).1 := by
  cases place with
  | outside =>
    rw [step_keyword (h rfl)]
    exact hgap.append (isGap_blankOut _)
  | beforePayload => exact isGap_blankOut _
  | inPayload depth => exact isGap_blankOut _

theorem kept_eq_nil {place : ErasurePlace} {t : Token} (h : place = .outside → t.isKeyword = true) :
    place.kept t = [] := by
  cases place with
  | outside => exact if_pos (h rfl)
  | beforePayload => rfl
  | inPayload depth => rfl

end ErasurePlace

theorem byteLength_erasedChars (place : ErasurePlace) (ts : List Token) :
    byteLength (erasedChars place ts) = byteLength (tokenChars ts) := by
  induction ts generalizing place with
  | nil => rfl
  | cons t ts ih =>
    rw [erasedChars, byteLength_append, ih, place.byteLength_step, ← byteLength_append]
    rfl

theorem chars_of_tokensFrom_cons {offset : Nat} {cs : List Char} {t : Token} {ts : List Token}
    (h : tokensFrom offset cs = .ok (t :: ts)) : ∃ after next, cs = t.gap ++ (t.kind.text ++ after) ∧
      tokensFrom next after = .ok ts ∧ IsGap t.gap ∧ t.kind.isSound = true ∧
      ∀ c ∈ after.head?, t.kind.clashes c = false := by
  obtain ⟨c, rest, after, hcut, htoken, hmore⟩ := tokensFrom_cons h
  obtain ⟨hsound, hclash⟩ := tokenAt_sound htoken (opensGap_of_gapAt hcut)
  exact ⟨after, _, by rw [tokenAt_append htoken, gapAt_append hcut], hmore, isGap_of_gapAt hcut, hsound,
    hclash⟩

theorem drop_tokensLength_cons (t : Token) (ts : List Token) (after : List Char) :
    (t.gap ++ (t.kind.text ++ after)).drop (tokensLength (t :: ts)) = after.drop (tokensLength ts) := by
  have hlength : tokensLength (t :: ts) = (t.gap ++ t.kind.text).length + tokensLength ts := by
    rw [tokensLength, List.map_cons, List.sum_cons, List.length_append]
    rfl
  rw [hlength, ← List.append_assoc, ← List.drop_drop, List.drop_left]

theorem tokenChars_append_drop {ts : List Token} {offset : Nat} {cs : List Char}
    (h : tokensFrom offset cs = .ok ts) : tokenChars ts ++ cs.drop (tokensLength ts) = cs := by
  induction ts generalizing offset cs with
  | nil => rfl
  | cons t ts ih =>
    obtain ⟨after, next, rfl, hmore, -⟩ := chars_of_tokensFrom_cons h
    rw [drop_tokensLength_cons, tokenChars, List.flatMap_cons, List.append_assoc, List.append_assoc]
    exact congrArg (fun rest => t.gap ++ (t.kind.text ++ rest)) (ih hmore)

theorem head_erasedChars {ts : List Token} {offset : Nat} {cs : List Char}
    (h : tokensFrom offset cs = .ok ts) :
    ∀ c ∈ (erasedChars .outside ts ++ cs.drop (tokensLength ts)).head?, c = ' ' ∨ c ∈ cs.head? := by
  intro c hc
  cases ts with
  | nil => exact .inr hc
  | cons t ts =>
    obtain ⟨after, next, rfl, -, -, hsound, -⟩ := chars_of_tokensFrom_cons h
    rw [erasedChars, List.append_assoc] at hc
    have hpiece : ∃ piece, (ErasurePlace.step .outside t).1 = t.gap ++ piece ∧
        ∀ rest, ∀ d ∈ (piece ++ rest).head?, d = ' ' ∨ d ∈ (t.kind.text ++ after).head? := by
      have htext := text_ne_nil hsound
      cases hkeyword : t.isKeyword with
      | true =>
        refine ⟨_, ErasurePlace.step_keyword hkeyword, fun rest d hd => .inl ?_⟩
        obtain ⟨n, hn⟩ := Nat.exists_eq_succ_of_ne_zero (byteLength_pos htext).ne'
        rw [blankOut, hn] at hd
        exact (Option.some.inj hd).symm
      | false =>
        refine ⟨_, congrArg Prod.fst (ErasurePlace.step_plain hkeyword), fun rest d hd => .inr ?_⟩
        rwa [List.head?_append_of_ne_nil _ htext] at hd ⊢
    obtain ⟨piece, hstep, hhead⟩ := hpiece
    rw [hstep, List.append_assoc] at hc
    cases hgap : t.gap with
    | nil =>
      rw [hgap] at hc
      exact hhead _ c hc
    | cons d gap =>
      rw [hgap] at hc
      exact .inr hc

theorem tokensFrom_noTokens {offset : Nat} {cs : List Char} (h : tokensFrom offset cs = .ok [])
    (other : Nat) : tokensFrom other cs = .ok [] := by
  rw [← Nat.zero_add offset, tokensFrom_move] at h
  rw [← Nat.zero_add other, tokensFrom_move]
  cases hzero : tokensFrom 0 cs with
  | error e => rw [hzero] at h; cases h
  | ok ts =>
    rw [hzero] at h
    obtain rfl := List.map_eq_nil_iff.1 (Except.ok.inj h)
    rfl

theorem tokensFrom_erased {ts : List Token} {offset : Nat} {cs : List Char}
    (h : tokensFrom offset cs = .ok ts) (place : ErasurePlace) {gap : List Char} (hgap : IsGap gap)
    (other : Nat) :
    ∃ us, tokensFrom other (gap ++ (erasedChars place ts ++ cs.drop (tokensLength ts))) = .ok us ∧
      us.map Token.kind = keptKinds place ts := by
  induction ts generalizing offset cs place gap other with
  | nil =>
    refine ⟨[], ?_, rfl⟩
    change tokensFrom other (gap ++ cs) = _
    rw [tokensFrom_gap hgap, tokensFrom_noTokens h]
    rfl
  | cons t ts ih =>
    obtain ⟨after, next, rfl, hmore, htgap, hsound, hclash⟩ := chars_of_tokensFrom_cons h
    rw [drop_tokensLength_cons, erasedChars, keptKinds, List.append_assoc]
    by_cases hkept : place = .outside ∧ t.isKeyword = false
    · obtain ⟨rfl, hplain⟩ := hkept
      rw [ErasurePlace.step_plain hplain, ErasurePlace.kept, if_neg (Bool.eq_false_iff.1 hplain)]
      have hclash' : ∀ c ∈ (erasedChars .outside ts ++ after.drop (tokensLength ts)).head?,
          t.kind.clashes c = false := by
        intro c hc
        rcases head_erasedChars hmore c hc with hspace | hsame
        · exact clashes_blank t.kind (hspace ▸ rfl)
        · exact hclash c hsame
      obtain ⟨us, hus, hkinds⟩ := ih hmore .outside isGap_nil
        (other + byteLength (gap ++ t.gap) + byteLength t.kind.text)
      have htoken := tokensFrom_token (hgap.append htgap) hsound hclash' other
      rw [List.nil_append] at hus
      rw [hus, List.append_assoc] at htoken
      rw [List.append_assoc]
      exact ⟨_, htoken, congrArg (t.kind :: ·) hkinds⟩
    · have hgone : place = .outside → t.isKeyword = true := by
        intro hplace
        rw [← Bool.not_eq_false]
        exact fun hplain => hkept ⟨hplace, hplain⟩
      obtain ⟨us, hus, hkinds⟩ :=
        ih hmore (place.step t).2 (hgap.append (ErasurePlace.isGap_step htgap hgone)) other
      rw [List.append_assoc] at hus
      rw [ErasurePlace.kept_eq_nil hgone]
      exact ⟨us, hus, hkinds⟩

theorem tokenize_eraseAnnotations {source : String} {ts : List Token} (h : tokenize source = .ok ts) :
    ∃ us, tokenize (eraseAnnotations source) = .ok us ∧ us.map Token.kind = keptKinds .outside ts := by
  have herased := tokensFrom_erased h .outside isGap_nil 0
  rw [eraseAnnotations, h, tokenize, String.toList_ofList]
  exact herased

theorem utf8ByteSize_eraseAnnotations (source : String) :
    (eraseAnnotations source).utf8ByteSize = source.utf8ByteSize := by
  unfold eraseAnnotations
  split
  · rename_i ts hts
    rw [← byteLength_toList, ← byteLength_toList, String.toList_ofList, byteLength_append,
      byteLength_erasedChars, ← byteLength_append, tokenChars_append_drop hts]
  · rfl

namespace Prototype

theorem ofPrototype_keep (p : Prototype) (kept : Bool) :
    Signature.ofPrototype (p.keep kept) = Signature.ofPrototype p := by
  rw [Signature.ofPrototype, Signature.ofPrototype, keep, List.flatMap_map]
  rfl

/-- What annotations say does not change what a text declares. -/
theorem parseAll_eraseAnnotations {source : String} {ps : List Prototype} (h : parseAll source = .ok ps)
    (hvoid : ∀ p ∈ ps, ¬ IsAnnotatedVoid p.parameters) :
    ∃ qs, parseAll (eraseAnnotations source) = .ok qs ∧
      qs = ps.map (fun p =>
        { p with
          parameters := p.parameters.map fun q => { q with annotations := ∅ }
          annotations := ∅ }) ∧
      qs.map Signature.ofPrototype = ps.map Signature.ofPrototype ∧
      (eraseAnnotations source).utf8ByteSize = source.utf8ByteSize := by
  obtain ⟨ts, hts, hps⟩ := bind_eq_ok.1 h
  obtain ⟨us, hus, hkinds⟩ := tokenize_eraseAnnotations hts
  refine ⟨ps.map (·.keep false), bind_eq_ok.2 ⟨us, hus, readPrototypes_kept hps hkinds hvoid⟩, rfl, ?_,
    utf8ByteSize_eraseAnnotations source⟩
  rw [List.map_map]
  exact List.map_congr_left fun p _ => ofPrototype_keep p false

def sampleAnnotated : String :=
  "since(1.0) void WAIT(cs_type /* a type */ (Any(1)) int ms) cs_omit;"

theorem parseAll_eraseAnnotations_sample :
    ∃ ps, parseAll sampleAnnotated = .ok ps ∧ (∀ p ∈ ps, ¬ IsAnnotatedVoid p.parameters) ∧
      ps.map (·.annotations) = [⟨[.since "1.0", .omitted]⟩] ∧
      ∃ qs, parseAll (eraseAnnotations sampleAnnotated) = .ok qs ∧
        qs = [⟨"WAIT", .named "void", [⟨"ms", .named "int", ∅⟩], ∅⟩] ∧
        qs.map Signature.ofPrototype = ps.map Signature.ofPrototype := by
  have hparsed : parseAll sampleAnnotated = .ok [⟨"WAIT", .named "void",
      [⟨"ms", .named "int", ⟨[.displayType "Any(1)"]⟩⟩], ⟨[.since "1.0", .omitted]⟩⟩] := by
    decide +kernel
  have hvoid : ∀ p ∈ [(⟨"WAIT", .named "void", [⟨"ms", .named "int", ⟨[.displayType "Any(1)"]⟩⟩],
      ⟨[.since "1.0", .omitted]⟩⟩ : Prototype)], ¬ IsAnnotatedVoid p.parameters := by
    intro p hp
    rw [List.mem_singleton.1 hp]
    rintro ⟨notes, -, he⟩
    have hname : "ms" = "" := congrArg Parameter.name (List.cons.inj he).1
    exact absurd hname (by decide)
  obtain ⟨qs, hqs, hsame, hsignatures, -⟩ := parseAll_eraseAnnotations hparsed hvoid
  exact ⟨_, hparsed, hvoid, rfl, qs, hqs, hsame, hsignatures⟩

end Prototype

end NativeCatalogue
