import NativeCatalogue.Proofs.Prototype.Reading

set_option autoImplicit false

namespace NativeCatalogue

def payloadLexemes (payload : String) : List Lexeme :=
  match tokenize payload with
  | .ok tokens => tokens.flatMap Token.lexemes
  | .error _ => []

def Annotation.lexemes (a : Annotation) : List Lexeme :=
  .token (.ident a.kind.keyword) ::
    match a.payload? with
    | some payload => .token .openParen :: payloadLexemes payload ++ [.token .closeParen]
    | none => []

def annotationLexemes (items : List Annotation) : List Lexeme :=
  items.flatMap fun a => a.lexemes ++ [.blank ' ']

theorem payload_of_isTokenSequence {payload : String} (h : isTokenSequence payload = true) :
    ∃ tokens, tokenize payload = .ok tokens ∧ tokenChars tokens = payload.toList ∧
      (∀ t ∈ tokens, t.gap.all Text.isBlank = true) ∧ parenthesesPair 0 tokens = true := by
  unfold isTokenSequence at h
  split at h
  · rename_i tokens htokens
    rw [Bool.and_eq_true, Bool.and_eq_true, decide_eq_true_eq] at h
    exact ⟨tokens, htokens, h.1.1, List.all_eq_true.1 h.1.2, h.2⟩
  · cases h

namespace Prototype

theorem SpellsFrom.lexemes {gap : List Char} {t : Token} {ts : List Token} {ls : List Lexeme}
    (h : SpellsFrom gap ts (t.lexemes ++ ls)) :
    ∃ start rest, ts = ⟨gap ++ t.gap, t.kind, start⟩ :: rest ∧ SpellsFrom [] rest ls := by
  rw [Token.lexemes, List.append_assoc] at h
  exact h.blanks.token

theorem readPayloadText_spells (depth : Nat) {tokens : List Token} {gap : List Char}
    {ts : List Token} {ls : List Lexeme} (hpair : parenthesesPair depth tokens = true)
    (h : SpellsFrom gap ts (tokens.flatMap Token.lexemes ++ .token .closeParen :: ls)) :
    ∃ rest, readPayloadText depth ts = .ok (gap ++ tokenChars tokens, rest) ∧ Spells rest ls := by
  induction tokens generalizing depth gap ts with
  | nil =>
    obtain ⟨start, rest, rfl, hrest⟩ := h.token
    have hdepth : depth = 0 := of_decide_eq_true hpair
    subst hdepth
    refine ⟨rest, ?_, [], hrest⟩
    rw [tokenChars, List.flatMap_nil, List.append_nil]
    rfl
  | cons t tokens ih =>
    obtain ⟨before, kind, offset⟩ := t
    rw [List.flatMap_cons, List.append_assoc] at h
    obtain ⟨start, rest, rfl, hrest⟩ := SpellsFrom.lexemes h
    have chars : gap ++ tokenChars (⟨before, kind, offset⟩ :: tokens) =
        (gap ++ before) ++ kind.text ++ ([] ++ tokenChars tokens) := by
      simp [tokenChars]
    rw [chars]
    -- Only the parentheses change the depth.
    cases kind with
    | openParen =>
      obtain ⟨after, hread, hafter⟩ := ih (depth + 1) hpair hrest
      exact ⟨after, by simp only [readPayloadText, hread]; rfl, hafter⟩
    | closeParen =>
      cases depth with
      | zero => cases hpair
      | succ depth =>
        obtain ⟨after, hread, hafter⟩ := ih depth hpair hrest
        exact ⟨after, by simp only [readPayloadText, hread]; rfl, hafter⟩
    | _ =>
      obtain ⟨after, hread, hafter⟩ := ih depth hpair hrest
      exact ⟨after, by simp only [readPayloadText, hread]; rfl, hafter⟩

theorem readPayloadText_append (depth : Nat) {inside : List Token} {closing : Token}
    (hpair : parenthesesPair depth inside = true) (hclosing : closing.kind = .closeParen)
    (rest : List Token) :
    readPayloadText depth (inside ++ closing :: rest) = .ok (tokenChars inside ++ closing.gap, rest) := by
  induction inside generalizing depth with
  | nil =>
    obtain rfl : depth = 0 := of_decide_eq_true hpair
    obtain ⟨gap, kind, start⟩ := closing
    cases hclosing
    rfl
  | cons t inside ih =>
    obtain ⟨gap, kind, start⟩ := t
    rw [tokenChars, List.flatMap_cons, List.append_assoc]
    cases kind with
    | openParen => exact bind_eq_ok.2 ⟨_, ih (depth + 1) hpair, rfl⟩
    | closeParen =>
      cases depth with
      | zero => cases hpair
      | succ depth => exact bind_eq_ok.2 ⟨_, ih depth hpair, rfl⟩
    | _ => exact bind_eq_ok.2 ⟨_, ih depth hpair, rfl⟩

/-- A payload is what stands before the parenthesis that closes it, gap and all. -/
theorem readPayloadText_eq_ok {depth : Nat} {ts rest : List Token} {text : List Char} :
    readPayloadText depth ts = .ok (text, rest) ↔ ∃ inside closing, ts = inside ++ closing :: rest ∧
      parenthesesPair depth inside = true ∧ closing.kind = .closeParen ∧
      text = tokenChars inside ++ closing.gap := by
  constructor
  · intro h
    induction ts generalizing depth text with
    | nil => cases h
    | cons t ts ih =>
      -- A token that does not close the payload stands before the inside that is left.
      have more : ∀ d, (∀ inside, parenthesesPair depth (t :: inside) = parenthesesPair d inside) →
          (readPayloadText d ts >>= fun cut => pure (t.gap ++ t.kind.text ++ cut.1, cut.2)) =
            .ok (text, rest) →
          ∃ inside closing, t :: ts = inside ++ closing :: rest ∧ parenthesesPair depth inside = true ∧
            closing.kind = .closeParen ∧ text = tokenChars inside ++ closing.gap := by
        intro d hd hread
        obtain ⟨⟨inner, after⟩, hinner, hread⟩ := bind_eq_ok.1 hread
        cases hread
        obtain ⟨inside, closing, rfl, hpair, hclosing, rfl⟩ := ih hinner
        refine ⟨t :: inside, closing, rfl, (hd inside).trans hpair, hclosing, ?_⟩
        exact (List.append_assoc _ _ _).symm
      obtain ⟨gap, kind, start⟩ := t
      cases kind with
      | openParen => exact more (depth + 1) (fun _ => rfl) h
      | closeParen =>
        cases depth with
        | zero =>
          cases h
          exact ⟨[], ⟨_, .closeParen, start⟩, rfl, rfl, rfl, rfl⟩
        | succ depth => exact more depth (fun _ => rfl) h
      | _ => exact more depth (fun _ => rfl) h
  · rintro ⟨inside, closing, rfl, hpair, hclosing, rfl⟩
    exact readPayloadText_append depth hpair hclosing rest

structure IsPayload (keyword opening : Token) (inside : List Token) (closing : Token) : Prop where
  keyword : ∃ kind, keyword.ident?.bind AnnotationKind.ofKeyword? = some kind ∧ kind.takesPayload = true
  opening : opening.kind = .openParen
  inside : parenthesesPair 0 inside = true
  closing : closing.kind = .closeParen

theorem readPayload_eq_ok {keyword : Token} {kind : AnnotationKind} {ts rest : List Token}
    {text : Option String} (hkind : keyword.ident?.bind AnnotationKind.ofKeyword? = some kind)
    (htakes : kind.takesPayload = true) : readPayload kind ts = .ok (text, rest) ↔
      ∃ opening inside closing, ts = opening :: (inside ++ closing :: rest) ∧
        IsPayload keyword opening inside closing ∧
        text = some (.ofList (tokenChars inside ++ closing.gap)) := by
  rw [readPayload, if_pos htakes]
  constructor
  · intro h
    obtain ⟨⟨⟨⟩, ts'⟩, hopen, h⟩ := bind_eq_ok.1 h
    obtain ⟨⟨raw, after⟩, hraw, h⟩ := bind_eq_ok.1 h
    cases h
    obtain ⟨opening, rfl, hopening⟩ := expect_eq_ok.1 hopen
    obtain ⟨inside, closing, rfl, hpair, hclosing, rfl⟩ := readPayloadText_eq_ok.1 hraw
    exact ⟨opening, inside, closing, rfl, ⟨⟨kind, hkind, htakes⟩, hopening, hpair, hclosing⟩, rfl⟩
  · rintro ⟨opening, inside, closing, rfl, h, rfl⟩
    exact bind_eq_ok.2 ⟨((), inside ++ closing :: rest), expect_eq_ok.2 ⟨opening, rfl, h.opening⟩,
      bind_eq_ok.2 ⟨_, readPayloadText_append 0 h.inside h.closing rest, rfl⟩⟩

theorem readPayload_of_not_takesPayload {kind : AnnotationKind} (h : kind.takesPayload = false)
    (ts : List Token) : readPayload kind ts = .ok (none, ts) := by
  rw [readPayload, if_neg (Bool.eq_false_iff.1 h)]

theorem takesPayload_kind (a : Annotation) : a.kind.takesPayload = a.payload?.isSome := by
  cases a <;> rfl

theorem ofKeyword?_keyword (kind : AnnotationKind) :
    AnnotationKind.ofKeyword? kind.keyword = some kind := by
  cases kind <;> rfl

theorem make_kind {a : Annotation} (h : a.hasKeptPayload = true) :
    Annotation.make a.kind a.payload? = .ok a := by
  have kept : ∀ p : String, (p ≠ "" && Annotation.normalizePayload p = p) = true →
      ((some p).map Annotation.normalizePayload).filter (· ≠ "") = some p := by
    intro p hp
    rw [Bool.and_eq_true, decide_eq_true_eq, decide_eq_true_eq] at hp
    rw [Option.map_some, hp.2, Option.filter_some, if_pos (decide_eq_true hp.1)]
  cases a with
  | since p => simp only [kept p h, Annotation.make, Annotation.payload?, Annotation.kind]
  | «until» p => simp only [kept p h, Annotation.make, Annotation.payload?, Annotation.kind]
  | displayType p => simp only [kept p h, Annotation.make, Annotation.payload?, Annotation.kind]
  | split => rfl
  | omitted => rfl

theorem readPayload_spells {a : Annotation} (h : a.hasReadablePayload = true) {ts : List Token}
    {ls : List Lexeme} (hs : Spells ts (a.lexemes ++ ls)) : ∃ t tail rest, ts = t :: tail ∧
      t.kind = .ident a.kind.keyword ∧ readPayload a.kind tail = .ok (a.payload?, rest) ∧
      Spells rest ls := by
  obtain ⟨t, tail, rfl, hkind, htail⟩ := Spells.token hs
  cases hpayload : a.payload? with
  | none =>
    refine ⟨t, tail, tail, rfl, hkind, ?_, ?_⟩
    · rw [readPayload, takesPayload_kind, hpayload]; rfl
    · rw [hpayload] at htail
      exact htail
  | some payload =>
    unfold Annotation.hasReadablePayload at h
    rw [Bool.and_eq_true, hpayload] at h
    have hsequence : isTokenSequence payload = true := h.2
    obtain ⟨tokens, htokens, hchars, -, hpair⟩ := payload_of_isTokenSequence hsequence
    have hopen : Spells tail (.token .openParen ::
        (tokens.flatMap Token.lexemes ++ .token .closeParen :: ls)) := by
      simpa [hpayload, payloadLexemes, htokens] using htail
    obtain ⟨gap, hopen⟩ := hopen
    obtain ⟨start, inside, rfl, hinside⟩ := hopen.token
    obtain ⟨rest, hread, hrest⟩ := readPayloadText_spells 0 hpair hinside
    refine ⟨t, _, rest, rfl, hkind, ?_, hrest⟩
    rw [readPayload, takesPayload_kind, hpayload]
    simp only [Option.isSome_some, if_true, expect, bind, Except.bind, hread]
    rw [List.nil_append, hchars, String.ofList_toList]
    rfl

theorem readAnnotationsInto_keyword {t : Token} {kind : AnnotationKind}
    (h : t.ident?.bind AnnotationKind.ofKeyword? = some kind) (set : AnnotationSet) (ts : List Token) :
    readAnnotationsInto set (t :: ts) = readPayload kind ts >>= fun (text, after) =>
      match Annotation.make kind text with
      | .error cause => .error (.badPayload cause t.start)
      | .ok a => readAnnotationsInto (set.insert a) after := by
  rw [readAnnotationsInto]
  split
  · rename_i he; rw [h] at he; cases he
  · rename_i kind' he
    rw [h] at he
    cases he
    split
    · rename_i he; rw [he]; rfl
    · rename_i he; rw [he]; rfl

theorem readAnnotationsInto_other {t : Token}
    (h : t.ident?.bind AnnotationKind.ofKeyword? = none) (set : AnnotationSet) (ts : List Token) :
    readAnnotationsInto set (t :: ts) = .ok (set, t :: ts) := by
  rw [readAnnotationsInto]
  split
  · rfl
  · rename_i he; rw [h] at he; cases he

theorem readAnnotationsInto_cons {set : AnnotationSet} {t : Token} {tail rest : List Token}
    {a : Annotation} (hkind : t.kind = .ident a.kind.keyword)
    (hread : readPayload a.kind tail = .ok (a.payload?, rest)) (hkept : a.hasKeptPayload = true) :
    readAnnotationsInto set (t :: tail) = readAnnotationsInto (set.insert a) rest := by
  have hkeyword : t.ident?.bind AnnotationKind.ofKeyword? = some a.kind := by
    rw [Token.ident?_eq hkind, Option.bind_some, ofKeyword?_keyword]
  rw [readAnnotationsInto]
  split
  · rename_i he; rw [hkeyword] at he; cases he
  · rename_i kind he
    rw [hkeyword] at he
    cases he
    split
    · rename_i he; rw [hread] at he; cases he
    · rename_i he
      rw [hread] at he
      cases he
      rw [make_kind hkept]

theorem readAnnotationsInto_of_head {set : AnnotationSet} {ts : List Token} {ls : List Lexeme}
    (h : Spells ts ls) (hend : ∀ word, (kindsOf ls).head? = some (.ident word) →
      AnnotationKind.ofKeyword? word = none) : readAnnotationsInto set ts = .ok (set, ts) := by
  rw [← h.kinds] at hend
  cases ts with
  | nil => rw [readAnnotationsInto]
  | cons t rest =>
    rw [readAnnotationsInto]
    split
    · rfl
    · rename_i kind he
      obtain ⟨word, hword, hkeyword⟩ := Option.bind_eq_some_iff.1 he
      rw [hend word (by rw [List.map_cons, Token.ident?_eq_some_iff.1 hword]; rfl)] at hkeyword
      cases hkeyword

theorem readAnnotationsInto_spells (done : List Annotation) {items : List Annotation} {ts : List Token}
    {ls : List Lexeme} (hs : Spells ts (annotationLexemes items ++ ls))
    (hread : ∀ a ∈ items, a.hasReadablePayload = true) (hnodup : (done ++ items).Nodup)
    (hend : ∀ word, (kindsOf ls).head? = some (.ident word) →
      AnnotationKind.ofKeyword? word = none) :
    ∃ rest, readAnnotationsInto ⟨done⟩ ts = .ok (⟨done ++ items⟩, rest) ∧ Spells rest ls := by
  induction items generalizing done ts with
  | nil => exact ⟨ts, by rw [List.append_nil]; exact readAnnotationsInto_of_head hs hend, hs⟩
  | cons a items ih =>
    have hs : Spells ts (a.lexemes ++ .blank ' ' :: (annotationLexemes items ++ ls)) := by
      simpa [annotationLexemes] using hs
    have ha := hread a (by simp)
    obtain ⟨t, tail, rest, rfl, hkind, hpayload, hrest⟩ := readPayload_spells ha hs
    have hkept : a.hasKeptPayload = true := by
      unfold Annotation.hasReadablePayload at ha
      rw [Bool.and_eq_true] at ha
      exact ha.1
    have hnew : (AnnotationSet.mk done).contains a = false := by
      rw [AnnotationSet.contains, Bool.eq_false_iff, ne_eq, List.contains_iff_mem]
      intro hmem
      exact (List.nodup_append.1 hnodup).2.2 a hmem a (by simp) rfl
    have hnodup : (done ++ [a] ++ items).Nodup := by
      rw [List.append_assoc]
      exact hnodup
    obtain ⟨after, hmore, hafter⟩ :=
      ih (done ++ [a]) hrest.blank (fun b hb => hread b (List.mem_cons_of_mem a hb)) hnodup
    refine ⟨after, ?_, hafter⟩
    rw [readAnnotationsInto_cons hkind hpayload hkept, AnnotationSet.insert, if_neg (by simp [hnew]),
      hmore, List.append_assoc]
    rfl

theorem readAnnotations_spells {s : AnnotationSet} (h : s.isNormal = true) {ts : List Token}
    {ls : List Lexeme} (hs : Spells ts (annotationLexemes s.items ++ ls))
    (hend : ∀ word, (kindsOf ls).head? = some (.ident word) →
      AnnotationKind.ofKeyword? word = none) :
    ∃ rest, readAnnotations ts = .ok (s, rest) ∧ Spells rest ls := by
  rw [AnnotationSet.isNormal, Bool.and_eq_true, decide_eq_true_eq] at h
  exact readAnnotationsInto_spells [] hs (List.all_eq_true.1 h.1) h.2 hend

end Prototype

end NativeCatalogue
