import NativeCatalogue.Proofs.Prototype.Following
import NativeCatalogue.Proofs.Prototype.Moving

set_option autoImplicit false

namespace NativeCatalogue

namespace Prototype

def Finished (ts : List Token) : Prop :=
  ∃ t ∈ ts.getLast?, t.kind = .semicolon

theorem finished_cons {t : Token} {ts : List Token} (hts : ts ≠ []) :
    Finished (t :: ts) ↔ Finished ts := by
  obtain ⟨u, us, rfl⟩ := List.exists_cons_of_ne_nil hts
  rw [Finished, Finished, List.getLast?_cons_cons]

theorem Finished.tail {t : Token} {ts : List Token} (h : Finished (t :: ts))
    (ht : t.kind ≠ .semicolon) : Finished ts := by
  cases ts with
  | nil =>
    obtain ⟨u, hu, hkind⟩ := h
    cases hu
    exact absurd hkind ht
  | cons u us => exact (finished_cons (List.cons_ne_nil u us)).1 h

section More

variable (more : List Token)

theorem readPayloadText_more {depth : Nat} {ts rest : List Token} {text : List Char}
    (h : readPayloadText depth ts = .ok (text, rest)) (hts : Finished ts) :
    readPayloadText depth (ts ++ more) = .ok (text, rest ++ more) ∧ Finished rest := by
  induction ts generalizing depth text with
  | nil => cases h
  | cons t ts ih =>
    obtain ⟨gap, kind, start⟩ := t
    -- A payload does not end with the last token.
    have hrest : ∀ {d : Nat} {inner : List Char}, readPayloadText d ts = .ok (inner, rest) →
        Finished ts := by
      intro d inner hinner
      refine (finished_cons ?_).1 hts
      rintro rfl
      cases hinner
    cases kind with
    | closeParen =>
      cases depth with
      | zero =>
        cases h
        exact ⟨rfl, hts.tail (by simp)⟩
      | succ depth =>
        obtain ⟨⟨inner, after⟩, hinner, h⟩ := bind_eq_ok.1 h
        cases h
        obtain ⟨hread, hafter⟩ := ih hinner (hrest hinner)
        exact ⟨bind_eq_ok.2 ⟨_, hread, rfl⟩, hafter⟩
    | _ =>
      obtain ⟨⟨inner, after⟩, hinner, h⟩ := bind_eq_ok.1 h
      cases h
      obtain ⟨hread, hafter⟩ := ih hinner (hrest hinner)
      exact ⟨bind_eq_ok.2 ⟨_, hread, rfl⟩, hafter⟩

theorem readPayload_more {kind : AnnotationKind} {ts rest : List Token} {text : Option String}
    (h : readPayload kind ts = .ok (text, rest)) (hts : Finished ts) :
    readPayload kind (ts ++ more) = .ok (text, rest ++ more) ∧ Finished rest := by
  unfold readPayload at h ⊢
  split at h
  · rename_i htakes
    obtain ⟨⟨⟨⟩, inside⟩, hopen, h⟩ := bind_eq_ok.1 h
    obtain ⟨⟨raw, after⟩, hraw, h⟩ := bind_eq_ok.1 h
    cases h
    obtain ⟨t, rfl, hkind⟩ := expect_eq_ok.1 hopen
    obtain ⟨hread, hrest⟩ := readPayloadText_more more hraw (hts.tail (by simp [hkind]))
    refine ⟨?_, hrest⟩
    rw [if_pos htakes]
    exact bind_eq_ok.2 ⟨((), inside ++ more), expect_eq_ok.2 ⟨t, rfl, hkind⟩,
      bind_eq_ok.2 ⟨_, hread, rfl⟩⟩
  · rename_i htakes
    cases h
    rw [if_neg htakes]
    exact ⟨rfl, hts⟩

theorem readAnnotationsInto_more {s out : AnnotationSet} {ts rest : List Token}
    (h : readAnnotationsInto s ts = .ok (out, rest)) (hts : Finished ts) :
    readAnnotationsInto s (ts ++ more) = .ok (out, rest ++ more) ∧ Finished rest := by
  fun_induction readAnnotationsInto s ts with
  | case1 =>
    obtain ⟨u, hu, -⟩ := hts
    cases hu
  | case2 s t ts hkeyword =>
    cases h
    exact ⟨readAnnotationsInto_other hkeyword _ (ts ++ more), hts⟩
  | case3 => cases h
  | case4 => cases h
  | case5 s t ts kind hkeyword text after hpayload a hmake ih =>
    have hkind : t.kind ≠ .semicolon := by
      intro hkind
      rw [Token.ident?, hkind] at hkeyword
      cases hkeyword
    obtain ⟨hread, hafter⟩ := readPayload_more more hpayload (hts.tail hkind)
    obtain ⟨hannotations, hrest⟩ := ih h hafter
    refine ⟨?_, hrest⟩
    rw [List.cons_append, readAnnotationsInto_keyword hkeyword, hread]
    simp only [bind, Except.bind, hmake]
    exact hannotations

theorem follows_more : Follows true fun ts us => Finished ts ∧ us = ts ++ more where
  nil := by
    rintro us ⟨⟨t, ht, -⟩, -⟩
    cases ht
  cons := by
    rintro t ts us ⟨hts, rfl⟩ -
    exact ⟨t, ts ++ more, rfl, rfl, fun ht => ⟨hts.tail ht, rfl⟩⟩
  annotations := by
    rintro ts us s rest ⟨hts, rfl⟩ h
    obtain ⟨hread, hrest⟩ := readAnnotationsInto_more more h hts
    exact ⟨rest ++ more, hread, hrest, rfl⟩
  void := by
    rintro - ts us ⟨hts, rfl⟩ ⟨t, u, after, he, ht, hu⟩
    cases ts with
    | nil =>
      obtain ⟨v, hv, -⟩ := hts
      cases hv
    | cons t' ts =>
      have htail := (List.cons.inj he).2
      obtain rfl : t' = t := (List.cons.inj he).1
      cases ts with
      | nil =>
        obtain ⟨v, hv, -⟩ := hts.tail (by simp [ht])
        cases hv
      | cons u' ts =>
        obtain rfl : u' = u := (List.cons.inj htail).1
        exact ⟨t', u', ts, rfl, ht, hu⟩

theorem readPrototypes_more {ts : List Token} {ps : List Prototype}
    (h : readPrototypes ts = .ok ps) (hts : ts = [] ∨ Finished ts) :
    readPrototypes (ts ++ more) = (readPrototypes more).map (ps ++ ·) := by
  induction hlength : ts.length using Nat.strongRecOn generalizing ts ps with
  | _ length ih =>
    cases ts with
    | nil =>
      rw [readPrototypes] at h
      cases h
      rw [List.nil_append]
      cases readPrototypes more <;> rfl
    | cons t ts =>
      obtain ⟨p, rest, others, hp, hothers, rfl⟩ := readPrototypes_cons_eq_ok h
      obtain ⟨last, us, rfl, -, ⟨hlast, rfl⟩, hread⟩ := (follows_more more).readPrototype
        ⟨hts.resolve_left (List.cons_ne_nil t ts), rfl⟩ hp (by simp)
      have hrest : eatSemicolon (last ++ more) = eatSemicolon last ++ more ∧
          (eatSemicolon last = [] ∨ Finished (eatSemicolon last)) := by
        cases last with
        | nil =>
          obtain ⟨u, hu, -⟩ := hlast
          cases hu
        | cons u us =>
          rw [List.cons_append, eatSemicolon, eatSemicolon]
          split
          · refine ⟨rfl, ?_⟩
            by_cases hus : us = []
            · exact .inl hus
            · exact .inr ((finished_cons hus).1 hlast)
          · exact ⟨rfl, .inr hlast⟩
      have hshort := readPrototype_length hp
      rw [List.cons_append] at hread ⊢
      rw [readPrototypes_cons, hread, hrest.1, keep_true]
      have hmore := ih _ (hlength ▸ hshort) hothers hrest.2 rfl
      simp only [bind, Except.bind, hmore]
      cases readPrototypes more <;> rfl

end More

/-- What stands behind a finished text on further lines is read as on its own, only further on. -/
theorem parseAll_newline {s₁ : String} {ts : List Token} {ps : List Prototype}
    (h : parseAll s₁ = .ok ps) (htokens : tokenize s₁ = .ok ts)
    (hlast : ∀ t ∈ ts.getLast?, t.kind = .semicolon) (s₂ : String) :
    parseAll (s₁ ++ "\n" ++ s₂) =
      match parseAll s₂ with
      | .ok qs => .ok (ps ++ qs)
      | .error e => .error (e.shift (s₁.utf8ByteSize + 1)) := by
  have hread : readPrototypes ts = .ok ps := by
    rw [parseAll, htokens] at h
    exact h
  have hts : ts = [] ∨ Finished ts := by
    cases hend : ts.getLast? with
    | none => exact .inl (List.getLast?_eq_none_iff.1 hend)
    | some t => exact .inr ⟨t, hend, hlast t hend⟩
  have hchars : (s₁ ++ "\n" ++ s₂).toList = s₁.toList ++ '\n' :: s₂.toList := by
    rw [String.toList_append, String.toList_append, List.append_assoc]
    rfl
  obtain ⟨gap, hgap⟩ := tokensFrom_newline htokens s₂.toList
  rw [Nat.add_assoc, tokensFrom_move, byteLength_toList] at hgap
  rw [parseAll, parseAll, tokenize, tokenize, hchars, hgap]
  cases tokensFrom 0 s₂.toList with
  | error e => rfl
  | ok us =>
    change readPrototypes (ts ++ padHead gap (us.map (Token.move (s₁.utf8ByteSize + 1)))) =
      match readPrototypes us with
      | .ok qs => .ok (ps ++ qs)
      | .error e => .error (e.shift (s₁.utf8ByteSize + 1))
    rw [readPrototypes_more _ hread hts, readPrototypes_padHead, readPrototypes_move]
    cases readPrototypes us <;> rfl

def sampleStart : String :=
  "void WAIT(int ms); // waits"

theorem parseAll_newline_sample :
    ∃ ts ps, parseAll sampleStart = .ok ps ∧ tokenize sampleStart = .ok ts ∧
      (∀ t ∈ ts.getLast?, t.kind = .semicolon) ∧
      parseAll (sampleStart ++ "\n" ++ "int NOW();") = .ok (ps ++ [⟨"NOW", .named "int", [], ∅⟩]) ∧
      parseAll (sampleStart ++ "\n" ++ "int (") = .error (.unexpectedToken .functionName "(" 32) := by
  have hstart : parseAll sampleStart =
      .ok [⟨"WAIT", .named "void", [⟨"ms", .named "int", ∅⟩], ∅⟩] := by
    decide +kernel
  have hnext : parseAll "int NOW();" = .ok [⟨"NOW", .named "int", [], ∅⟩] := by decide +kernel
  have hwrong : parseAll "int (" = .error (.unexpectedToken .functionName "(" 4) := by decide +kernel
  have hlast : (tokenize sampleStart).toOption.map
      (fun ts => decide (∀ t ∈ ts.getLast?, t.kind = .semicolon)) = some true := by
    decide +kernel
  cases hts : tokenize sampleStart with
  | error e => rw [hts] at hlast; cases hlast
  | ok ts =>
    rw [hts] at hlast
    have hlast := of_decide_eq_true (Option.some.inj hlast)
    have hgood := parseAll_newline hstart hts hlast "int NOW();"
    have hbad := parseAll_newline hstart hts hlast "int ("
    rw [hnext] at hgood
    rw [hwrong] at hbad
    exact ⟨ts, _, hstart, rfl, hlast, hgood, hbad⟩

end Prototype

end NativeCatalogue
