import NativeCatalogue.Proofs.Prototype.Lexemes

set_option autoImplicit false

namespace NativeCatalogue

theorem tokensFrom_eq {offset : Nat} {cs gap rest after : List Char} {c : Char} {kind : TokenKind}
    (hgap : gapAt offset cs = .ok (gap, c :: rest)) (htoken : tokenAt c rest = some (kind, after)) :
    tokensFrom offset cs =
      (tokensFrom (offset + byteLength gap + byteLength kind.text) after).map
        (⟨gap, kind, offset + byteLength gap⟩ :: ·) := by
  rw [tokensFrom]
  split
  · rename_i he; rw [hgap] at he; cases he
  · rename_i he; rw [hgap] at he; cases he
  · rename_i he
    rw [hgap] at he
    cases he
    dsimp only
    split
    · rename_i ht; rw [htoken] at ht; cases ht
    · rename_i ht
      rw [htoken] at ht
      cases ht
      cases tokensFrom (offset + byteLength gap + byteLength kind.text) after <;> rfl

theorem tokensFrom_of_gap {offset : Nat} {cs gap : List Char} (h : gapAt offset cs = .ok (gap, [])) :
    tokensFrom offset cs = .ok [] := by
  rw [tokensFrom]
  split
  · rename_i he; rw [h] at he; cases he
  · rfl
  · rename_i he; rw [h] at he; cases he

theorem tokensFrom_lexemeChars {ls : List Lexeme} (h : Separated ls) (offset : Nat)
    (gap : List Char) (hgap : ∀ c ∈ gap, Text.isBlank c = true) :
    tokensFrom offset (gap ++ lexemeChars ls) = .ok (tokensOf offset gap ls) := by
  induction ls generalizing offset gap with
  | nil => exact tokensFrom_of_gap (gapAt_blanks hgap rfl offset)
  | cons l ls ih =>
    cases l with
    | blank c =>
      have hc : Text.isBlank c = true := h.sound (.blank c) (by simp)
      have hgap : ∀ d ∈ gap ++ [c], Text.isBlank d = true := by
        intro d hd
        rcases List.mem_append.1 hd with hd | hd
        · exact hgap d hd
        · rw [List.mem_singleton.1 hd]; exact hc
      have hrest := ih h.tail offset (gap ++ [c]) hgap
      rw [List.append_assoc] at hrest
      exact hrest
    | token kind =>
      obtain ⟨c, after, hchars, htoken, hopen⟩ :=
        tokenAt_text (h.sound (.token kind) (by simp)) h.not_clashes
      have hrest := ih h.tail (offset + byteLength gap + byteLength kind.text) [] (by simp)
      rw [List.nil_append] at hrest
      have hstart : gapAt offset (gap ++ lexemeChars (.token kind :: ls)) = .ok (gap, c :: after) := by
        rw [lexemeChars_cons, Lexeme.chars, hchars]
        exact gapAt_blanks hgap hopen offset
      rw [tokensFrom_eq hstart htoken, hrest]
      rfl

theorem tokenize_lexemeChars {ls : List Lexeme} (h : Separated ls) :
    tokenize (.ofList (lexemeChars ls)) = .ok (tokensOf 0 [] ls) := by
  rw [tokenize, String.toList_ofList]
  exact tokensFrom_lexemeChars h 0 [] (by simp)

theorem tokensFrom_cons {offset : Nat} {cs : List Char} {t : Token} {ts : List Token}
    (h : tokensFrom offset cs = .ok (t :: ts)) : ∃ c rest after,
      gapAt offset cs = .ok (t.gap, c :: rest) ∧ tokenAt c rest = some (t.kind, after) ∧
      tokensFrom (offset + byteLength t.gap + byteLength t.kind.text) after = .ok ts := by
  rw [tokensFrom] at h
  split at h
  · cases h
  · cases h
  · rename_i gap c rest hgap
    dsimp only at h
    split at h
    · cases h
    · rename_i kind after htoken
      split at h
      · cases h
      · rename_i ts' hts
        cases h
        exact ⟨c, rest, after, hgap, htoken, hts⟩

theorem tokenAt_sound {c : Char} {rest after : List Char} {kind : TokenKind}
    (h : tokenAt c rest = some (kind, after)) (hopen : opensGap (c :: rest) = false) :
    kind.isSound = true ∧ ∀ d ∈ after.head?, kind.clashes d = false := by
  have hsign : c ≠ '#' := by
    intro he
    rw [he] at hopen
    cases hopen
  unfold tokenAt at h
  split_ifs at h with h1 h2 h3 h4 h5 h6 h7 h8
  · cases h; exact ⟨rfl, fun _ _ => rfl⟩
  · cases h; exact ⟨rfl, fun _ _ => rfl⟩
  · cases h; exact ⟨rfl, fun _ _ => rfl⟩
  · cases h; exact ⟨rfl, fun _ _ => rfl⟩
  · cases h; exact ⟨rfl, fun _ _ => rfl⟩
  · cases h
    refine ⟨?_, List.head?_dropWhile_eq_false⟩
    rw [TokenKind.isSound, isIdentifier, String.toList_ofList, Bool.and_eq_true]
    exact ⟨h6, List.all_takeWhile⟩
  · cases h
    refine ⟨?_, List.head?_dropWhile_eq_false⟩
    simp only [TokenKind.isSound, String.toList_ofList, Bool.and_eq_true]
    exact ⟨h7, List.all_takeWhile⟩
  · cases h
    refine ⟨?_, fun d hd => ?_⟩
    · have h9 : c ≠ '_' := fun he => h6 (by rw [he]; rfl)
      simp [TokenKind.isSound, h8, TokenKind.takenPunctuation, h1, h2, h3, h4, h5, h9, hsign]
    · by_cases hc : c = '/'
      · subst hc
        cases rest with
        | nil => cases hd
        | cons e rest =>
          cases hd
          have hslash : d ≠ '/' := fun he => by rw [he] at hopen; cases hopen
          have hstar : d ≠ '*' := fun he => by rw [he] at hopen; cases hopen
          simp [TokenKind.clashes, hslash, hstar]
      · simp [TokenKind.clashes, hc]

def Token.lexemes (t : Token) : List Lexeme :=
  t.gap.map .blank ++ [.token t.kind]

@[simp] theorem lexemeChars_flatMap_lexemes (ts : List Token) :
    lexemeChars (ts.flatMap Token.lexemes) = tokenChars ts := by
  induction ts with
  | nil => rfl
  | cons t ts ih =>
    rw [List.flatMap_cons, lexemeChars_append, ih, Token.lexemes, lexemeChars_append,
      lexemeChars_blanks]
    simp [Lexeme.chars, tokenChars]

theorem tokenChars_eq_of_cons {offset : Nat} {cs : List Char} {t : Token} {ts : List Token}
    {c : Char} {rest after : List Char} (hgap : gapAt offset cs = .ok (t.gap, c :: rest))
    (htoken : tokenAt c rest = some (t.kind, after)) (h : tokenChars (t :: ts) = cs) :
    tokenChars ts = after := by
  have h1 := gapAt_append hgap
  rw [← tokenAt_append htoken, ← h] at h1
  rw [tokenChars, List.flatMap_cons, List.append_assoc] at h1
  exact (List.append_cancel_left (List.append_cancel_left h1)).symm

theorem separated_gap {gap : List Char} (h : gap.all Text.isBlank = true) :
    Separated (gap.map .blank) := by
  refine ⟨fun l hl => ?_, ?_⟩
  · obtain ⟨c, hc, rfl⟩ := List.mem_map.1 hl
    exact List.all_eq_true.1 h c hc
  · induction gap with
    | nil => exact .nil
    | cons c gap ih =>
      rw [List.all_cons, Bool.and_eq_true] at h
      cases gap with
      | nil => exact .singleton _
      | cons d gap => exact .cons_cons trivial (ih h.2)

theorem separated_token {kind : TokenKind} (h : kind.isSound = true) :
    Separated [.token kind] :=
  ⟨fun l hl => by rw [List.mem_singleton.1 hl]; exact h, .singleton _⟩

theorem separated_of_tokensFrom {ts : List Token} {offset : Nat} {cs : List Char}
    (h : tokensFrom offset cs = .ok ts) (hchars : tokenChars ts = cs)
    (hgap : ∀ t ∈ ts, t.gap.all Text.isBlank = true) : Separated (ts.flatMap Token.lexemes) := by
  induction ts generalizing offset cs with
  | nil => exact separated_nil
  | cons t ts ih =>
    obtain ⟨c, rest, after, hg, ht, hts⟩ := tokensFrom_cons h
    have hafter := tokenChars_eq_of_cons hg ht hchars
    obtain ⟨hsound, hclash⟩ := tokenAt_sound ht (opensGap_of_gapAt hg)
    have hrest := ih hts hafter fun u hu => hgap u (List.mem_cons_of_mem t hu)
    have hhead : Separated t.lexemes :=
      (separated_gap (hgap t (by simp))).append (separated_token hsound) (by simp [Lexeme.MayPrecede])
    rw [List.flatMap_cons]
    refine hhead.append hrest fun l hl m hm => ?_
    have hl : l = .token t.kind := by
      rw [Token.lexemes, List.getLast?_concat] at hl
      exact (Option.some.inj hl).symm
    subst hl
    intro d hd
    -- The first lexeme behind the token starts with the first character behind it.
    have hne := chars_ne_nil (hrest.sound m (List.mem_of_mem_head? hm))
    rw [← lexemeChars_flatMap_lexemes] at hafter
    refine hclash d ?_
    rw [← hafter, List.eq_cons_of_mem_head? hm, lexemeChars_cons, List.head?_append_of_ne_nil _ hne]
    exact hd

end NativeCatalogue
