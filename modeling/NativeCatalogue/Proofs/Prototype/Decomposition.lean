import NativeCatalogue.Proofs.Prototype.Gaps

/-!
Texts as tokens with gaps between them. `Decomposes` says what can be cut off a text without a look at the
lexer: the longest tokens, each behind a gap that ends where it must. The lexer returns tokens exactly if a
text decomposes into them and a last gap, and an error exactly where what has been cut off leaves something
that neither a gap nor a token starts.
-/

set_option autoImplicit false

namespace NativeCatalogue

structure IsCommentBody (body : List Char) : Prop where
  ends : ['*', '/'] <:+ body
  first : ¬ ['*', '/'] <:+: body.dropLast

def OpensLine (line : List Char) : Prop :=
  ['/', '/'] <+: line ∨ ['#'] <+: line

inductive IsGapPiece : List Char → List Char → Prop where
  | blank {c : Char} {rest : List Char} (h : Text.isBlank c = true) : IsGapPiece [c] rest
  | line {line rest : List Char} (hopens : OpensLine line) (hline : '\n' ∉ line)
      (hrest : ∀ c ∈ rest.head?, c = '\n') : IsGapPiece line rest
  | comment {body rest : List Char} (h : IsCommentBody body) : IsGapPiece ('/' :: '*' :: body) rest

inductive GapBefore : List Char → List Char → Prop where
  | nil (rest : List Char) : GapBefore [] rest
  | piece {piece gap rest : List Char} (h : IsGapPiece piece (gap ++ rest)) (hgap : GapBefore gap rest) :
      GapBefore (piece ++ gap) rest

/-- What can be cut off a text that starts at a byte offset: tokens, each behind its gap and as long as it can
    be, then a gap, and what is left. -/
inductive Decomposes : Nat → List Char → List Token → List Char → List Char → Prop where
  | gap {offset : Nat} {gap rest : List Char} (h : GapBefore gap rest) :
      Decomposes offset (gap ++ rest) [] gap rest
  | token {offset : Nat} {gap behind last rest : List Char} {kind : TokenKind} {ts : List Token}
      (hgap : GapBefore gap (kind.text ++ behind)) (hsound : kind.isSound = true)
      (hclash : ∀ c ∈ behind.head?, kind.clashes c = false)
      (h : Decomposes (offset + byteLength gap + byteLength kind.text) behind ts last rest) :
      Decomposes offset (gap ++ (kind.text ++ behind)) (⟨gap, kind, offset + byteLength gap⟩ :: ts) last rest

/-- What stops the lexer at a byte offset: a block comment without an end, or a character that is no blank and
    no letter, digit or punctuation of ASCII. -/
inductive Stuck (offset : Nat) : List Char → DeclarationError → Prop where
  | comment {rest : List Char} (h : ¬ ['*', '/'] <:+: rest) :
      Stuck offset ('/' :: '*' :: rest) (.unterminatedComment offset)
  | char {c : Char} {rest : List Char} (hblank : Text.isBlank c = false) (halphanum : c.isAlphanum = false)
      (hpunctuation : isPunctuation c = false) : Stuck offset (c :: rest) (.unexpectedChar c offset)

theorem closeComment?_eq_none {cs : List Char} : closeComment? cs = none ↔ ¬ ['*', '/'] <:+: cs := by
  fun_induction closeComment? cs with
  | case1 => simp
  | case2 rest =>
    have hclosed : ['*', '/'] <:+: '*' :: '/' :: rest := (List.prefix_append ['*', '/'] rest).isInfix
    simp [hclosed]
  | case3 c rest hopen ih =>
    have hstart : ¬ ['*', '/'] <+: c :: rest := by
      rintro ⟨tail, htail⟩
      obtain ⟨rfl, rfl⟩ := List.cons.inj htail
      exact hopen tail rfl rfl
    rw [Option.map_eq_none_iff, ih, List.infix_cons_iff, not_or]
    exact ⟨fun h => ⟨hstart, h⟩, fun h => h.2⟩

theorem isCommentBody_of_closeComment? {cs body after : List Char}
    (h : closeComment? cs = some (body, after)) : IsCommentBody body := by
  fun_induction closeComment? cs generalizing body after with
  | case1 => cases h
  | case2 rest =>
    cases h
    exact ⟨List.suffix_refl _, fun hinfix => absurd hinfix.length_le (by decide)⟩
  | case3 c rest hopen ih =>
    obtain ⟨⟨inner, tail⟩, hinner, he⟩ := Option.map_eq_some_iff.1 h
    cases he
    obtain ⟨hends, hfirst⟩ := ih hinner
    have hne := closeComment?_ne_nil hinner
    refine ⟨hends.trans (List.suffix_cons c inner), ?_⟩
    rw [List.dropLast_cons_of_ne_nil hne, List.infix_cons_iff, not_or]
    refine ⟨?_, hfirst⟩
    -- A slash right behind an asterisk would have ended the comment before.
    rintro ⟨more, hmore⟩
    obtain ⟨rfl, hslash⟩ := List.cons.inj hmore
    have hrest := closeComment?_append hinner
    rw [← List.dropLast_append_getLast hne, ← hslash, List.append_assoc] at hrest
    exact hopen _ rfl hrest.symm

theorem IsCommentBody.closeComment? {body : List Char} (h : IsCommentBody body) (rest : List Char) :
    NativeCatalogue.closeComment? (body ++ rest) = some (body, rest) := by
  cases hclose : NativeCatalogue.closeComment? body with
  | none => exact absurd h.ends.isInfix (closeComment?_eq_none.1 hclose)
  | some cut =>
    obtain ⟨inner, after⟩ := cut
    have happend := closeComment?_append hclose
    cases after with
    | nil =>
      rw [List.append_nil] at happend
      rw [← happend]
      exact closeComment?_more hclose rest
    | cons c after =>
      refine absurd ?_ h.first
      rw [← happend, List.dropLast_append_of_ne_nil (List.cons_ne_nil c after)]
      exact (isCommentBody_of_closeComment? hclose).ends.isInfix.trans (List.prefix_append inner _).isInfix

theorem lineGap_of_line {line rest : List Char} (hline : '\n' ∉ line) (hrest : ∀ c ∈ rest.head?, c = '\n') :
    lineGap (line ++ rest) = (line, rest) := by
  have hinside : line.all (· ≠ '\n') = true :=
    List.all_eq_true.2 fun c hc => decide_eq_true fun he => hline (he ▸ hc)
  obtain ⟨htake, hdrop⟩ := List.takeWhile_append_of_head hinside fun c hc => by rw [hrest c hc]; rfl
  rw [lineGap, htake, hdrop]

theorem isGapPiece_line {line piece rest : List Char} (hopens : OpensLine piece)
    (h : lineGap line = (piece, rest)) : IsGapPiece piece rest := by
  obtain ⟨rfl, rfl⟩ := Prod.mk.inj h
  refine .line hopens (fun hmem => ?_) fun c hc => ?_
  · simpa using List.all_eq_true.1 (List.all_takeWhile (p := (· ≠ '\n'))) '\n' hmem
  · simpa using List.head?_dropWhile_eq_false c hc

theorem gapPiece_eq_some {offset : Nat} {cs piece rest : List Char} :
    gapPiece offset cs = .ok (some (piece, rest)) ↔ cs = piece ++ rest ∧ IsGapPiece piece rest := by
  constructor
  · intro h
    refine ⟨(gapPiece_append h).1.symm, ?_⟩
    unfold gapPiece at h
    split at h
    · rename_i tail
      have hline : lineGap ('/' :: '/' :: tail) = (piece, rest) := Option.some.inj (Except.ok.inj h)
      have hpiece : piece = '/' :: '/' :: tail.takeWhile (· ≠ '\n') := (congrArg Prod.fst hline).symm
      exact isGapPiece_line (.inl (hpiece ▸ List.prefix_append ['/', '/'] _)) hline
    · split at h
      · rename_i body after hbody
        cases h
        exact .comment (isCommentBody_of_closeComment? hbody)
      · cases h
    · rename_i tail
      have hline : lineGap ('#' :: tail) = (piece, rest) := Option.some.inj (Except.ok.inj h)
      have hpiece : piece = '#' :: tail.takeWhile (· ≠ '\n') := (congrArg Prod.fst hline).symm
      exact isGapPiece_line (.inr (hpiece ▸ List.prefix_append ['#'] _)) hline
    · split at h
      · rename_i hblank
        cases h
        exact .blank hblank
      · cases h
    · cases h
  · rintro ⟨rfl, hpiece⟩
    cases hpiece with
    | blank hblank => exact gapPiece_blank offset rest hblank
    | line hopens hline hrest =>
      have hcut := lineGap_of_line hline hrest
      rcases hopens with ⟨tail, rfl⟩ | ⟨tail, rfl⟩
      · exact congrArg (fun cut => Except.ok (some cut)) hcut
      · exact congrArg (fun cut => Except.ok (some cut)) hcut
    | comment hbody =>
      unfold gapPiece
      simp only [List.cons_append, hbody.closeComment? rest]

theorem gapPiece_eq_error {offset : Nat} {cs : List Char} {e : DeclarationError}
    (h : gapPiece offset cs = .error e) : Stuck offset cs e := by
  unfold gapPiece at h
  split at h
  · cases h
  · split at h
    · cases h
    · rename_i hnone
      cases h
      exact .comment (closeComment?_eq_none.1 hnone)
  · cases h
  · split at h <;> cases h
  · cases h

theorem gapBefore_of_gapAt {offset : Nat} {cs gap rest : List Char}
    (h : gapAt offset cs = .ok (gap, rest)) : GapBefore gap rest := by
  fun_induction gapAt offset cs generalizing gap rest with
  | case1 => cases h
  | case2 => cases h; exact .nil _
  | case3 => cases h
  | case4 offset cs piece tail hpiece more after hmore ih =>
    cases h
    refine .piece ?_ (ih hmore)
    rw [gapAt_append hmore]
    exact (gapPiece_eq_some.1 hpiece).2

theorem GapBefore.gapAt {gap rest : List Char} (h : GapBefore gap rest) (offset : Nat) :
    NativeCatalogue.gapAt offset (gap ++ rest) =
      (NativeCatalogue.gapAt (offset + byteLength gap) rest).map fun (more, after) => (gap ++ more, after) := by
  induction h generalizing offset with
  | nil rest =>
    change NativeCatalogue.gapAt offset rest = (NativeCatalogue.gapAt offset rest).map id
    cases NativeCatalogue.gapAt offset rest <;> rfl
  | @piece piece gap rest hpiece hgap ih =>
    rw [List.append_assoc, gapAt_of_piece (gapPiece_eq_some.2 ⟨rfl, hpiece⟩), ih, byteLength_append,
      Nat.add_assoc]
    cases NativeCatalogue.gapAt (offset + (byteLength piece + byteLength gap)) rest with
    | error e => rfl
    | ok cut => exact congrArg (fun whole => Except.ok (whole, cut.2)) (List.append_assoc _ _ _).symm

theorem gapAt_eq_error {offset : Nat} {cs : List Char} {e : DeclarationError}
    (h : gapAt offset cs = .error e) :
    ∃ gap rest, cs = gap ++ rest ∧ GapBefore gap rest ∧ Stuck (offset + byteLength gap) rest e := by
  fun_induction gapAt offset cs with
  | case1 offset cs e' hpiece =>
    cases h
    exact ⟨[], cs, rfl, .nil cs, gapPiece_eq_error hpiece⟩
  | case2 => cases h
  | case3 offset cs piece tail hpiece e' hrest ih =>
    cases h
    obtain ⟨gap, rest, rfl, hgap, hstuck⟩ := ih hrest
    obtain ⟨rfl, hfirst⟩ := gapPiece_eq_some.1 hpiece
    refine ⟨piece ++ gap, rest, (List.append_assoc _ _ _).symm, .piece hfirst hgap, ?_⟩
    rw [byteLength_append, ← Nat.add_assoc]
    exact hstuck
  | case4 => cases h

theorem kind_eq_of_text {kind other : TokenKind} (hkind : kind.isSound = true)
    (hother : other.isSound = true) (h : kind.text = other.text) : kind = other := by
  obtain ⟨c, after, hchars, htoken, -⟩ := @tokenAt_text kind [] hkind (by simp)
  obtain ⟨d, after', hchars', htoken', -⟩ := @tokenAt_text other [] hother (by simp)
  rw [h, hchars'] at hchars
  obtain ⟨rfl, rfl⟩ := List.cons.inj hchars
  exact congrArg Prod.fst (Option.some.inj (htoken.symm.trans htoken'))

theorem tokenAt_eq_none {c : Char} {rest : List Char} :
    tokenAt c rest = none ↔ c.isAlphanum = false ∧ isPunctuation c = false := by
  constructor
  · intro h
    unfold tokenAt at h
    split_ifs at h with h1 h2 h3 h4 h5 h6 h7 h8
    rw [isIdentStart, Bool.or_eq_true, not_or] at h6
    exact ⟨by rw [Char.isAlphanum, Bool.eq_false_iff.2 h6.1, Bool.eq_false_iff.2 h7]; rfl,
      Bool.eq_false_iff.2 h8⟩
  · rintro ⟨halphanum, hpunctuation⟩
    rw [Char.isAlphanum, Bool.or_eq_false_iff] at halphanum
    have hmark : ∀ d, isPunctuation d = true → c ≠ d := by
      rintro d hd rfl
      rw [hpunctuation] at hd
      cases hd
    have hstart : isIdentStart c = false := by
      rw [isIdentStart, halphanum.1, Bool.false_or]
      exact decide_eq_false (hmark '_' (by decide))
    rw [tokenAt, if_neg (hmark '*' (by decide)), if_neg (hmark '(' (by decide)),
      if_neg (hmark ')' (by decide)), if_neg (hmark ',' (by decide)), if_neg (hmark ';' (by decide)),
      if_neg (Bool.eq_false_iff.1 hstart), if_neg (Bool.eq_false_iff.1 halphanum.2),
      if_neg (Bool.eq_false_iff.1 hpunctuation)]

theorem tokensFrom_of_stuck {offset : Nat} {gap rest : List Char} {e : DeclarationError}
    (hgap : GapBefore gap rest) (h : Stuck (offset + byteLength gap) rest e) :
    tokensFrom offset (gap ++ rest) = .error e := by
  have hcut := hgap.gapAt offset
  cases h with
  | @comment rest hopen =>
    have hpiece : gapPiece (offset + byteLength gap) ('/' :: '*' :: rest) =
        .error (.unterminatedComment (offset + byteLength gap)) := by
      unfold gapPiece
      simp only [closeComment?_eq_none.2 hopen]
    rw [gapAt_of_error hpiece] at hcut
    exact tokensFrom_of_gapError hcut
  | @char c rest hblank halphanum hpunctuation =>
    have hmark : ∀ d, isPunctuation d = true → c ≠ d := by
      rintro d hd rfl
      rw [hpunctuation] at hd
      cases hd
    have hopen : opensGap (c :: rest) = false :=
      opensGap_eq_false hblank (hmark '#' (by decide)) fun he => absurd he (hmark '/' (by decide))
    rw [gapAt_of_not_opensGap hopen] at hcut
    have hnone := tokensFrom_of_noToken hcut (tokenAt_eq_none.2 ⟨halphanum, hpunctuation⟩)
    rw [List.append_nil] at hnone
    exact hnone

theorem tokensFrom_of_token {offset : Nat} {gap behind : List Char} {kind : TokenKind}
    (hgap : GapBefore gap (kind.text ++ behind)) (hsound : kind.isSound = true)
    (hclash : ∀ c ∈ behind.head?, kind.clashes c = false) :
    tokensFrom offset (gap ++ (kind.text ++ behind)) =
      (tokensFrom (offset + byteLength gap + byteLength kind.text) behind).map
        (⟨gap, kind, offset + byteLength gap⟩ :: ·) :=
  tokensFrom_behind (hgap.gapAt offset) hsound hclash

theorem byteLength_tokenChars_cons (t : Token) (ts : List Token) (last : List Char) :
    byteLength (tokenChars (t :: ts) ++ last) =
      byteLength t.gap + byteLength t.kind.text + byteLength (tokenChars ts ++ last) := by
  rw [tokenChars, List.flatMap_cons, List.append_assoc, byteLength_append, byteLength_append]
  rfl

namespace Decomposes

variable {offset : Nat} {cs gap rest : List Char} {ts : List Token}

theorem chars (h : Decomposes offset cs ts gap rest) : cs = tokenChars ts ++ (gap ++ rest) := by
  induction h with
  | gap => rfl
  | token hgap hsound hclash h ih => simp [tokenChars, ih]

theorem tokensFrom (h : Decomposes offset cs ts gap []) : NativeCatalogue.tokensFrom offset cs = .ok ts := by
  generalize hrest : ([] : List Char) = rest at h
  induction h with
  | @gap offset gap rest hgap =>
    subst hrest
    have hcut := hgap.gapAt offset
    rw [@gapAt_of_not_opensGap _ [] rfl] at hcut
    exact tokensFrom_of_gap hcut
  | token hgap hsound hclash h ih =>
    rw [tokensFrom_of_token hgap hsound hclash, ih hrest]
    rfl

theorem tokensFrom_error (h : Decomposes offset cs ts gap rest) {e : DeclarationError}
    (he : Stuck (offset + byteLength (tokenChars ts ++ gap)) rest e) :
    NativeCatalogue.tokensFrom offset cs = .error e := by
  induction h with
  | gap hgap => exact tokensFrom_of_stuck hgap he
  | token hgap hsound hclash h ih =>
    rw [byteLength_tokenChars_cons, ← Nat.add_assoc, ← Nat.add_assoc] at he
    rw [tokensFrom_of_token hgap hsound hclash, ih he]
    rfl

theorem place (h : Decomposes offset cs ts gap rest) : ∀ t ∈ ts, ∃ before behind,
    cs = before ++ (t.kind.text ++ behind) ∧ t.start = offset + byteLength before ∧
      t.kind.isSound = true ∧ ∀ c ∈ behind.head?, t.kind.clashes c = false := by
  induction h with
  | gap hgap => exact fun t ht => absurd ht List.not_mem_nil
  | @token offset gap behind last rest kind ts hgap hsound hclash h ih =>
    intro t ht
    rcases List.mem_cons.1 ht with rfl | ht
    · exact ⟨gap, behind, rfl, rfl, hsound, hclash⟩
    · obtain ⟨before, after, rfl, hstart, hrest⟩ := ih t ht
      refine ⟨gap ++ (kind.text ++ before), after, by simp, ?_, hrest⟩
      rw [hstart, byteLength_append, byteLength_append]
      omega

theorem ordered (h : Decomposes offset cs ts gap rest) :
    (∀ t ∈ ts, offset ≤ t.start) ∧ ts.Pairwise fun t u => t.stop ≤ u.start := by
  induction h with
  | gap hgap => exact ⟨fun t ht => absurd ht List.not_mem_nil, .nil⟩
  | @token offset gap behind last rest kind ts hgap hsound hclash h ih =>
    obtain ⟨hstart, hordered⟩ := ih
    refine ⟨List.forall_mem_cons.2 ⟨Nat.le_add_right _ _, fun t ht => ?_⟩, .cons hstart hordered⟩
    have := hstart t ht
    omega

end Decomposes

theorem decomposes_of_tokensFrom {offset : Nat} {cs : List Char} {ts : List Token}
    (h : tokensFrom offset cs = .ok ts) : ∃ gap, Decomposes offset cs ts gap [] := by
  induction ts generalizing offset cs with
  | nil =>
    have hgap := gapBefore_of_gapAt (gapAt_of_noTokens h)
    have hdecomposes : Decomposes offset (cs ++ []) [] cs [] := .gap hgap
    rw [List.append_nil] at hdecomposes
    exact ⟨cs, hdecomposes⟩
  | cons t ts ih =>
    obtain ⟨c, rest, after, hgap, htoken, hts⟩ := tokensFrom_cons h
    have hround := tokensFrom_eq hgap htoken
    rw [h, hts] at hround
    obtain ⟨gap, hmore⟩ := ih hts
    obtain ⟨hsound, hclash⟩ := tokenAt_sound htoken (opensGap_of_gapAt hgap)
    have hbefore := gapBefore_of_gapAt hgap
    rw [← tokenAt_append htoken] at hbefore
    refine ⟨gap, ?_⟩
    rw [(List.cons.inj (Except.ok.inj hround)).1, ← gapAt_append hgap, ← tokenAt_append htoken]
    exact .token hbefore hsound hclash hmore

theorem stuck_of_tokensFrom {offset : Nat} {cs : List Char} {e : DeclarationError}
    (h : tokensFrom offset cs = .error e) : ∃ ts gap rest, Decomposes offset cs ts gap rest ∧
      Stuck (offset + byteLength (tokenChars ts ++ gap)) rest e := by
  fun_induction tokensFrom offset cs with
  | case1 offset cs e' hgap =>
    cases h
    obtain ⟨gap, rest, rfl, hbefore, hstuck⟩ := gapAt_eq_error hgap
    exact ⟨[], gap, rest, .gap hbefore, hstuck⟩
  | case2 => cases h
  | case3 offset cs gap c rest hgap start htoken =>
    cases h
    have hopen := opensGap_of_gapAt hgap
    refine ⟨[], gap, c :: rest, gapAt_append hgap ▸ .gap (gapBefore_of_gapAt hgap), ?_⟩
    obtain ⟨halphanum, hpunctuation⟩ := tokenAt_eq_none.1 htoken
    refine .char ?_ halphanum hpunctuation
    rw [Bool.eq_false_iff]
    intro hblank
    have := gapPiece_blank 0 rest hblank
    rw [gapPiece_eq_none_iff.2 hopen] at this
    cases this
  | case4 offset cs gap c rest hgap start kind after htoken e' hmore ih =>
    cases h
    obtain ⟨ts, last, left, hdecomposes, hstuck⟩ := ih hmore
    obtain ⟨hsound, hclash⟩ := tokenAt_sound htoken (opensGap_of_gapAt hgap)
    have hbefore := gapBefore_of_gapAt hgap
    rw [← tokenAt_append htoken] at hbefore
    refine ⟨⟨gap, kind, start⟩ :: ts, last, left, ?_, ?_⟩
    · rw [← gapAt_append hgap, ← tokenAt_append htoken]
      exact .token hbefore hsound hclash hdecomposes
    · rw [byteLength_tokenChars_cons, ← Nat.add_assoc, ← Nat.add_assoc]
      exact hstuck
  | case5 => cases h

structure Token.IsSpan (source : String) (t : Token) : Prop where
  /-- It stands at its offset, and the character behind it does not belong to it. -/
  place : ∃ before behind : String, source = before ++ .ofList t.kind.text ++ behind ∧
    before.utf8ByteSize = t.start ∧ ∀ c ∈ behind.toList.head?, t.kind.clashes c = false
  nonempty : t.start < t.stop
  inside : t.stop ≤ source.utf8ByteSize
  sound : t.kind.isSound = true
  kind : ∀ kind : TokenKind, kind.isSound = true → kind.text = t.kind.text → kind = t.kind

theorem Decomposes.isSpan {source : String} {ts : List Token} {gap rest : List Char}
    (h : Decomposes 0 source.toList ts gap rest) : ∀ t ∈ ts, t.IsSpan source := by
  intro t ht
  obtain ⟨before, behind, hchars, hstart, hsound, hclash⟩ := h.place t ht
  rw [Nat.zero_add] at hstart
  have hsource : source = .ofList before ++ .ofList t.kind.text ++ .ofList behind := by
    rw [← String.ofList_append, ← String.ofList_append, List.append_assoc, ← hchars, String.ofList_toList]
  have hbefore : (String.ofList before).utf8ByteSize = t.start := by
    rw [← byteLength_toList, String.toList_ofList, hstart]
  have hlength : source.utf8ByteSize = t.stop + byteLength behind := by
    rw [← byteLength_toList, hchars, byteLength_append, byteLength_append, Token.stop, hstart, Nat.add_assoc]
  refine ⟨⟨_, _, hsource, hbefore, by rwa [String.toList_ofList]⟩, ?_, by omega, hsound,
    fun kind hkind htext => kind_eq_of_text hkind hsound htext⟩
  obtain ⟨c, cs, htext⟩ := List.exists_cons_of_ne_nil (text_ne_nil hsound)
  have hc := Char.utf8Size_pos c
  rw [Token.stop, htext, byteLength, List.map_cons, List.sum_cons]
  omega

/-- The tokens of a text are what it decomposes into, and an error is what a decomposition gets stuck at. -/
theorem tokenize_decomposes (source : String) :
    (∀ ts, tokenize source = .ok ts ↔ ∃ gap, Decomposes 0 source.toList ts gap []) ∧
    (∀ e, tokenize source = .error e ↔ ∃ ts gap rest, Decomposes 0 source.toList ts gap rest ∧
      Stuck (byteLength (tokenChars ts ++ gap)) rest e) ∧
    ∀ ts, tokenize source = .ok ts →
      (∀ t ∈ ts, t.IsSpan source) ∧ ts.Pairwise fun t u => t.stop ≤ u.start := by
  refine ⟨fun ts => ⟨decomposes_of_tokensFrom, fun ⟨gap, h⟩ => h.tokensFrom⟩, fun e => ⟨fun h => ?_, ?_⟩,
    fun ts h => ?_⟩
  · obtain ⟨ts, gap, rest, hdecomposes, hstuck⟩ := stuck_of_tokensFrom h
    exact ⟨ts, gap, rest, hdecomposes, by rwa [Nat.zero_add] at hstuck⟩
  · rintro ⟨ts, gap, rest, hdecomposes, hstuck⟩
    exact hdecomposes.tokensFrom_error (by rwa [Nat.zero_add])
  · obtain ⟨gap, hdecomposes⟩ := decomposes_of_tokensFrom h
    exact ⟨hdecomposes.isSpan, hdecomposes.ordered.2⟩

theorem tokenize_decomposes_sample :
    (∃ gap, Decomposes 0 "a/*/ */1.b#\n\u3000/c//".toList
      [⟨[], .ident "a", 0⟩, ⟨['/', '*', '/', ' ', '*', '/'], .number "1.b", 7⟩,
        ⟨['#', '\n', '\u3000'], .punct '/', 15⟩, ⟨[], .ident "c", 16⟩] gap []) ∧
    ∃ ts gap rest, Decomposes 0 "a /*/".toList ts gap rest ∧
      Stuck (byteLength (tokenChars ts ++ gap)) rest (.unterminatedComment 2) :=
  ⟨((tokenize_decomposes _).1 _).1 (by decide +kernel), ((tokenize_decomposes _).2.1 _).1 (by decide +kernel)⟩

end NativeCatalogue
