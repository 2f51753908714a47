import NativeCatalogue.Proofs.Prototype.Lexing

set_option autoImplicit false

namespace NativeCatalogue

/-- Whether a text is a gap, or the start of one, before every other text. -/
def IsGap (gap : List Char) : Prop :=
  ∀ offset cs, gapAt offset (gap ++ cs) =
    (gapAt (offset + byteLength gap) cs).map fun (more, rest) => (gap ++ more, rest)

def padHead (gap : List Char) : List Token → List Token
  | [] => []
  | t :: ts => { t with gap := gap ++ t.gap } :: ts

def Token.move (n : Nat) (t : Token) : Token :=
  { t with start := t.start + n }

def DeclarationError.shift (n : Nat) : DeclarationError → DeclarationError
  | .unexpectedChar char offset => .unexpectedChar char (offset + n)
  | .unterminatedComment offset => .unterminatedComment (offset + n)
  | .unexpectedToken expected found offset => .unexpectedToken expected found (offset + n)
  | .unexpectedEnd expected => .unexpectedEnd expected
  | .unknownType name offset => .unknownType name (offset + n)
  | .badPayload cause offset => .badPayload cause (offset + n)
  | .functionCount found => .functionCount found

/-- The same tokens, or the same error, in a text that starts so many bytes further on. -/
def moveTokens (n : Nat) : Except DeclarationError (List Token) → Except DeclarationError (List Token)
  | .ok ts => .ok (ts.map (Token.move n))
  | .error e => .error (e.shift n)

theorem byteLength_toList (s : String) : byteLength s.toList = s.utf8ByteSize := by
  have hlist : ∀ cs : List Char, byteLength cs = (String.ofList cs).utf8ByteSize := by
    intro cs
    induction cs with
    | nil => rfl
    | cons c cs ih =>
      rw [String.ofList_cons, String.utf8ByteSize_append, String.utf8ByteSize_singleton, ← ih]
      rfl
  rw [hlist, String.ofList_toList]

theorem closeComment?_ne_nil {cs body after : List Char} (h : closeComment? cs = some (body, after)) :
    body ≠ [] := by
  fun_cases closeComment? cs with
  | case1 => cases h
  | case2 rest =>
    cases h
    exact List.cons_ne_nil _ _
  | case3 c rest =>
    rw [closeComment?.eq_3 _ _ ‹_›] at h
    obtain ⟨⟨inner, tail⟩, -, he⟩ := Option.map_eq_some_iff.1 h
    cases he
    exact List.cons_ne_nil _ _

theorem closeComment?_more {cs body after : List Char} (h : closeComment? cs = some (body, after))
    (more : List Char) : closeComment? (body ++ more) = some (body, more) := by
  fun_induction closeComment? cs generalizing body after with
  | case1 => cases h
  | case2 rest =>
    cases h
    rfl
  | case3 c rest hopen ih =>
    obtain ⟨⟨inner, tail⟩, hinner, he⟩ := Option.map_eq_some_iff.1 h
    cases he
    -- The character before the rest of the comment does not end it.
    have hopen' : ∀ others, c = '*' → inner ++ more = '/' :: others → False := by
      intro others hc hslash
      obtain ⟨d, inner', rfl⟩ := List.exists_cons_of_ne_nil (closeComment?_ne_nil hinner)
      obtain ⟨rfl, -⟩ := List.cons.inj hslash
      exact hopen _ hc (closeComment?_append hinner).symm
    rw [List.cons_append, closeComment?.eq_3 _ _ hopen', ih hinner]
    rfl

theorem lineGap_more {line piece rest more : List Char} (h : lineGap line = (piece, rest))
    (hmore : (∀ c ∈ rest.head?, c = '\n') → ∀ c ∈ more.head?, c = '\n') :
    lineGap (piece ++ more) = (piece, more) := by
  have hpiece : line.takeWhile (· ≠ '\n') = piece := congrArg Prod.fst h
  have hrest : line.dropWhile (· ≠ '\n') = rest := congrArg Prod.snd h
  have hwhole : piece.all (· ≠ '\n') = true := by
    rw [← hpiece]
    exact List.all_takeWhile
  have hend : ∀ c ∈ more.head?, decide (c ≠ '\n') = false := by
    intro c hc
    have hnewline := hmore (fun d hd => by
      rw [← hrest] at hd
      simpa using List.head?_dropWhile_eq_false d hd) c hc
    rw [hnewline]
    rfl
  obtain ⟨htake, hdrop⟩ := List.takeWhile_append_of_head hwhole hend
  rw [lineGap, htake, hdrop]

/-- A piece of a gap stays one before any other text, where a line still needs its newline. -/
theorem gapPiece_more {offset : Nat} {cs piece rest more : List Char}
    (h : gapPiece offset cs = .ok (some (piece, rest)))
    (hmore : (∀ c ∈ rest.head?, c = '\n') → ∀ c ∈ more.head?, c = '\n') (other : Nat) :
    gapPiece other (piece ++ more) = .ok (some (piece, more)) := by
  unfold gapPiece at h
  split at h
  · rename_i tail
    have hline : lineGap ('/' :: '/' :: tail) = (piece, rest) := Option.some.inj (Except.ok.inj h)
    have hsame := lineGap_more hline hmore
    have hpiece : piece = '/' :: '/' :: tail.takeWhile (· ≠ '\n') := (congrArg Prod.fst hline).symm
    rw [hpiece] at hsame ⊢
    exact congrArg (fun cut => Except.ok (some cut)) hsame
  · rename_i tail
    split at h
    · rename_i body after hbody
      cases h
      unfold gapPiece
      simp only [List.cons_append, closeComment?_more hbody]
    · cases h
  · rename_i tail
    have hline : lineGap ('#' :: tail) = (piece, rest) := Option.some.inj (Except.ok.inj h)
    have hsame := lineGap_more hline hmore
    have hpiece : piece = '#' :: tail.takeWhile (· ≠ '\n') := (congrArg Prod.fst hline).symm
    rw [hpiece] at hsame ⊢
    exact congrArg (fun cut => Except.ok (some cut)) hsame
  · rename_i c tail _ _ _
    split at h
    · rename_i hblank
      cases h
      exact gapPiece_blank other more hblank
    · cases h
  · cases h

theorem gapPiece_move (offset n : Nat) (cs : List Char) :
    gapPiece (offset + n) cs = (gapPiece offset cs).mapError (.shift n) := by
  unfold gapPiece
  split
  · rfl
  · split <;> rfl
  · rfl
  · split <;> rfl
  · rfl

theorem gapAt_of_error {offset : Nat} {cs : List Char} {e : DeclarationError}
    (h : gapPiece offset cs = .error e) : gapAt offset cs = .error e := by
  rw [gapAt]
  split
  · rename_i he; rw [h] at he; cases he; rfl
  · rename_i he; rw [h] at he; cases he
  · rename_i he; rw [h] at he; cases he

theorem gapAt_of_piece {offset : Nat} {cs piece rest : List Char}
    (h : gapPiece offset cs = .ok (some (piece, rest))) :
    gapAt offset cs = (gapAt (offset + byteLength piece) rest).map
      fun (more, after) => (piece ++ more, after) := by
  rw [gapAt]
  split
  · rename_i he; rw [h] at he; cases he
  · rename_i he; rw [h] at he; cases he
  · rename_i he
    rw [h] at he
    cases he
    cases gapAt (offset + byteLength piece) rest <;> rfl

theorem gapAt_move (offset n : Nat) (cs : List Char) :
    gapAt (offset + n) cs = (gapAt offset cs).mapError (.shift n) := by
  fun_induction gapAt offset cs with
  | case1 offset cs e hpiece =>
    have hmoved := gapPiece_move offset n cs
    rw [hpiece] at hmoved
    exact gapAt_of_error hmoved
  | case2 offset cs hpiece =>
    exact gapAt_of_not_opensGap (gapPiece_eq_none_iff.1 hpiece)
  | case3 offset cs piece rest hpiece e hrest ih =>
    have hmoved := gapPiece_move offset n cs
    rw [hpiece] at hmoved
    rw [gapAt_of_piece hmoved, Nat.add_right_comm, ih, hrest]
    rfl
  | case4 offset cs piece rest hpiece gap after hrest ih =>
    have hmoved := gapPiece_move offset n cs
    rw [hpiece] at hmoved
    rw [gapAt_of_piece hmoved, Nat.add_right_comm, ih, hrest]
    rfl

theorem isGap_nil : IsGap [] := by
  intro offset cs
  change gapAt offset cs = (gapAt offset cs).map fun (more, rest) => (more, rest)
  cases gapAt offset cs <;> rfl

theorem IsGap.append {gap more : List Char} (hgap : IsGap gap) (hmore : IsGap more) :
    IsGap (gap ++ more) := by
  intro offset cs
  rw [List.append_assoc, hgap, hmore, byteLength_append, Nat.add_assoc]
  cases gapAt (offset + (byteLength gap + byteLength more)) cs with
  | error e => rfl
  | ok cut => exact congrArg (fun whole => Except.ok (whole, cut.2)) (List.append_assoc _ _ _).symm

theorem isGap_of_piece {piece more : List Char}
    (hpiece : ∀ offset cs, gapPiece offset (piece ++ (more ++ cs)) = .ok (some (piece, more ++ cs)))
    (hmore : IsGap more) : IsGap (piece ++ more) := by
  intro offset cs
  rw [List.append_assoc, gapAt_of_piece (hpiece offset cs), hmore, byteLength_append, Nat.add_assoc]
  cases gapAt (offset + (byteLength piece + byteLength more)) cs with
  | error e => rfl
  | ok cut => exact congrArg (fun whole => Except.ok (whole, cut.2)) (List.append_assoc _ _ _).symm

theorem isGap_blank {c : Char} (h : Text.isBlank c = true) : IsGap [c] :=
  fun offset cs => gapAt_of_piece (gapPiece_blank offset cs h)

theorem isGap_blanks {gap : List Char} (h : ∀ c ∈ gap, Text.isBlank c = true) : IsGap gap := by
  induction gap with
  | nil => exact isGap_nil
  | cons c gap ih =>
    exact (isGap_blank (h c List.mem_cons_self)).append
      (ih fun d hd => h d (List.mem_cons_of_mem c hd))

theorem isGap_of_gapAt {offset : Nat} {cs gap rest : List Char} {c : Char}
    (h : gapAt offset cs = .ok (gap, c :: rest)) : IsGap gap := by
  fun_induction gapAt offset cs generalizing gap with
  | case1 => cases h
  | case2 => cases h; exact isGap_nil
  | case3 => cases h
  | case4 offset cs piece tail hpiece more after hmore ih =>
    cases h
    refine isGap_of_piece (fun other cs' => gapPiece_more hpiece (fun hnewline => ?_) other) (ih hmore)
    have htail := gapAt_append hmore
    cases more with
    | nil =>
      -- Behind a line that is a whole gap stands its newline, which would be in the gap.
      have hopen := opensGap_of_gapAt hmore
      rw [hnewline c (by rw [← htail]; rfl)] at hopen
      cases hopen
    | cons d more =>
      rw [← htail] at hnewline
      exact hnewline

/-- A gap at the end of a text is one before every other text when its line is ended. -/
theorem isGap_newline {offset : Nat} {cs gap : List Char} (h : gapAt offset cs = .ok (gap, [])) :
    IsGap (gap ++ ['\n']) := by
  fun_induction gapAt offset cs generalizing gap with
  | case1 => cases h
  | case2 => cases h; exact isGap_blank rfl
  | case3 => cases h
  | case4 offset cs piece tail hpiece more after hmore ih =>
    cases h
    rw [List.append_assoc]
    refine isGap_of_piece (fun other cs' => gapPiece_more hpiece (fun hnewline => ?_) other) (ih hmore)
    have htail := gapAt_append hmore
    rw [List.append_nil] at htail
    cases more with
    | nil => exact fun d hd => (Option.some.inj hd).symm
    | cons e more =>
      rw [← htail] at hnewline
      exact hnewline

theorem not_isBlank_of_isAlphanum {c : Char} (h : c.isAlphanum = true) : Text.isBlank c = false := by
  rw [Char.isAlphanum, Bool.or_eq_true] at h
  rcases h with halpha | hdigit
  · exact not_isBlank_of_isIdentStart (by rw [isIdentStart, halpha, Bool.true_or])
  · exact not_isBlank_of_isDigit hdigit

theorem clashes_blank (kind : TokenKind) {c : Char} (h : Text.isBlank c = true) :
    kind.clashes c = false := by
  have hfree : ∀ d, Text.isBlank d = false → c ≠ d := fun d hd => Text.ne_of_class h hd
  have halphanum : c.isAlphanum = false := by
    rw [Bool.eq_false_iff]
    intro hc
    rw [not_isBlank_of_isAlphanum hc] at h
    cases h
  cases kind with
  | ident name => simp [TokenKind.clashes, isIdentRest, halphanum, hfree '_' rfl]
  | number text => simp [TokenKind.clashes, isNumberRest, halphanum, hfree '.' rfl]
  | punct p => simp [TokenKind.clashes, hfree '/' rfl, hfree '*' rfl]
  | _ => rfl

theorem tokensFrom_of_gapError {offset : Nat} {cs : List Char} {e : DeclarationError}
    (h : gapAt offset cs = .error e) : tokensFrom offset cs = .error e := by
  rw [tokensFrom]
  split
  · rename_i he; rw [h] at he; cases he; rfl
  · rename_i he; rw [h] at he; cases he
  · rename_i he; rw [h] at he; cases he

theorem tokensFrom_of_noToken {offset : Nat} {cs gap rest : List Char} {c : Char}
    (hgap : gapAt offset cs = .ok (gap, c :: rest)) (htoken : tokenAt c rest = none) :
    tokensFrom offset cs = .error (.unexpectedChar c (offset + byteLength gap)) := by
  rw [tokensFrom]
  split
  · rename_i he; rw [hgap] at he; cases he
  · rename_i he; rw [hgap] at he; cases he
  · rename_i he
    rw [hgap] at he
    cases he
    dsimp only
    split
    · rfl
    · rename_i ht; rw [htoken] at ht; cases ht

theorem tokensFrom_gap {gap : List Char} (h : IsGap gap) (offset : Nat) (cs : List Char) :
    tokensFrom offset (gap ++ cs) =
      (tokensFrom (offset + byteLength gap) cs).map (padHead gap) := by
  have hgap := h offset cs
  cases hcut : gapAt (offset + byteLength gap) cs with
  | error e =>
    rw [hcut] at hgap
    rw [tokensFrom_of_gapError hgap, tokensFrom_of_gapError hcut]
    rfl
  | ok cut =>
    obtain ⟨more, rest⟩ := cut
    rw [hcut] at hgap
    cases rest with
    | nil =>
      rw [tokensFrom_of_gap hgap, tokensFrom_of_gap hcut]
      rfl
    | cons c rest =>
      cases htoken : tokenAt c rest with
      | none =>
        rw [tokensFrom_of_noToken hgap htoken, tokensFrom_of_noToken hcut htoken, byteLength_append,
          Nat.add_assoc]
        rfl
      | some token =>
        obtain ⟨kind, after⟩ := token
        rw [tokensFrom_eq hgap htoken, tokensFrom_eq hcut htoken, byteLength_append, ← Nat.add_assoc]
        cases tokensFrom (offset + byteLength gap + byteLength more + byteLength kind.text) after <;> rfl

theorem tokensFrom_behind {offset : Nat} {gap rest : List Char} {kind : TokenKind}
    (hcut : gapAt offset (gap ++ (kind.text ++ rest)) =
      (gapAt (offset + byteLength gap) (kind.text ++ rest)).map fun (more, after) => (gap ++ more, after))
    (hsound : kind.isSound = true) (hclash : ∀ c ∈ rest.head?, kind.clashes c = false) :
    tokensFrom offset (gap ++ (kind.text ++ rest)) =
      (tokensFrom (offset + byteLength gap + byteLength kind.text) rest).map
        (⟨gap, kind, offset + byteLength gap⟩ :: ·) := by
  obtain ⟨c, after, hchars, htoken, hopen⟩ := tokenAt_text hsound hclash
  rw [hchars, gapAt_of_not_opensGap hopen] at hcut
  have hstart : gapAt offset (gap ++ c :: after) = .ok (gap, c :: after) := by
    rw [hcut]
    exact congrArg (fun whole => Except.ok (whole, c :: after)) (List.append_nil gap)
  rw [hchars, tokensFrom_eq hstart htoken]

theorem tokensFrom_token {gap rest : List Char} {kind : TokenKind} (hgap : IsGap gap)
    (hsound : kind.isSound = true) (hclash : ∀ c ∈ rest.head?, kind.clashes c = false) (offset : Nat) :
    tokensFrom offset (gap ++ (kind.text ++ rest)) =
      (tokensFrom (offset + byteLength gap + byteLength kind.text) rest).map
        (⟨gap, kind, offset + byteLength gap⟩ :: ·) :=
  tokensFrom_behind (hgap offset _) hsound hclash

/-- The tokens of a text do not depend on where it starts. -/
theorem tokensFrom_move (offset n : Nat) (cs : List Char) :
    tokensFrom (offset + n) cs = moveTokens n (tokensFrom offset cs) := by
  induction hlength : cs.length using Nat.strongRecOn generalizing offset cs with
  | _ length ih =>
    have hgap := gapAt_move offset n cs
    cases hcut : gapAt offset cs with
    | error e =>
      rw [hcut] at hgap
      rw [tokensFrom_of_gapError hgap, tokensFrom_of_gapError hcut]
      rfl
    | ok cut =>
      obtain ⟨gap, rest⟩ := cut
      rw [hcut] at hgap
      cases rest with
      | nil =>
        rw [tokensFrom_of_gap hgap, tokensFrom_of_gap hcut]
        rfl
      | cons c rest =>
        cases htoken : tokenAt c rest with
        | none =>
          rw [tokensFrom_of_noToken hgap htoken, tokensFrom_of_noToken hcut htoken,
            Nat.add_right_comm]
          rfl
        | some token =>
          obtain ⟨kind, after⟩ := token
          have hshort : after.length < length := by
            have h1 := gapAt_length hcut
            have h2 := tokenAt_length htoken
            rw [List.length_cons] at h1
            omega
          rw [tokensFrom_eq hgap htoken, tokensFrom_eq hcut htoken, Nat.add_right_comm offset,
            Nat.add_right_comm _ n, ih _ hshort _ _ rfl]
          cases tokensFrom (offset + byteLength gap + byteLength kind.text) after <;> rfl

theorem gapAt_of_noTokens {offset : Nat} {cs : List Char} (h : tokensFrom offset cs = .ok []) :
    gapAt offset cs = .ok (cs, []) := by
  cases hcut : gapAt offset cs with
  | error e =>
    rw [tokensFrom_of_gapError hcut] at h
    cases h
  | ok cut =>
    obtain ⟨gap, rest⟩ := cut
    cases rest with
    | nil =>
      have hwhole := gapAt_append hcut
      rw [List.append_nil] at hwhole
      rw [hwhole]
    | cons c rest =>
      cases htoken : tokenAt c rest with
      | none =>
        rw [tokensFrom_of_noToken hcut htoken] at h
        cases h
      | some token =>
        rw [tokensFrom_eq hcut htoken] at h
        cases hmore : tokensFrom (offset + byteLength gap + byteLength token.1.text) token.2 with
        | error e => rw [hmore] at h; cases h
        | ok ts => rw [hmore] at h; cases h

/-- A text behind a newline gets the tokens that it has on its own, behind those before it. -/
theorem tokensFrom_newline {offset : Nat} {cs : List Char} {ts : List Token}
    (h : tokensFrom offset cs = .ok ts) (more : List Char) :
    ∃ gap, tokensFrom offset (cs ++ '\n' :: more) =
      (tokensFrom (offset + byteLength cs + 1) more).map fun us => ts ++ padHead gap us := by
  induction ts generalizing offset cs with
  | nil =>
    have hgap := isGap_newline (gapAt_of_noTokens h)
    refine ⟨cs ++ ['\n'], ?_⟩
    have htokens := tokensFrom_gap hgap offset more
    rw [List.append_assoc, List.singleton_append, byteLength_append] at htokens
    exact htokens
  | cons t ts ih =>
    obtain ⟨c, rest, after, hcut, htoken, hmore⟩ := tokensFrom_cons h
    obtain ⟨hsound, hclash⟩ := tokenAt_sound htoken (opensGap_of_gapAt hcut)
    obtain ⟨gap, hgap⟩ := ih hmore
    refine ⟨gap, ?_⟩
    have hcs : cs = t.gap ++ (t.kind.text ++ after) := by
      rw [tokenAt_append htoken, gapAt_append hcut]
    have hclash' : ∀ d ∈ (after ++ '\n' :: more).head?, t.kind.clashes d = false := by
      intro d hd
      cases after with
      | nil => exact clashes_blank t.kind (by rw [← Option.some.inj hd]; rfl)
      | cons e after => exact hclash d hd
    have hstart : t = ⟨t.gap, t.kind, offset + byteLength t.gap⟩ := by
      have hround := tokensFrom_eq hcut htoken
      rw [h, hmore] at hround
      exact (List.cons.inj (Except.ok.inj hround)).1
    have hlength : byteLength cs = byteLength t.gap + byteLength t.kind.text + byteLength after := by
      rw [hcs, byteLength_append, byteLength_append, Nat.add_assoc]
    rw [hlength, ← Nat.add_assoc, ← Nat.add_assoc, hcs, List.append_assoc, List.append_assoc,
      tokensFrom_token (isGap_of_gapAt hcut) hsound hclash', hgap, ← hstart]
    cases tokensFrom (offset + byteLength t.gap + byteLength t.kind.text + byteLength after + 1) more <;>
      rfl

end NativeCatalogue
