import NativeCatalogue.Prototype.Token

set_option autoImplicit false

namespace NativeCatalogue

/-- The text up to the first end of a block comment, which is included, and the rest. -/
def closeComment? : List Char → Option (List Char × List Char)
  | [] => none
  | '*' :: '/' :: rest => some (['*', '/'], rest)
  | c :: rest => (closeComment? rest).map fun (body, after) => (c :: body, after)

theorem closeComment?_append {cs body after : List Char}
    (h : closeComment? cs = some (body, after)) : body ++ after = cs := by
  fun_induction closeComment? cs generalizing body after with
  | case1 => simp at h
  | case2 r => simp at h; simp [← h.1, ← h.2]
  | case3 c r _ ih =>
    obtain ⟨⟨b, a⟩, hb, he⟩ := Option.map_eq_some_iff.1 h
    simp at he
    rw [← he.1, ← he.2, List.cons_append, ih hb]

def lineGap (cs : List Char) : List Char × List Char :=
  (cs.takeWhile (· ≠ '\n'), cs.dropWhile (· ≠ '\n'))

/-- One piece of a gap: a blank, a line, or a block comment; `none` if there is none, and an error
    for a block comment without an end. -/
def gapPiece (offset : Nat) : List Char →
    Except DeclarationError (Option (List Char × List Char))
  | '/' :: '/' :: rest => .ok (some (lineGap ('/' :: '/' :: rest)))
  | '/' :: '*' :: rest =>
    match closeComment? rest with
    | some (body, after) => .ok (some ('/' :: '*' :: body, after))
    | none => .error (.unterminatedComment offset)
  | '#' :: rest => .ok (some (lineGap ('#' :: rest)))
  | c :: rest => if Text.isBlank c then .ok (some ([c], rest)) else .ok none
  | [] => .ok none

theorem lineGap_append (cs : List Char) : (lineGap cs).1 ++ (lineGap cs).2 = cs :=
  List.takeWhile_append_dropWhile

theorem gapPiece_append {offset : Nat} {cs piece rest : List Char}
    (h : gapPiece offset cs = .ok (some (piece, rest))) : piece ++ rest = cs ∧ piece ≠ [] := by
  unfold gapPiece at h
  split at h
  · rename_i r
    simp only [Except.ok.injEq, Option.some.injEq] at h
    have := lineGap_append ('/' :: '/' :: r)
    rw [h] at this
    refine ⟨this, ?_⟩
    have h1 : piece = (lineGap ('/' :: '/' :: r)).1 := by rw [h]
    simp [h1, lineGap]
  · split at h
    · rename_i hc
      simp at h
      rw [← h.1, ← h.2]
      simp [closeComment?_append hc]
    · simp at h
  · rename_i r
    simp only [Except.ok.injEq, Option.some.injEq] at h
    have := lineGap_append ('#' :: r)
    rw [h] at this
    refine ⟨this, ?_⟩
    have h1 : piece = (lineGap ('#' :: r)).1 := by rw [h]
    simp [h1, lineGap]
  · split at h
    · simp at h; simp [← h.1, ← h.2]
    · simp at h
  · simp at h

theorem gapPiece_length {offset : Nat} {cs piece rest : List Char}
    (h : gapPiece offset cs = .ok (some (piece, rest))) : rest.length < cs.length := by
  obtain ⟨h1, h2⟩ := gapPiece_append h
  have := List.length_pos_iff.2 h2
  rw [← h1, List.length_append]
  omega

def gapAt (offset : Nat) (cs : List Char) : Except DeclarationError (List Char × List Char) :=
  match _h : gapPiece offset cs with
  | .error e => .error e
  | .ok none => .ok ([], cs)
  | .ok (some (piece, rest)) =>
    match gapAt (offset + byteLength piece) rest with
    | .error e => .error e
    | .ok (gap, after) => .ok (piece ++ gap, after)
termination_by cs.length
decreasing_by exact gapPiece_length _h

def tokenAt (c : Char) (rest : List Char) : Option (TokenKind × List Char) :=
  if c = '*' then some (.star, rest)
  else if c = '(' then some (.openParen, rest)
  else if c = ')' then some (.closeParen, rest)
  else if c = ',' then some (.comma, rest)
  else if c = ';' then some (.semicolon, rest)
  else if isIdentStart c then
    some (.ident (.ofList (c :: rest.takeWhile isIdentRest)), rest.dropWhile isIdentRest)
  else if c.isDigit then
    some (.number (.ofList (c :: rest.takeWhile isNumberRest)), rest.dropWhile isNumberRest)
  else if isPunctuation c then some (.punct c, rest)
  else none

theorem tokenAt_append {c : Char} {rest after : List Char} {kind : TokenKind}
    (h : tokenAt c rest = some (kind, after)) : kind.text ++ after = c :: rest := by
  unfold tokenAt at h
  repeat' split at h
  all_goals simp only [Option.some.injEq, Prod.mk.injEq, reduceCtorEq] at h
  all_goals
    obtain ⟨h1, h2⟩ := h
    subst h1 h2
    simp_all [TokenKind.text]

theorem tokenAt_length {c : Char} {rest after : List Char} {kind : TokenKind}
    (h : tokenAt c rest = some (kind, after)) : after.length ≤ rest.length := by
  unfold tokenAt at h
  repeat' split at h
  all_goals simp at h
  all_goals
    obtain ⟨-, h2⟩ := h
    simp [← h2, JsonText.length_dropWhile_le]

theorem gapAt_append {offset : Nat} {cs gap rest : List Char}
    (h : gapAt offset cs = .ok (gap, rest)) : gap ++ rest = cs := by
  fun_induction gapAt offset cs generalizing gap rest with
  | case1 => simp at h
  | case2 => simp at h; simp [← h.1, ← h.2]
  | case3 => simp at h
  | case4 offset cs piece r hp g a hg ih =>
    simp at h
    rw [← h.1, ← h.2, List.append_assoc, ih hg, (gapPiece_append hp).1]

theorem gapAt_length {offset : Nat} {cs gap rest : List Char}
    (h : gapAt offset cs = .ok (gap, rest)) : rest.length ≤ cs.length := by
  rw [← gapAt_append h, List.length_append]
  omega

def tokensFrom (offset : Nat) (cs : List Char) : Except DeclarationError (List Token) :=
  match _h : gapAt offset cs with
  | .error e => .error e
  | .ok (_, []) => .ok []
  | .ok (gap, c :: rest) =>
    let start := offset + byteLength gap
    match _ht : tokenAt c rest with
    | none => .error (.unexpectedChar c start)
    | some (kind, after) =>
      match tokensFrom (start + byteLength kind.text) after with
      | .error e => .error e
      | .ok tokens => .ok (⟨gap, kind, start⟩ :: tokens)
termination_by cs.length
decreasing_by
  have h1 := gapAt_length _h
  have h2 := tokenAt_length _ht
  simp at h1
  omega

def tokenize (src : String) : Except DeclarationError (List Token) :=
  tokensFrom 0 src.toList

end NativeCatalogue
