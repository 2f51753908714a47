import Mathlib.Data.List.Chain
import NativeCatalogue.Proofs.Prototype.NormalForm
import NativeCatalogue.Proofs.Text.Character
import NativeCatalogue.Proofs.Text.Pieces

set_option autoImplicit false

namespace NativeCatalogue

inductive Lexeme where
  | blank (c : Char)
  | token (kind : TokenKind)

namespace Lexeme

def chars : Lexeme → List Char
  | .blank c => [c]
  | .token kind => kind.text

def kind? : Lexeme → Option TokenKind
  | .blank _ => none
  | .token kind => some kind

end Lexeme

def lexemeChars (ls : List Lexeme) : List Char :=
  ls.flatMap Lexeme.chars

def kindsOf (ls : List Lexeme) : List TokenKind :=
  ls.filterMap Lexeme.kind?

def tokensOf (offset : Nat) (gap : List Char) : List Lexeme → List Token
  | [] => []
  | .blank c :: rest => tokensOf offset (gap ++ [c]) rest
  | .token kind :: rest =>
    ⟨gap, kind, offset + byteLength gap⟩ ::
      tokensOf (offset + byteLength gap + byteLength kind.text) [] rest

namespace TokenKind

def takenPunctuation : List Char :=
  ['*', '(', ')', ',', ';', '_', '#']

def isSound : TokenKind → Bool
  | .ident name => isIdentifier name
  | .number text =>
    match text.toList with
    | [] => false
    | c :: rest => c.isDigit && rest.all isNumberRest
  | .punct c => isPunctuation c && !takenPunctuation.contains c
  | _ => true

def clashes (kind : TokenKind) (c : Char) : Bool :=
  match kind with
  | .ident _ => isIdentRest c
  | .number _ => isNumberRest c
  | .punct p => p = '/' && (c = '/' || c = '*')
  | _ => false

end TokenKind

namespace Lexeme

def isSound : Lexeme → Bool
  | .blank c => Text.isBlank c
  | .token kind => kind.isSound

def MayPrecede : Lexeme → Lexeme → Prop
  | .blank _, _ => True
  | .token kind, next => ∀ c ∈ next.chars.head?, kind.clashes c = false

end Lexeme

/-- Lexemes whose text shows where each of them ends. -/
structure Separated (ls : List Lexeme) : Prop where
  sound : ∀ l ∈ ls, l.isSound = true
  chain : ls.IsChain Lexeme.MayPrecede

@[simp] theorem lexemeChars_nil : lexemeChars [] = [] := rfl

@[simp] theorem lexemeChars_cons (l : Lexeme) (ls : List Lexeme) :
    lexemeChars (l :: ls) = l.chars ++ lexemeChars ls := rfl

@[simp] theorem lexemeChars_append (ls ms : List Lexeme) :
    lexemeChars (ls ++ ms) = lexemeChars ls ++ lexemeChars ms :=
  List.flatMap_append

theorem lexemeChars_blanks (gap : List Char) : lexemeChars (gap.map .blank) = gap := by
  induction gap with
  | nil => rfl
  | cons c gap ih => rw [List.map_cons, lexemeChars_cons, ih]; rfl

@[simp] theorem kindsOf_token (kind : TokenKind) (ls : List Lexeme) :
    kindsOf (.token kind :: ls) = kind :: kindsOf ls := rfl

@[simp] theorem kindsOf_append (ls ms : List Lexeme) :
    kindsOf (ls ++ ms) = kindsOf ls ++ kindsOf ms :=
  List.filterMap_append

@[simp] theorem byteLength_append (as bs : List Char) :
    byteLength (as ++ bs) = byteLength as + byteLength bs := by
  simp [byteLength]

theorem separated_nil : Separated [] :=
  ⟨fun _ h => absurd h List.not_mem_nil, .nil⟩

theorem Separated.tail {l : Lexeme} {ls : List Lexeme} (h : Separated (l :: ls)) : Separated ls :=
  ⟨fun m hm => h.sound m (List.mem_cons_of_mem l hm), h.chain.tail⟩

theorem Separated.append {ls ms : List Lexeme} (hl : Separated ls) (hm : Separated ms)
    (h : ∀ l ∈ ls.getLast?, ∀ m ∈ ms.head?, l.MayPrecede m) : Separated (ls ++ ms) := by
  refine ⟨fun l hmem => ?_, List.isChain_append.2 ⟨hl.chain, hm.chain, h⟩⟩
  rcases List.mem_append.1 hmem with hmem | hmem
  · exact hl.sound l hmem
  · exact hm.sound l hmem

theorem text_ne_nil {kind : TokenKind} (h : kind.isSound = true) : kind.text ≠ [] := by
  cases kind with
  | ident name =>
    intro h0
    simp only [TokenKind.text] at h0
    simp [TokenKind.isSound, isIdentifier, h0] at h
  | number text =>
    intro h0
    simp only [TokenKind.text] at h0
    simp [TokenKind.isSound, h0] at h
  | _ => simp [TokenKind.text]

theorem chars_ne_nil {l : Lexeme} (h : l.isSound = true) : l.chars ≠ [] := by
  cases l with
  | blank c => exact List.cons_ne_nil c []
  | token kind => exact text_ne_nil h

theorem Separated.not_clashes {kind : TokenKind} {ls : List Lexeme}
    (h : Separated (.token kind :: ls)) : ∀ c ∈ (lexemeChars ls).head?, kind.clashes c = false := by
  cases ls with
  | nil => intro c hc; simp at hc
  | cons l ls =>
    intro c hc
    have hne := chars_ne_nil (h.sound l (by simp))
    rw [lexemeChars_cons, List.head?_append_of_ne_nil _ hne] at hc
    exact (List.isChain_cons_cons.1 h.chain).1 c hc

def opensGap : List Char → Bool
  | '/' :: '/' :: _ => true
  | '/' :: '*' :: _ => true
  | '#' :: _ => true
  | c :: _ => Text.isBlank c
  | [] => false

theorem gapPiece_eq_none_iff {offset : Nat} {cs : List Char} :
    gapPiece offset cs = .ok none ↔ opensGap cs = false := by
  unfold gapPiece
  split
  · simp [opensGap]
  · split <;> simp [opensGap]
  · simp [opensGap]
  · rename_i c rest hline hblock hsign
    have hopens : opensGap (c :: rest) = Text.isBlank c := by rw [opensGap] <;> assumption
    rw [hopens]
    cases Text.isBlank c <;> simp
  · simp [opensGap]

theorem gapPiece_blank (offset : Nat) {c : Char} (cs : List Char) (h : Text.isBlank c = true) :
    gapPiece offset (c :: cs) = .ok (some ([c], cs)) := by
  have hslash : c ≠ '/' := fun he => by rw [he] at h; exact absurd h (by decide)
  have hsign : c ≠ '#' := fun he => by rw [he] at h; exact absurd h (by decide)
  unfold gapPiece
  split
  · rename_i he; exact absurd (List.cons.inj he).1 hslash
  · rename_i he; exact absurd (List.cons.inj he).1 hslash
  · rename_i he; exact absurd (List.cons.inj he).1 hsign
  · rename_i he
    obtain ⟨rfl, rfl⟩ := List.cons.inj he
    rw [if_pos h]
  · rename_i he; exact absurd he (List.cons_ne_nil c cs)

theorem gapAt_of_not_opensGap {offset : Nat} {cs : List Char} (h : opensGap cs = false) :
    gapAt offset cs = .ok ([], cs) := by
  rw [gapAt]
  split
  · rename_i he; rw [gapPiece_eq_none_iff.2 h] at he; cases he
  · rfl
  · rename_i he; rw [gapPiece_eq_none_iff.2 h] at he; cases he

theorem gapAt_blanks {gap cs : List Char} (hgap : ∀ c ∈ gap, Text.isBlank c = true)
    (h : opensGap cs = false) (offset : Nat) : gapAt offset (gap ++ cs) = .ok (gap, cs) := by
  induction gap generalizing offset with
  | nil => exact gapAt_of_not_opensGap h
  | cons c gap ih =>
    have hc := gapPiece_blank offset (gap ++ cs) (hgap c (by simp))
    rw [List.cons_append, gapAt]
    split
    · rename_i he; rw [hc] at he; cases he
    · rename_i he; rw [hc] at he; cases he
    · rename_i he
      rw [hc] at he
      cases he
      rw [ih fun d hd => hgap d (List.mem_cons_of_mem c hd)]
      rfl

theorem opensGap_of_gapAt {offset : Nat} {cs gap rest : List Char}
    (h : gapAt offset cs = .ok (gap, rest)) : opensGap rest = false := by
  fun_induction gapAt offset cs generalizing gap rest with
  | case1 => cases h
  | case2 offset cs hp => cases h; exact gapPiece_eq_none_iff.1 hp
  | case3 => cases h
  | case4 offset cs piece r hp g a hg ih => cases h; exact ih hg

theorem isIdentStart_iff {c : Char} : isIdentStart c = true ↔
    ((65 ≤ c.toNat ∧ c.toNat ≤ 90) ∨ (97 ≤ c.toNat ∧ c.toNat ≤ 122)) ∨ c.toNat = 95 := by
  rw [isIdentStart, Bool.or_eq_true, Text.isAlpha_iff, decide_eq_true_eq, ← Char.toNat_inj]
  exact Iff.rfl

theorem not_isIdentStart_of_isDigit {c : Char} (h : c.isDigit = true) : isIdentStart c = false := by
  rw [Bool.eq_false_iff, ne_eq, isIdentStart_iff]
  rw [Text.isDigit_iff] at h
  omega

theorem not_isBlank_of_isIdentStart {c : Char} (h : isIdentStart c = true) :
    Text.isBlank c = false := by
  rw [isIdentStart_iff] at h
  exact Text.not_isBlank_of_visible (by omega)

theorem not_isBlank_of_isDigit {c : Char} (h : c.isDigit = true) : Text.isBlank c = false := by
  rw [Text.isDigit_iff] at h
  exact Text.not_isBlank_of_visible (by omega)

theorem isPunctuation_iff {c : Char} : isPunctuation c = true ↔
    ((33 ≤ c.toNat ∧ c.toNat ≤ 47 ∨ 58 ≤ c.toNat ∧ c.toNat ≤ 64) ∨
      91 ≤ c.toNat ∧ c.toNat ≤ 96) ∨ 123 ≤ c.toNat ∧ c.toNat ≤ 126 := by
  simp only [isPunctuation, Bool.or_eq_true, Bool.and_eq_true, decide_eq_true_eq]

theorem not_isBlank_of_isPunctuation {c : Char} (h : isPunctuation c = true) :
    Text.isBlank c = false := by
  rw [isPunctuation_iff] at h
  exact Text.not_isBlank_of_visible (by omega)

theorem tokenAt_ident {c : Char} {word rest : List Char} (hc : isIdentStart c = true)
    (hword : word.all isIdentRest = true) (hrest : ∀ d ∈ rest.head?, isIdentRest d = false) :
    tokenAt c (word ++ rest) = some (.ident (.ofList (c :: word)), rest) := by
  obtain ⟨ht, hd⟩ := List.takeWhile_append_of_head hword hrest
  rw [tokenAt, if_neg (Text.ne_of_class hc (by decide)), if_neg (Text.ne_of_class hc (by decide)),
    if_neg (Text.ne_of_class hc (by decide)), if_neg (Text.ne_of_class hc (by decide)),
    if_neg (Text.ne_of_class hc (by decide)), if_pos hc, ht, hd]

theorem tokenAt_number {c : Char} {word rest : List Char} (hc : c.isDigit = true)
    (hword : word.all isNumberRest = true) (hrest : ∀ d ∈ rest.head?, isNumberRest d = false) :
    tokenAt c (word ++ rest) = some (.number (.ofList (c :: word)), rest) := by
  obtain ⟨ht, hd⟩ := List.takeWhile_append_of_head hword hrest
  rw [tokenAt, if_neg (Text.ne_of_class hc (by decide)), if_neg (Text.ne_of_class hc (by decide)),
    if_neg (Text.ne_of_class hc (by decide)), if_neg (Text.ne_of_class hc (by decide)),
    if_neg (Text.ne_of_class hc (by decide)), if_neg (by rw [not_isIdentStart_of_isDigit hc]; simp),
    if_pos hc, ht, hd]

theorem tokenAt_punct {c : Char} {rest : List Char} (hc : isPunctuation c = true)
    (hfree : TokenKind.takenPunctuation.contains c = false) :
    tokenAt c rest = some (.punct c, rest) := by
  simp only [TokenKind.takenPunctuation, List.contains_eq_mem, List.mem_cons, List.not_mem_nil,
    or_false, not_or, decide_eq_false_iff_not] at hfree
  obtain ⟨h1, h2, h3, h4, h5, h6, -⟩ := hfree
  have hstart : isIdentStart c = false := by
    rw [Bool.eq_false_iff, ne_eq, isIdentStart_iff]
    rw [isPunctuation_iff] at hc
    have h6 : c.toNat ≠ 95 := fun he => h6 (Char.toNat_inj.1 he)
    omega
  have hdigit : c.isDigit = false := by
    rw [Bool.eq_false_iff, ne_eq, Text.isDigit_iff]
    rw [isPunctuation_iff] at hc
    omega
  rw [tokenAt, if_neg h1, if_neg h2, if_neg h3, if_neg h4, if_neg h5, if_neg (by rw [hstart]; simp),
    if_neg (by rw [hdigit]; simp), if_pos hc]

theorem opensGap_eq_false {c : Char} {rest : List Char} (hblank : Text.isBlank c = false)
    (hsign : c ≠ '#') (hslash : c = '/' → ∀ d ∈ rest.head?, d ≠ '/' ∧ d ≠ '*') :
    opensGap (c :: rest) = false := by
  unfold opensGap
  split
  · rename_i he
    obtain ⟨rfl, rfl⟩ := List.cons.inj he
    exact absurd rfl (hslash rfl '/' rfl).1
  · rename_i he
    obtain ⟨rfl, rfl⟩ := List.cons.inj he
    exact absurd rfl (hslash rfl '*' rfl).2
  · rename_i he
    exact absurd (List.cons.inj he).1 hsign
  · rename_i he
    rw [← (List.cons.inj he).1]
    exact hblank
  · rfl

theorem tokenAt_text {kind : TokenKind} {rest : List Char} (h : kind.isSound = true)
    (hrest : ∀ c ∈ rest.head?, kind.clashes c = false) : ∃ c after, kind.text ++ rest = c :: after ∧
      tokenAt c after = some (kind, rest) ∧ opensGap (c :: after) = false := by
  have plain : ∀ c : Char, ∀ cs : List Char, Text.isBlank c = false → c ≠ '#' → c ≠ '/' →
      opensGap (c :: cs) = false :=
    fun c cs hb hs hd => opensGap_eq_false hb hs fun he => absurd he hd
  cases kind with
  | star => exact ⟨'*', rest, rfl, rfl, plain _ _ (by decide) (by decide) (by decide)⟩
  | openParen => exact ⟨'(', rest, rfl, rfl, plain _ _ (by decide) (by decide) (by decide)⟩
  | closeParen => exact ⟨')', rest, rfl, rfl, plain _ _ (by decide) (by decide) (by decide)⟩
  | comma => exact ⟨',', rest, rfl, rfl, plain _ _ (by decide) (by decide) (by decide)⟩
  | semicolon => exact ⟨';', rest, rfl, rfl, plain _ _ (by decide) (by decide) (by decide)⟩
  | ident name =>
    simp only [TokenKind.isSound, isIdentifier] at h
    cases hname : name.toList with
    | nil => rw [hname] at h; cases h
    | cons c word =>
      rw [hname, Bool.and_eq_true] at h
      refine ⟨c, word ++ rest, by rw [TokenKind.text, hname, List.cons_append], ?_, ?_⟩
      · rw [tokenAt_ident h.1 h.2 hrest, ← hname, String.ofList_toList]
      · exact plain _ _ (not_isBlank_of_isIdentStart h.1) (Text.ne_of_class h.1 (by decide))
          (Text.ne_of_class h.1 (by decide))
  | number text =>
    simp only [TokenKind.isSound] at h
    cases htext : text.toList with
    | nil => rw [htext] at h; cases h
    | cons c word =>
      rw [htext, Bool.and_eq_true] at h
      refine ⟨c, word ++ rest, by rw [TokenKind.text, htext, List.cons_append], ?_, ?_⟩
      · rw [tokenAt_number h.1 h.2 hrest, ← htext, String.ofList_toList]
      · exact plain _ _ (not_isBlank_of_isDigit h.1) (Text.ne_of_class h.1 (by decide))
          (Text.ne_of_class h.1 (by decide))
  | punct p =>
    simp only [TokenKind.isSound, Bool.and_eq_true, Bool.not_eq_true'] at h
    refine ⟨p, rest, rfl, tokenAt_punct h.1 h.2, ?_⟩
    refine opensGap_eq_false (not_isBlank_of_isPunctuation h.1) ?_ ?_
    · intro he
      rw [he] at h
      exact absurd h.2 (by decide)
    · intro he d hd
      have hclash := hrest d hd
      simpa [TokenKind.clashes, he] using hclash

end NativeCatalogue
