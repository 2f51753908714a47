import NativeCatalogue.Proofs.Prototype.Lexing
import NativeCatalogue.Proofs.Text.Words
import NativeCatalogue.Prototype.Parser

set_option autoImplicit false

namespace NativeCatalogue

def SpellsFrom (gap : List Char) (ts : List Token) (ls : List Lexeme) : Prop :=
  ∃ offset, ts = tokensOf offset gap ls

def Spells (ts : List Token) (ls : List Lexeme) : Prop :=
  ∃ gap, SpellsFrom gap ts ls

theorem SpellsFrom.blanks {gap more : List Char} {ts : List Token} {ls : List Lexeme}
    (h : SpellsFrom gap ts (more.map .blank ++ ls)) : SpellsFrom (gap ++ more) ts ls := by
  induction more generalizing gap with
  | nil => rw [List.append_nil]; exact h
  | cons c more ih =>
    have hmore : SpellsFrom (gap ++ [c] ++ more) ts ls := ih h
    rwa [List.append_assoc] at hmore

theorem SpellsFrom.token {gap : List Char} {ts : List Token} {kind : TokenKind} {ls : List Lexeme}
    (h : SpellsFrom gap ts (.token kind :: ls)) :
    ∃ start rest, ts = ⟨gap, kind, start⟩ :: rest ∧ SpellsFrom [] rest ls := by
  obtain ⟨offset, rfl⟩ := h
  exact ⟨_, _, rfl, _, rfl⟩

theorem Spells.nil {ts : List Token} (h : Spells ts []) : ts = [] := by
  obtain ⟨gap, offset, rfl⟩ := h
  rfl

theorem Spells.blank {ts : List Token} {c : Char} {ls : List Lexeme}
    (h : Spells ts (.blank c :: ls)) : Spells ts ls := by
  obtain ⟨gap, offset, rfl⟩ := h
  exact ⟨gap ++ [c], offset, rfl⟩

theorem Spells.token {ts : List Token} {kind : TokenKind} {ls : List Lexeme}
    (h : Spells ts (.token kind :: ls)) :
    ∃ t rest, ts = t :: rest ∧ t.kind = kind ∧ Spells rest ls := by
  obtain ⟨gap, h⟩ := h
  obtain ⟨start, rest, rfl, hrest⟩ := h.token
  exact ⟨_, rest, rfl, rfl, [], hrest⟩

theorem Spells.kinds {ts : List Token} {ls : List Lexeme} (h : Spells ts ls) :
    ts.map Token.kind = kindsOf ls := by
  induction ls generalizing ts with
  | nil => rw [h.nil]; rfl
  | cons l ls ih =>
    cases l with
    | blank c => exact ih h.blank
    | token kind =>
      obtain ⟨t, rest, rfl, hkind, hrest⟩ := h.token
      rw [List.map_cons, hkind, ih hrest, kindsOf_token]

theorem Token.ident?_eq_some_iff {t : Token} {word : String} :
    t.ident? = some word ↔ t.kind = .ident word := by
  cases h : t.kind <;> simp [Token.ident?, h]

theorem Token.ident?_eq {t : Token} {word : String} (h : t.kind = .ident word) :
    t.ident? = some word :=
  Token.ident?_eq_some_iff.2 h

namespace Prototype

theorem expect_eq_ok {kind : TokenKind} {expected : Expectation} {ts rest : List Token} {x : Unit} :
    expect kind expected ts = .ok (x, rest) ↔ ∃ t, ts = t :: rest ∧ t.kind = kind := by
  constructor
  · intro h
    cases ts with
    | nil => cases h
    | cons t ts =>
      rw [expect] at h
      split at h
      · rename_i hkind
        cases h
        exact ⟨t, rfl, hkind⟩
      · cases h
  · rintro ⟨t, rfl, hkind⟩
    rw [expect, if_pos hkind]

theorem expectIdent_eq_ok {expected : Expectation} {word : String} {offset : Nat}
    {ts rest : List Token} : expectIdent expected ts = .ok ((word, offset), rest) ↔
      ∃ t, ts = t :: rest ∧ t.kind = .ident word ∧ t.start = offset ∧
        AnnotationKind.ofKeyword? word = none := by
  constructor
  · intro h
    cases ts with
    | nil => cases h
    | cons t ts =>
      rw [expectIdent] at h
      split at h
      · rename_i name hname
        split at h
        · rename_i hkeyword
          cases h
          exact ⟨t, rfl, Token.ident?_eq_some_iff.1 hname, rfl, Option.isNone_iff_eq_none.1 hkeyword⟩
        · cases h
      · cases h
  · rintro ⟨t, rfl, hkind, rfl, hkeyword⟩
    rw [expectIdent, Token.ident?_eq hkind]
    exact if_pos (Option.isNone_iff_eq_none.2 hkeyword)

theorem expect_spells {ts : List Token} {kind : TokenKind} {ls : List Lexeme}
    (h : Spells ts (.token kind :: ls)) (expected : Expectation) :
    ∃ rest, expect kind expected ts = .ok ((), rest) ∧ Spells rest ls := by
  obtain ⟨t, rest, rfl, hkind, hrest⟩ := h.token
  exact ⟨rest, expect_eq_ok.2 ⟨t, rfl, hkind⟩, hrest⟩

theorem expectIdent_spells {ts : List Token} {word : String} {ls : List Lexeme}
    (h : Spells ts (.token (.ident word) :: ls)) (hword : AnnotationKind.ofKeyword? word = none)
    (expected : Expectation) :
    ∃ offset rest, expectIdent expected ts = .ok ((word, offset), rest) ∧ Spells rest ls := by
  obtain ⟨t, rest, rfl, hkind, hrest⟩ := h.token
  exact ⟨t.start, rest, expectIdent_eq_ok.2 ⟨t, rfl, hkind, rfl, hword⟩, hrest⟩

theorem eatConst_const {ts : List Token} {ls : List Lexeme}
    (h : Spells ts (.token (.ident "const") :: ls)) :
    ∃ rest, eatConst ts = (true, rest) ∧ Spells rest ls := by
  obtain ⟨t, rest, rfl, hkind, hrest⟩ := h.token
  exact ⟨rest, by rw [eatConst, if_pos (Token.ident?_eq hkind)], hrest⟩

theorem eatConst_of_head {ts : List Token} {ls : List Lexeme} (h : Spells ts ls)
    (hne : (kindsOf ls).head? ≠ some (.ident "const")) : eatConst ts = (false, ts) := by
  rw [← h.kinds] at hne
  cases ts with
  | nil => rfl
  | cons t rest =>
    rw [eatConst, if_neg]
    intro ht
    rw [Token.ident?_eq_some_iff] at ht
    exact hne (by rw [List.map_cons, ht]; rfl)

theorem eatSemicolon_spells {ts : List Token} {ls : List Lexeme}
    (h : Spells ts (.token .semicolon :: ls)) : Spells (eatSemicolon ts) ls := by
  obtain ⟨t, rest, rfl, hkind, hrest⟩ := h.token
  rw [eatSemicolon, if_pos hkind]
  exact hrest

end Prototype

def wordLexemes (words : List String) : List Lexeme :=
  words.flatMap fun word => [.blank ' ', .token (.ident word)]

def nameLexemes : List String → List Lexeme
  | [] => []
  | first :: more => .token (.ident first) :: wordLexemes more

def starLexemes (count : Nat) : List Lexeme :=
  List.replicate count (.token .star)

def TypeSpec.lexemes (t : TypeSpec) : List Lexeme :=
  (if t.isConst then [.token (.ident "const"), .blank ' '] else []) ++ nameLexemes t.words ++
    starLexemes t.pointerDepth.toNat

theorem Vocabulary.word_of_find? {word : String} (h : (Vocabulary.find? word).isSome = true) :
    isIdentifier word = true ∧ AnnotationKind.ofKeyword? word = none ∧ word ≠ "const" := by
  have all : ∀ e ∈ Vocabulary.entries,
      isIdentifier e.name = true ∧ AnnotationKind.ofKeyword? e.name = none ∧ e.name ≠ "const" := by
    decide +kernel
  obtain ⟨e, he, hname⟩ := List.find?_isSome.1 h
  rw [← of_decide_eq_true hname]
  exact all e he

theorem Vocabulary.isBuiltin_of_modifier {word : String}
    (h : Vocabulary.modifiers.contains word = true) : Vocabulary.isBuiltin word = true := by
  have all : ∀ w ∈ Vocabulary.modifiers, Vocabulary.isBuiltin w = true := by decide +kernel
  exact all word (List.contains_iff_mem.1 h)

theorem Vocabulary.find?_of_isBuiltin {word : String} (h : Vocabulary.isBuiltin word = true) :
    (Vocabulary.find? word).isSome = true := by
  unfold Vocabulary.isBuiltin at h
  split at h
  · rename_i e he; rw [he]; rfl
  · cases h

theorem TypeSpec.intercalate_words (t : TypeSpec) : " ".intercalate t.words = t.name := by
  rw [TypeSpec.words, Text.intercalate_space, Text.join_cutAt, String.ofList_toList]

namespace Prototype

theorem readType_eq_ok {ts rest : List Token} {t : TypeSpec} : readType ts = .ok (t, rest) ↔
    ∃ first offset after, expectIdent .typeName (eatConst ts).2 = .ok ((first, offset), after) ∧
      let more := readMoreWords first after
      let stars := readStars 0 false (eatConst more.2).2
      (Vocabulary.find? (more.1.getLast?.getD first)).isSome = true ∧
      t = ⟨" ".intercalate (first :: more.1), (eatConst ts).1 || (eatConst more.2).1, stars.1⟩ ∧
      rest = stars.2 := by
  unfold readType
  constructor
  · intro h
    obtain ⟨⟨⟨first, offset⟩, after⟩, hfirst, h⟩ := bind_eq_ok.1 h
    dsimp only at h
    split at h
    · cases h
    · rename_i hknown
      rw [← Option.not_isSome, Bool.not_eq_true', Bool.not_eq_false] at hknown
      cases h
      exact ⟨first, offset, after, hfirst, hknown, rfl, rfl⟩
  · rintro ⟨first, offset, after, hfirst, hknown, rfl, rfl⟩
    refine bind_eq_ok.2 ⟨_, hfirst, if_neg ?_⟩
    rw [Option.isNone_iff_eq_none]
    exact Option.isSome_iff_ne_none.1 hknown

theorem readMoreWords_spells (last : String) {words : List String} {ts : List Token}
    {ls : List Lexeme} (h : Spells ts (wordLexemes words ++ ls))
    (hmodifiers : ∀ word ∈ (last :: words).dropLast, Vocabulary.modifiers.contains word = true)
    (hbuiltin : ∀ word ∈ words, Vocabulary.isBuiltin word = true)
    (hend : ∀ word, (kindsOf ls).head? = some (.ident word) →
      (Vocabulary.modifiers.contains (words.getLast?.getD last) && Vocabulary.isBuiltin word) = false) :
    ∃ rest, readMoreWords last ts = (words, rest) ∧ Spells rest ls := by
  induction words generalizing last ts with
  | nil =>
    refine ⟨ts, ?_, h⟩
    have hk := h.kinds
    cases ts with
    | nil => rfl
    | cons t rest =>
      rw [readMoreWords]
      split
      · rename_i word hword
        rw [List.map_cons, Token.ident?_eq_some_iff.1 hword] at hk
        have := hend word (by rw [show kindsOf ls = _ from hk.symm]; rfl)
        rw [if_neg]
        rw [List.getLast?_nil, Option.getD_none] at this
        rw [this]
        exact Bool.false_ne_true
      · rfl
  | cons word words ih =>
    obtain ⟨t, rest, rfl, hkind, hrest⟩ := (Spells.blank h).token
    obtain ⟨after, hmore, hafter⟩ := ih word hrest
      (fun w hw => hmodifiers w (by
        rw [List.dropLast_cons_of_ne_nil (List.cons_ne_nil _ _)]; exact List.mem_cons_of_mem _ hw))
      (fun w hw => hbuiltin w (List.mem_cons_of_mem _ hw))
      (fun w hw => by
        have := hend w hw
        rwa [List.getLast?_cons, Option.getD_some] at this)
    have hlast : Vocabulary.modifiers.contains last = true :=
      hmodifiers last (by rw [List.dropLast_cons_of_ne_nil (List.cons_ne_nil _ _)]; simp)
    refine ⟨after, ?_, hafter⟩
    rw [readMoreWords, Token.ident?_eq hkind]
    simp only [hlast, hbuiltin word (by simp), Bool.and_self, if_true, hmore]

theorem addStar_toNat (depth : UInt8) (h : depth.toNat < 255) :
    (addStar depth).toNat = depth.toNat + 1 := by
  have hne : depth ≠ 255 := fun he => by rw [he] at h; exact absurd h (by decide)
  rw [addStar, if_neg hne, UInt8.toNat_add]
  simp only [UInt8.reduceToNat]
  omega

theorem readStars_spells {count : Nat} (depth : UInt8) (afterStar : Bool) {ts : List Token}
    {ls : List Lexeme} (h : Spells ts (starLexemes count ++ ls))
    (hcount : depth.toNat + count ≤ 255) (hstar : (kindsOf ls).head? ≠ some .star)
    (hconst : (kindsOf ls).head? ≠ some (.ident "const")) :
    ∃ rest, readStars depth afterStar ts = (.ofNat (depth.toNat + count), rest) ∧ Spells rest ls := by
  induction count generalizing depth afterStar ts with
  | zero =>
    refine ⟨ts, ?_, h⟩
    rw [Nat.add_zero, UInt8.ofNat_toNat]
    have hk : ts.map Token.kind = kindsOf ls := Spells.kinds h
    cases ts with
    | nil => rfl
    | cons t rest =>
      rw [List.map_cons] at hk
      rw [← hk, List.head?_cons] at hstar hconst
      rw [readStars, if_neg fun he => hstar (by rw [he]), if_neg]
      intro he
      rw [Bool.and_eq_true, decide_eq_true_eq, Token.ident?_eq_some_iff] at he
      exact hconst (by rw [he.2])
  | succ count ih =>
    obtain ⟨t, rest, rfl, hkind, hrest⟩ := Spells.token h
    have hstep := addStar_toNat depth (by omega)
    obtain ⟨after, hread, hafter⟩ := ih (addStar depth) true hrest (by omega)
    refine ⟨after, ?_, hafter⟩
    rw [readStars, if_pos hkind, hread, hstep, Nat.add_right_comm, Nat.add_assoc]

end Prototype

theorem TypeSpec.words_of_isNormal {t : TypeSpec} (h : t.isNormal = true) : ∃ first more,
    t.words = first :: more ∧ t.lastWord = more.getLast?.getD first ∧
    (∀ word ∈ (first :: more).dropLast, Vocabulary.modifiers.contains word = true) ∧
    (∀ word ∈ more, Vocabulary.isBuiltin word = true) ∧
    (∀ word ∈ first :: more, (Vocabulary.find? word).isSome = true) ∧
    (Vocabulary.find? t.lastWord).isSome = true := by
  simp only [TypeSpec.isNormal, Bool.and_eq_true, Bool.or_eq_true] at h
  obtain ⟨⟨hmodifiers, hlast⟩, hbuiltin⟩ := h
  have hmodifiers := List.all_eq_true.1 hmodifiers
  cases hwords : t.words with
  | nil =>
    rw [TypeSpec.words, List.map_eq_nil_iff] at hwords
    exact absurd hwords (Text.cutAt_ne_nil _ _)
  | cons first more =>
    have hlastWord : t.lastWord = more.getLast?.getD first := by
      rw [TypeSpec.lastWord, hwords, List.getLast?_cons, Option.getD_some]
    have hget : (first :: more).getLast? = some t.lastWord := by
      rw [List.getLast?_cons, hlastWord]
    obtain ⟨init, hinit⟩ := List.getLast?_eq_some_iff.1 hget
    have hdrop : (first :: more).dropLast = init := by rw [hinit, List.dropLast_concat]
    rw [hwords, hdrop] at hmodifiers hbuiltin
    refine ⟨first, more, rfl, hlastWord, by rwa [hdrop], ?_, ?_, hlast⟩
    · intro word hword
      have hmem : word ∈ init ++ [t.lastWord] := hinit ▸ List.mem_cons_of_mem first hword
      rcases List.mem_append.1 hmem with hmem | hmem
      · exact Vocabulary.isBuiltin_of_modifier (hmodifiers word hmem)
      · rw [List.mem_singleton.1 hmem]
        rcases hbuiltin with hempty | hbuiltin
        · rw [← hdrop, List.dropLast_cons_of_ne_nil (List.ne_nil_of_mem hword)] at hempty
          cases hempty
        · exact hbuiltin
    · intro word hword
      rw [hinit] at hword
      rcases List.mem_append.1 hword with hword | hword
      · exact Vocabulary.find?_of_isBuiltin
          (Vocabulary.isBuiltin_of_modifier (hmodifiers word hword))
      · rw [List.mem_singleton.1 hword]; exact hlast

namespace Prototype

structure EndsBefore (t : TypeSpec) (next : Option TokenKind) : Prop where
  star : next ≠ some .star
  const : next ≠ some (.ident "const")
  word : ∀ word, next = some (.ident word) → t.absorbs word = false

/-- A type without stars ends before a builtin word only if its own last word is no modifier. -/
theorem EndsBefore.last {t : TypeSpec} {ls : List Lexeme} (h : EndsBefore t (kindsOf ls).head?)
    (word : String)
    (hword : (kindsOf (starLexemes t.pointerDepth.toNat ++ ls)).head? = some (.ident word)) :
    (Vocabulary.modifiers.contains t.lastWord && Vocabulary.isBuiltin word) = false := by
  cases hdepth : t.pointerDepth.toNat with
  | succ n =>
    rw [hdepth] at hword
    cases hword
  | zero =>
    rw [hdepth] at hword
    have hvalue : t.isPointer = false := by
      rw [TypeSpec.isPointer, decide_eq_false_iff_not, UInt8.lt_iff_toNat_lt, hdepth]
      exact Nat.lt_irrefl 0
    have habsorbs := h.word word hword
    rwa [TypeSpec.absorbs, hvalue, Bool.not_false, Bool.true_and] at habsorbs

theorem eatConst_type {t : TypeSpec} {first : String} {more : List String}
    (hwords : t.words = first :: more) (hfirst : first ≠ "const") {ts : List Token}
    {ls : List Lexeme} (hs : Spells ts (t.lexemes ++ ls)) :
    ∃ rest, eatConst ts = (t.isConst, rest) ∧
      Spells rest (.token (.ident first) :: (wordLexemes more ++
        (starLexemes t.pointerDepth.toNat ++ ls))) := by
  rw [TypeSpec.lexemes, hwords] at hs
  cases hc : t.isConst with
  | true =>
    rw [hc] at hs
    obtain ⟨rest, heat, hrest⟩ := eatConst_const hs
    refine ⟨rest, heat, ?_⟩
    simpa [nameLexemes] using hrest.blank
  | false =>
    rw [hc] at hs
    refine ⟨ts, eatConst_of_head hs (by simpa [nameLexemes] using hfirst), ?_⟩
    simpa [nameLexemes] using hs

theorem readType_spells {t : TypeSpec} (h : t.isNormal = true) {ts : List Token} {ls : List Lexeme}
    (hs : Spells ts (t.lexemes ++ ls)) (hend : EndsBefore t (kindsOf ls).head?) :
    ∃ rest, readType ts = .ok (t, rest) ∧ Spells rest ls := by
  obtain ⟨first, more, hwords, hlast, hmodifiers, hbuiltin, hfind, hlastFind⟩ := TypeSpec.words_of_isNormal h
  obtain ⟨-, hkeyword, hfirst⟩ := Vocabulary.word_of_find? (hfind first (by simp))
  obtain ⟨ts1, h1, hs1⟩ := eatConst_type hwords hfirst hs
  obtain ⟨offset, ts2, h2, hs2⟩ := expectIdent_spells hs1 hkeyword .typeName
  obtain ⟨ts3, h3, hs3⟩ := readMoreWords_spells _ hs2 hmodifiers hbuiltin (by
    rw [← hlast]
    exact hend.last)
  have h4 : eatConst ts3 = (false, ts3) := by
    refine eatConst_of_head hs3 ?_
    cases t.pointerDepth.toNat with
    | zero => exact hend.const
    | succ n => exact fun he => by cases he
  have hdepth : (0 : UInt8).toNat + t.pointerDepth.toNat ≤ 255 := by
    have hlt := t.pointerDepth.toNat_lt
    simp
    omega
  obtain ⟨ts5, h5, hs5⟩ := readStars_spells 0 false hs3 hdepth hend.star hend.const
  refine ⟨ts5, readType_eq_ok.2 ⟨first, offset, ts2, ?_, ?_⟩, hs5⟩
  · rw [h1]
    exact h2
  · simp only [h1, h3, h4, h5, ← hlast, ← hwords, TypeSpec.intercalate_words, and_true]
    exact ⟨hlastFind, by simp⟩

end Prototype

end NativeCatalogue
