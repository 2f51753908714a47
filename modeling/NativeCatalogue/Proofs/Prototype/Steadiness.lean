import NativeCatalogue.Proofs.Prototype.Following
import NativeCatalogue.Proofs.Prototype.WellFormed

/-!
What readers do with the tokens before an error. A steady reader does not look back: what it has taken it takes
again before other tokens that start alike, or that start as something which may follow it. So where it ends
with an error, the tokens before the one that is blamed can be completed. A row of steady readers is steady.
-/

set_option autoImplicit false

namespace NativeCatalogue

def Token.ofKind (kind : TokenKind) : Token :=
  ⟨[], kind, 0⟩

namespace Prototype

/-- Whether an error tells what is wrong with the tokens from the one on that it points at. -/
inductive Blamed : DeclarationError → List Token → Prop where
  | token {expected : Expectation} {t : Token} {rest : List Token} :
      Blamed (.unexpectedToken expected (.ofList t.kind.text) t.start) (t :: rest)
  | ended {expected : Expectation} : Blamed (.unexpectedEnd expected) []
  | type {t : Token} {words rest : List Token} {names : List String} {last : String}
      (hwords : (t :: words).map Token.ident? = (names ++ [last]).map some)
      (hlast : Vocabulary.find? last = none) :
      Blamed (.unknownType (" ".intercalate (names ++ [last])) t.start) (t :: (words ++ rest))
  /-- The first tokens are a keyword and its payload, and there are only blanks between the parentheses. -/
  | payload {keyword opening closing : Token} {inside rest : List Token} {kind : AnnotationKind}
      (hkind : keyword.ident?.bind AnnotationKind.ofKeyword? = some kind)
      (hpayload : IsPayload keyword opening inside closing)
      (hblank : (String.ofList (tokenChars inside ++ closing.gap)).allBlank = true) :
      Blamed (.badPayload (.missingPayload kind) keyword.start)
        (keyword :: opening :: (inside ++ closing :: rest))

abbrev Reading := List Token → Except DeclarationError (List Token)

def left {α : Type} (read : List Token → Except DeclarationError (α × List Token)) : Reading :=
  fun ts => (read ts).map Prod.snd

def Reading.andThen (read next : Reading) : Reading :=
  fun ts => read ts >>= next

def StartsWith (kind : TokenKind) (ts : List Token) : Prop :=
  ts.head?.map Token.kind = some kind

def SameStart (ts us : List Token) : Prop :=
  us.head?.map Token.kind = ts.head?.map Token.kind

/-- A reader that does not look back. `Stops` is what may stand behind the tokens that it takes, whatever they
    are, and `Opens` is how these may start; a reader that takes nothing starts with what is behind it. -/
structure Steady (read : Reading) (Opens Stops : List Token → Prop) : Prop where
  /-- What is taken is taken again before other tokens that start alike, or that stop the reader. -/
  stay : ∀ {ts rest}, read ts = .ok rest → ∃ used, ts = used ++ rest ∧
    (∀ other, SameStart rest other ∨ Stops other → read (used ++ other) = .ok other) ∧
    (used = [] → ∀ other, Stops other → Opens other)
  /-- Before the tokens that are blamed stand tokens that others complete. -/
  fail : ∀ {ts e}, read ts = .error e → ∃ before behind, ts = before ++ behind ∧ Blamed e behind ∧
    ∃ more, ∀ rest, Stops rest → read (before ++ (more ++ rest)) = .ok rest
  /-- Some tokens can be taken in front of whatever stops the reader. -/
  fresh : ∃ more, ∀ rest, Stops rest → Opens (more ++ rest) ∧ read (more ++ rest) = .ok rest

theorem left_eq_ok {α : Type} {read : List Token → Except DeclarationError (α × List Token)}
    {ts rest : List Token} : left read ts = .ok rest ↔ ∃ a, read ts = .ok (a, rest) := by
  rw [left]
  cases read ts with
  | error e => simp [Except.map]
  | ok result => simp [Except.map, Prod.ext_iff]

theorem left_eq_error {α : Type} {read : List Token → Except DeclarationError (α × List Token)}
    {ts : List Token} {e : DeclarationError} : left read ts = .error e ↔ read ts = .error e := by
  rw [left]
  cases read ts <;> simp [Except.map]

/-- What is left does not depend on what has been read before. -/
theorem left_bind {α β : Type} {read : List Token → Except DeclarationError (α × List Token)}
    {next : α × List Token → Except DeclarationError (β × List Token)} {behind : Reading}
    (h : ∀ a, left (fun ts => next (a, ts)) = behind) :
    left (fun ts => read ts >>= next) = (left read).andThen behind := by
  funext ts
  rw [Reading.andThen, left, left]
  cases read ts with
  | error e => rfl
  | ok result => exact congrFun (h result.1) result.2

theorem left_map {α β : Type} {read : List Token → Except DeclarationError (α × List Token)} {f : α → β} :
    left (fun ts => read ts >>= fun (a, rest) => pure (f a, rest)) = left read := by
  funext ts
  rw [left, left]
  cases read ts <;> rfl

theorem SameStart.nil {us : List Token} (h : SameStart [] us) : us = [] := by
  cases us with
  | nil => rfl
  | cons u us => cases h

theorem SameStart.cons {t : Token} {ts us : List Token} (h : SameStart (t :: ts) us) :
    ∃ u vs, us = u :: vs ∧ u.kind = t.kind := by
  cases us with
  | nil => cases h
  | cons u vs => exact ⟨u, vs, rfl, Option.some.inj h⟩

theorem sameStart_append {used : List Token} (h : used ≠ []) (ts us : List Token) :
    SameStart (used ++ ts) (used ++ us) := by
  obtain ⟨t, used, rfl⟩ := List.exists_cons_of_ne_nil h
  rfl

theorem startsWith_cons {kind : TokenKind} {t : Token} (h : t.kind = kind) (ts : List Token) :
    StartsWith kind (t :: ts) :=
  congrArg some h

theorem StartsWith.cons {kind : TokenKind} {ts : List Token} (h : StartsWith kind ts) :
    ∃ t rest, ts = t :: rest ∧ t.kind = kind := by
  cases ts with
  | nil => cases h
  | cons t rest => exact ⟨t, rest, rfl, Option.some.inj h⟩

theorem StartsWith.of_sameStart {kind : TokenKind} {ts us : List Token} (h : StartsWith kind ts)
    (hsame : SameStart ts us) : StartsWith kind us :=
  hsame.trans h

theorem Steady.andThen {read next : Reading} {Opens Between Meets Stops : List Token → Prop}
    (hread : Steady read Opens Between) (hnext : Steady next Meets Stops)
    (hmeet : ∀ ts, Meets ts → Between ts) : Steady (read.andThen next) Opens Stops where
  stay := by
    intro ts rest h
    obtain ⟨mid, hfirst, hsecond⟩ := bind_eq_ok.1 h
    obtain ⟨used, rfl, htaken, hopens⟩ := hread.stay hfirst
    obtain ⟨more, rfl, hmore, hmeets⟩ := hnext.stay hsecond
    refine ⟨used ++ more, (List.append_assoc _ _ _).symm, fun other hother => ?_, fun hnil other hstop => ?_⟩
    · have hmid : SameStart (more ++ rest) (more ++ other) ∨ Between (more ++ other) := by
        by_cases hempty : more = []
        · subst hempty
          exact hother.imp id fun hstop => hmeet other (hmeets rfl other hstop)
        · exact .inl (sameStart_append hempty rest other)
      rw [List.append_assoc]
      exact bind_eq_ok.2 ⟨_, htaken _ hmid, hmore other hother⟩
    · obtain ⟨hused, hmore⟩ := List.append_eq_nil_iff.1 hnil
      exact hopens hused other (hmeet other (hmeets hmore other hstop))
  fail := by
    intro ts e h
    obtain ⟨fill, hfill⟩ := hnext.fresh
    rw [Reading.andThen] at h
    cases hfirst : read ts with
    | error e' =>
      rw [hfirst] at h
      cases h
      obtain ⟨before, behind, rfl, hblamed, more, hmore⟩ := hread.fail hfirst
      refine ⟨before, behind, rfl, hblamed, more ++ fill, fun rest hstop => ?_⟩
      obtain ⟨hmeets, hlast⟩ := hfill rest hstop
      rw [List.append_assoc]
      exact bind_eq_ok.2 ⟨_, hmore _ (hmeet _ hmeets), hlast⟩
    | ok mid =>
      rw [hfirst] at h
      obtain ⟨used, rfl, htaken, -⟩ := hread.stay hfirst
      obtain ⟨before, behind, rfl, hblamed, more, hmore⟩ := hnext.fail h
      by_cases hempty : before = []
      · subst hempty
        -- The second reader may start anew, because none of its tokens has been taken.
        refine ⟨used, behind, rfl, hblamed, fill, fun rest hstop => ?_⟩
        obtain ⟨hmeets, hlast⟩ := hfill rest hstop
        exact bind_eq_ok.2 ⟨_, htaken _ (.inr (hmeet _ hmeets)), hlast⟩
      · refine ⟨used ++ before, behind, (List.append_assoc _ _ _).symm, hblamed, more, fun rest hstop => ?_⟩
        rw [List.append_assoc]
        exact bind_eq_ok.2 ⟨_, htaken _ (.inl (sameStart_append hempty _ _)), hmore rest hstop⟩
  fresh := by
    obtain ⟨more, hmore⟩ := hread.fresh
    obtain ⟨fill, hfill⟩ := hnext.fresh
    refine ⟨more ++ fill, fun rest hstop => ?_⟩
    obtain ⟨hmeets, hlast⟩ := hfill rest hstop
    obtain ⟨hopens, hfirst⟩ := hmore (fill ++ rest) (hmeet _ hmeets)
    rw [List.append_assoc]
    exact ⟨hopens, bind_eq_ok.2 ⟨_, hfirst, hlast⟩⟩

theorem steady_of_take (take : List Token → List Token) {Stops : List Token → Prop}
    (hstay : ∀ ts, ∃ used, ts = used ++ take ts ∧
      ∀ other, SameStart (take ts) other ∨ Stops other → take (used ++ other) = other)
    (hstop : ∀ ts, Stops ts → take ts = ts) : Steady (fun ts => .ok (take ts)) Stops Stops where
  stay := by
    intro ts rest h
    cases h
    obtain ⟨used, hts, htaken⟩ := hstay ts
    exact ⟨used, hts, fun other hother => congrArg Except.ok (htaken other hother), fun _ _ hstop => hstop⟩
  fail h := by cases h
  fresh := ⟨[], fun rest h => ⟨h, congrArg Except.ok (hstop rest h)⟩⟩

theorem blamed_unexpected (expected : Expectation) (ts : List Token) : Blamed (unexpected expected ts) ts := by
  cases ts with
  | nil => exact .ended
  | cons t ts => exact .token

theorem expect_eq_error {kind : TokenKind} {expected : Expectation} {ts : List Token} {e : DeclarationError}
    (h : expect kind expected ts = .error e) : e = unexpected expected ts := by
  cases ts with
  | nil => exact (Except.error.inj h).symm
  | cons t ts =>
    rw [expect] at h
    split at h
    · cases h
    · exact (Except.error.inj h).symm

theorem expectIdent_eq_error {expected : Expectation} {ts : List Token} {e : DeclarationError}
    (h : expectIdent expected ts = .error e) : e = unexpected expected ts := by
  cases ts with
  | nil => exact (Except.error.inj h).symm
  | cons t ts =>
    rw [expectIdent] at h
    split at h
    · split at h
      · cases h
      · exact (Except.error.inj h).symm
    · exact (Except.error.inj h).symm

/-- A reader of one token is steady, whatever stands behind it. -/
theorem steady_of_token {read : Reading} {kind : TokenKind} (expected : Expectation)
    (hread : ∀ ts, (∃ t rest, ts = t :: rest ∧ ∀ other, read (t :: other) = .ok other) ∨
      read ts = .error (unexpected expected ts))
    (hkind : ∀ rest, read (.ofKind kind :: rest) = .ok rest) : Steady read (StartsWith kind) fun _ => True where
  stay := by
    intro ts rest h
    rcases hread ts with ⟨t, tail, rfl, htaken⟩ | herror
    · rw [htaken] at h
      cases h
      exact ⟨[t], rfl, fun other _ => htaken other, fun h => by cases h⟩
    · rw [herror] at h
      cases h
  fail := by
    intro ts e h
    rcases hread ts with ⟨t, tail, rfl, htaken⟩ | herror
    · rw [htaken] at h
      cases h
    · rw [herror] at h
      cases h
      exact ⟨[], ts, rfl, blamed_unexpected expected ts, [.ofKind kind], fun rest _ => hkind rest⟩
  fresh := ⟨[.ofKind kind], fun rest _ => ⟨rfl, hkind rest⟩⟩

theorem steady_expect (kind : TokenKind) (expected : Expectation) :
    Steady (left (expect kind expected)) (StartsWith kind) fun _ => True := by
  refine steady_of_token expected (fun ts => ?_) fun rest => left_eq_ok.2 ⟨(), expect_eq_ok.2 ⟨_, rfl, rfl⟩⟩
  cases h : expect kind expected ts with
  | error e => exact .inr (left_eq_error.2 (expect_eq_error h ▸ h))
  | ok result =>
    obtain ⟨t, hts, hkind⟩ := expect_eq_ok.1 h
    exact .inl ⟨t, result.2, hts, fun other => left_eq_ok.2 ⟨(), expect_eq_ok.2 ⟨t, rfl, hkind⟩⟩⟩

theorem expectIdent_ofKind {word : String} (hword : AnnotationKind.ofKeyword? word = none)
    (expected : Expectation) (ts : List Token) :
    expectIdent expected (.ofKind (.ident word) :: ts) = .ok ((word, 0), ts) :=
  expectIdent_eq_ok.2 ⟨_, rfl, rfl, rfl, hword⟩

theorem steady_expectIdent {word : String} (hword : AnnotationKind.ofKeyword? word = none)
    (expected : Expectation) :
    Steady (left (expectIdent expected)) (StartsWith (.ident word)) fun _ => True := by
  refine steady_of_token expected (fun ts => ?_) fun rest =>
    left_eq_ok.2 ⟨_, expectIdent_ofKind hword expected rest⟩
  cases h : expectIdent expected ts with
  | error e => exact .inr (left_eq_error.2 (expectIdent_eq_error h ▸ h))
  | ok result =>
    obtain ⟨t, hts, htoken⟩ := expectIdent_eq_ok.1 h
    exact .inl ⟨t, result.2, hts, fun other => left_eq_ok.2 ⟨_, expectIdent_eq_ok.2 ⟨t, rfl, htoken⟩⟩⟩

theorem eatConst_of_kind {t : Token} (h : t.kind = .ident "const") (ts : List Token) :
    eatConst (t :: ts) = (true, ts) := by
  rw [eatConst, if_pos (Token.ident?_eq h)]

theorem eatConst_of_not_startsWith {ts : List Token} (h : ¬ StartsWith (.ident "const") ts) :
    eatConst ts = (false, ts) := by
  cases ts with
  | nil => rfl
  | cons t ts =>
    rw [eatConst, if_neg]
    exact fun hconst => h (startsWith_cons (Token.ident?_eq_some_iff.1 hconst) ts)

theorem steady_eatConst {Stops : List Token → Prop}
    (hstop : ∀ ts, Stops ts → ¬ StartsWith (.ident "const") ts) :
    Steady (fun ts => .ok (eatConst ts).2) Stops Stops := by
  refine steady_of_take (fun ts => (eatConst ts).2) (fun ts => ?_) fun ts h => ?_
  · by_cases hconst : StartsWith (.ident "const") ts
    · obtain ⟨t, rest, rfl, hkind⟩ := hconst.cons
      refine ⟨[t], ?_, fun other _ => ?_⟩
      · rw [eatConst_of_kind hkind]
        rfl
      · exact congrArg Prod.snd (eatConst_of_kind hkind other)
    · rw [eatConst_of_not_startsWith hconst]
      refine ⟨[], rfl, fun other hother => ?_⟩
      have hplain : ¬ StartsWith (.ident "const") other := by
        rcases hother with hsame | hother
        · exact fun h => hconst (h.of_sameStart hsame.symm)
        · exact hstop other hother
      exact congrArg Prod.snd (eatConst_of_not_startsWith hplain)
  · exact congrArg Prod.snd (eatConst_of_not_startsWith (hstop ts h))

/-- Between prototypes a semicolon may stand, and the last may end without one. -/
theorem steady_eatSemicolon : Steady (fun ts => .ok (eatSemicolon ts)) (· = []) (· = []) := by
  refine steady_of_take eatSemicolon (fun ts => ?_) fun ts h => h ▸ rfl
  cases ts with
  | nil =>
    refine ⟨[], rfl, ?_⟩
    rintro other (hsame | rfl)
    · rw [hsame.nil]
      rfl
    · rfl
  | cons t ts =>
    rw [eatSemicolon]
    split
    · rename_i hkind
      exact ⟨[t], rfl, fun other _ => if_pos hkind⟩
    · rename_i hkind
      refine ⟨[], rfl, ?_⟩
      rintro other (hsame | rfl)
      · obtain ⟨u, us, rfl, hu⟩ := hsame.cons
        exact if_neg (hu ▸ hkind)
      · rfl

structure EndsType (ts : List Token) : Prop where
  star : ¬ StartsWith .star ts
  const : ¬ StartsWith (.ident "const") ts
  word : ∀ word, StartsWith (.ident word) ts → Vocabulary.isBuiltin word = false

theorem endsType_of_startsWith {kind : TokenKind} {ts : List Token} (hstar : kind ≠ .star)
    (hconst : kind ≠ .ident "const") (hword : ∀ word, kind = .ident word → Vocabulary.isBuiltin word = false)
    (h : StartsWith kind ts) : EndsType ts where
  star hother := hstar (Option.some.inj (h.symm.trans hother))
  const hother := hconst (Option.some.inj (h.symm.trans hother))
  word word hother := hword word (Option.some.inj (h.symm.trans hother))

theorem readMoreWords_of_endsType (last : String) {ts : List Token} (h : EndsType ts) :
    readMoreWords last ts = ([], ts) := by
  cases ts with
  | nil => rfl
  | cons t ts =>
    refine readMoreWords_stop (fun word hword => ?_) ts
    rw [h.word word (startsWith_cons (Token.ident?_eq_some_iff.1 hword) ts), Bool.and_false]

/-- The words of a type name stay when what is behind them does not go on with it. -/
theorem readMoreWords_stay (last : String) (ts : List Token) : ∃ used, ts = used ++ (readMoreWords last ts).2 ∧
    used.map Token.ident? = (readMoreWords last ts).1.map some ∧
    ∀ other, SameStart (readMoreWords last ts).2 other ∨ EndsType other →
      readMoreWords last (used ++ other) = ((readMoreWords last ts).1, other) := by
  induction ts generalizing last with
  | nil =>
    refine ⟨[], rfl, rfl, ?_⟩
    rintro other (hsame | hother)
    · rw [SameStart.nil hsame]
      rfl
    · exact readMoreWords_of_endsType last hother
  | cons t ts ih =>
    by_cases htake : ∃ word, t.ident? = some word ∧
        (Vocabulary.modifiers.contains last && Vocabulary.isBuiltin word) = true
    · obtain ⟨word, hword, hbuiltin⟩ := htake
      obtain ⟨used, hused, hwords, hstay⟩ := ih word
      rw [readMoreWords_take hword hbuiltin]
      refine ⟨t :: used, congrArg (t :: ·) hused, by rw [List.map_cons, hwords, hword, List.map_cons],
        fun other hother => ?_⟩
      rw [List.cons_append, readMoreWords_take hword hbuiltin, hstay other hother]
    · have hstop : ∀ word, t.ident? = some word →
          (Vocabulary.modifiers.contains last && Vocabulary.isBuiltin word) = false :=
        fun word hword => Bool.eq_false_iff.2 fun hbuiltin => htake ⟨word, hword, hbuiltin⟩
      rw [readMoreWords_stop hstop]
      refine ⟨[], rfl, rfl, ?_⟩
      rintro other (hsame | hother)
      · obtain ⟨u, us, rfl, hu⟩ := SameStart.cons hsame
        exact readMoreWords_stop (ident?_eq_of_kind hu ▸ hstop) us
      · exact readMoreWords_of_endsType last hother

def readTypeName : Reading := fun ts => do
  let ((first, offset), ts) ← expectIdent .typeName ts
  let (more, ts) := readMoreWords first ts
  if (Vocabulary.find? (more.getLast?.getD first)).isNone then
    .error (.unknownType (" ".intercalate (first :: more)) offset)
  else .ok ts

theorem readTypeName_of_ident {t : Token} {first : String} (hkind : t.kind = .ident first)
    (hname : AnnotationKind.ofKeyword? first = none) (after : List Token) :
    readTypeName (t :: after) =
      if (Vocabulary.find? ((readMoreWords first after).1.getLast?.getD first)).isNone then
        .error (.unknownType (" ".intercalate (first :: (readMoreWords first after).1)) t.start)
      else .ok (readMoreWords first after).2 := by
  rw [readTypeName, expectIdent_eq_ok.2 ⟨t, rfl, hkind, rfl, hname⟩]
  rfl

theorem readTypeName_int {ts : List Token} (h : EndsType ts) :
    readTypeName (.ofKind (.ident "int") :: ts) = .ok ts := by
  have hknown : (Vocabulary.find? "int").isNone = false := by decide +kernel
  rw [readTypeName_of_ident rfl (by decide), readMoreWords_of_endsType "int" h, List.getLast?_nil,
    Option.getD_none, hknown]
  rfl

theorem steady_readTypeName : Steady readTypeName (StartsWith (.ident "int")) EndsType where
  stay := by
    intro ts rest h
    obtain ⟨⟨⟨first, offset⟩, after⟩, hfirst, -⟩ := bind_eq_ok.1 h
    obtain ⟨t, rfl, hkind, -, hname⟩ := expectIdent_eq_ok.1 hfirst
    obtain ⟨used, hused, -, hstay⟩ := readMoreWords_stay first after
    rw [readTypeName_of_ident hkind hname] at h
    split at h
    · cases h
    · rename_i hknown
      obtain rfl := Except.ok.inj h
      refine ⟨t :: used, congrArg (t :: ·) hused, fun other hother => ?_, fun h => by cases h⟩
      rw [List.cons_append, readTypeName_of_ident hkind hname, hstay other hother]
      exact if_neg hknown
  fail := by
    intro ts e h
    cases hfirst : expectIdent .typeName ts with
    | error e' =>
      rw [readTypeName, hfirst] at h
      cases h
      obtain rfl := expectIdent_eq_error hfirst
      exact ⟨[], ts, rfl, blamed_unexpected .typeName ts, [.ofKind (.ident "int")],
        fun rest hrest => readTypeName_int hrest⟩
    | ok result =>
      obtain ⟨⟨first, offset⟩, after⟩ := result
      obtain ⟨t, rfl, hkind, -, hname⟩ := expectIdent_eq_ok.1 hfirst
      obtain ⟨used, hused, hwords, -⟩ := readMoreWords_stay first after
      obtain ⟨-, names, last, hnames, -⟩ := readMoreWords_spec first after
      rw [readTypeName_of_ident hkind hname, lastWord_of_concat hnames, hnames] at h
      split at h
      · rename_i hunknown
        cases h
        refine ⟨[], t :: after, rfl, ?_, [.ofKind (.ident "int")], fun rest hrest => readTypeName_int hrest⟩
        rw [hused]
        refine .type ?_ (Option.isNone_iff_eq_none.1 hunknown)
        rw [← hnames, List.map_cons, hwords, Token.ident?_eq hkind, List.map_cons]
      · cases h
  fresh := ⟨[.ofKind (.ident "int")], fun rest hrest => ⟨rfl, readTypeName_int hrest⟩⟩

theorem readStars_of_endsType {ts : List Token} (h : EndsType ts) (depth : UInt8) (afterStar : Bool) :
    readStars depth afterStar ts = (depth, ts) := by
  cases ts with
  | nil => rfl
  | cons t ts =>
    rw [readStars, if_neg fun hstar => h.star (startsWith_cons hstar ts), if_neg]
    intro hconst
    rw [Bool.and_eq_true, decide_eq_true_eq, Token.ident?_eq_some_iff] at hconst
    exact h.const (startsWith_cons hconst.2 ts)

theorem readStars_stay (depth : UInt8) (afterStar : Bool) (ts : List Token) : ∃ used,
    ts = used ++ (readStars depth afterStar ts).2 ∧
    ∀ other, SameStart (readStars depth afterStar ts).2 other ∨ EndsType other →
      (readStars depth afterStar (used ++ other)).2 = other := by
  induction ts generalizing depth afterStar with
  | nil =>
    refine ⟨[], rfl, ?_⟩
    rintro other (hsame | hother)
    · rw [SameStart.nil hsame]
      rfl
    · rw [List.nil_append, readStars_of_endsType hother]
  | cons t ts ih =>
    rw [readStars]
    split
    · rename_i hstar
      obtain ⟨used, hused, hstay⟩ := ih (addStar depth) true
      refine ⟨t :: used, congrArg (t :: ·) hused, fun other hother => ?_⟩
      rw [List.cons_append, readStars, if_pos hstar, hstay other hother]
    · rename_i hstar
      split
      · rename_i hconst
        obtain ⟨used, hused, hstay⟩ := ih depth false
        refine ⟨t :: used, congrArg (t :: ·) hused, fun other hother => ?_⟩
        rw [List.cons_append, readStars, if_neg hstar, if_pos hconst, hstay other hother]
      · rename_i hconst
        refine ⟨[], rfl, ?_⟩
        rintro other (hsame | hother)
        · obtain ⟨u, us, rfl, hu⟩ := SameStart.cons hsame
          rw [List.nil_append, readStars, hu, ident?_eq_of_kind hu, if_neg hstar, if_neg hconst]
        · rw [List.nil_append, readStars_of_endsType hother]

theorem left_readType : left readType = Reading.andThen (fun ts => .ok (eatConst ts).2)
    (readTypeName.andThen (Reading.andThen (fun ts => .ok (eatConst ts).2)
      fun ts => .ok (readStars 0 false ts).2)) := by
  funext ts
  change left readType ts = readTypeName (eatConst ts).2 >>= fun ts => .ok (readStars 0 false (eatConst ts).2).2
  rw [left, readType]
  obtain ⟨constBefore, ts⟩ := eatConst ts
  dsimp only
  rw [readTypeName]
  cases expectIdent .typeName ts with
  | error e => rfl
  | ok result =>
    obtain ⟨⟨first, offset⟩, after⟩ := result
    simp only [bind, Except.bind]
    split_ifs <;> rfl

theorem steady_readType : Steady (left readType) (StartsWith (.ident "int")) EndsType := by
  rw [left_readType]
  have hstars : Steady (fun ts => .ok (readStars 0 false ts).2) EndsType EndsType :=
    steady_of_take (fun ts => (readStars 0 false ts).2) (readStars_stay 0 false)
      fun ts h => congrArg Prod.snd (readStars_of_endsType h 0 false)
  have hint : ∀ ts, StartsWith (.ident "int") ts → ¬ StartsWith (.ident "const") ts :=
    fun ts h hconst => absurd (Option.some.inj (h.symm.trans hconst)) (by decide)
  exact (steady_eatConst hint).andThen
    (steady_readTypeName.andThen ((steady_eatConst fun _ => EndsType.const).andThen hstars fun _ => id)
      fun _ => id) fun _ => id

end Prototype

end NativeCatalogue
