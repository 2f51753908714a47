import NativeCatalogue.Document.Strong

set_option autoImplicit false

namespace NativeCatalogue

structure ClosesSpan (mark : Char) (cs inner after : List Char) : Prop where
  nonempty : inner ≠ []
  line : '\n' ∉ inner
  text : cs = inner ++ mark :: mark :: after

/-- A text starts with a span: a pair of asterisks or of underscores, something in one line, and the same
    pair again. -/
structure IsSpan (mark : Char) (cs inner after : List Char) : Prop where
  isMark : mark = '*' ∨ mark = '_'
  nonempty : inner ≠ []
  line : '\n' ∉ inner
  text : cs = mark :: mark :: (inner ++ mark :: mark :: after)

/-- A span behind the start of a text: no place before it has a span, and no span at its own place is
    shorter. -/
structure IsFirstSpan (start behind : List Char) (mark : Char) (inner after : List Char) : Prop where
  span : IsSpan mark behind inner after
  first : ∀ place < start.length, ∀ other inside rest,
    ¬ IsSpan other ((start ++ behind).drop place) inside rest
  shortest : ∀ other inside rest, IsSpan other behind inside rest → inner.length ≤ inside.length

section Closing

variable {mark c : Char} {cs inner after : List Char}

theorem ClosesSpan.cons (hc : c ≠ '\n') (h : ClosesSpan mark cs inner after) :
    ClosesSpan mark (c :: cs) (c :: inner) after where
  nonempty := List.cons_ne_nil c inner
  line := by
    rw [List.mem_cons, not_or]
    exact ⟨hc.symm, h.line⟩
  text := congrArg (c :: ·) h.text

theorem ClosesSpan.unique {inside rest : List Char} (h : ClosesSpan mark cs inner after)
    (h' : ClosesSpan mark cs inside rest) (hlength : inner.length = inside.length) :
    inner = inside ∧ after = rest := by
  obtain ⟨hinner, hmarks⟩ := List.append_inj (h.text.symm.trans h'.text) hlength
  simp only [List.cons.injEq, true_and] at hmarks
  exact ⟨hinner, hmarks⟩

theorem closesSpan_of_strongInner (h : strongInner mark cs = some (inner, after)) :
    ClosesSpan mark cs inner after := by
  fun_induction strongInner mark cs generalizing inner with
  | case1 a b rest => cases h
  | case2 c a b rest hc hmarks =>
    cases h
    rw [Bool.and_eq_true, decide_eq_true_eq, decide_eq_true_eq] at hmarks
    obtain ⟨rfl, rfl⟩ := hmarks
    exact ⟨List.cons_ne_nil c [], by simpa using Ne.symm hc, rfl⟩
  | case3 c a b rest hc hmarks ih =>
    obtain ⟨⟨inside, after⟩, hrest, hpair⟩ := Option.map_eq_some_iff.1 h
    cases hpair
    exact (ih hrest).cons hc
  | case4 cs hshort => cases h

theorem ClosesSpan.exists_strongInner (h : ClosesSpan mark cs inner after) :
    ∃ inside rest, strongInner mark cs = some (inside, rest) ∧ inside.length ≤ inner.length := by
  obtain ⟨hne, hline, rfl⟩ := h
  induction inner with
  | nil => exact absurd rfl hne
  | cons c inner ih =>
    rw [List.mem_cons, not_or] at hline
    -- What follows the first character has at least the two marks.
    obtain ⟨a, b, more, hmore⟩ : ∃ a b more, inner ++ mark :: mark :: after = a :: b :: more := by
      match inner with
      | [] => exact ⟨mark, mark, after, rfl⟩
      | [a] => exact ⟨a, mark, mark :: after, rfl⟩
      | a :: b :: inner => exact ⟨a, b, inner ++ mark :: mark :: after, rfl⟩
    rw [List.cons_append, hmore, strongInner, if_neg (Ne.symm hline.1)]
    split
    · exact ⟨[c], more, rfl, Nat.succ_le_succ (Nat.zero_le _)⟩
    · rename_i hmarks
      have hinner : inner ≠ [] := by
        rintro rfl
        cases hmore
        exact hmarks (by simp)
      obtain ⟨inside, rest, hrest, hle⟩ := ih hinner hline.2
      rw [hmore] at hrest
      exact ⟨c :: inside, rest, by rw [hrest]; rfl, Nat.succ_le_succ hle⟩

theorem strongInner_eq_some_iff : strongInner mark cs = some (inner, after) ↔
    ClosesSpan mark cs inner after ∧
      ∀ inside rest, ClosesSpan mark cs inside rest → inner.length ≤ inside.length := by
  constructor
  · intro h
    refine ⟨closesSpan_of_strongInner h, fun inside rest hother => ?_⟩
    obtain ⟨short, more, hshort, hle⟩ := hother.exists_strongInner
    rw [h] at hshort
    cases hshort
    exact hle
  · rintro ⟨h, hshortest⟩
    obtain ⟨inside, rest, hinside, hle⟩ := h.exists_strongInner
    have hfound := closesSpan_of_strongInner hinside
    obtain ⟨rfl, rfl⟩ := hfound.unique h (Nat.le_antisymm hle (hshortest _ _ hfound))
    exact hinside

theorem ClosesSpan.strongInner_of_not_mem (h : ClosesSpan mark cs inner after) (hfree : mark ∉ inner) :
    strongInner mark cs = some (inner, after) := by
  refine strongInner_eq_some_iff.2 ⟨h, fun inside rest hother => Nat.le_of_not_lt fun hlt => hfree ?_⟩
  have hmark : (inner ++ mark :: mark :: after)[inside.length]? = some mark := by
    rw [← h.text, hother.text, List.getElem?_append_right (Nat.le_refl _), Nat.sub_self]
    rfl
  rw [List.getElem?_append_left hlt] at hmark
  exact List.mem_of_getElem? hmark

end Closing

def spanAt? (cs : List Char) : Option (List Char × List Char) :=
  (strongAt '*' cs).or (strongAt '_' cs)

section Place

variable {mark : Char} {cs inner after : List Char}

theorem IsSpan.closesSpan {rest : List Char} (h : IsSpan mark (mark :: mark :: rest) inner after) :
    ClosesSpan mark rest inner after := by
  have htext := h.text
  simp only [List.cons.injEq, true_and] at htext
  exact ⟨h.nonempty, h.line, htext⟩

theorem ClosesSpan.isSpan (hmark : mark = '*' ∨ mark = '_') (h : ClosesSpan mark cs inner after) :
    IsSpan mark (mark :: mark :: cs) inner after :=
  ⟨hmark, h.nonempty, h.line, congrArg (mark :: mark :: ·) h.text⟩

theorem isSpan_of_strongAt (hmark : mark = '*' ∨ mark = '_')
    (h : strongAt mark cs = some (inner, after)) : IsSpan mark cs inner after := by
  unfold strongAt at h
  split at h
  · split at h
    · rename_i hmarks
      rw [Bool.and_eq_true, decide_eq_true_eq, decide_eq_true_eq] at hmarks
      obtain ⟨rfl, rfl⟩ := hmarks
      exact (closesSpan_of_strongInner h).isSpan hmark
    · cases h
  · cases h

theorem isSpan_of_spanAt? (h : spanAt? cs = some (inner, after)) : ∃ mark, IsSpan mark cs inner after := by
  rcases Option.or_eq_some_iff.1 h with h | ⟨-, h⟩
  · exact ⟨'*', isSpan_of_strongAt (.inl rfl) h⟩
  · exact ⟨'_', isSpan_of_strongAt (.inr rfl) h⟩

theorem spanAt?_marks (hmark : mark = '*' ∨ mark = '_') (rest : List Char) :
    spanAt? (mark :: mark :: rest) = strongInner mark rest := by
  rcases hmark with rfl | rfl
  · exact Option.or_none
  · rfl

theorem IsSpan.exists_spanAt? (h : IsSpan mark cs inner after) :
    ∃ inside rest, spanAt? cs = some (inside, rest) ∧ inside.length ≤ inner.length := by
  have hcs := h.text
  subst hcs
  rw [spanAt?_marks h.isMark]
  exact h.closesSpan.exists_strongInner

theorem spanAt?_eq_none_iff :
    spanAt? cs = none ↔ ∀ mark inner after, ¬ IsSpan mark cs inner after := by
  constructor
  · intro hnone mark inner after h
    obtain ⟨inside, rest, hsome, -⟩ := h.exists_spanAt?
    rw [hnone] at hsome
    cases hsome
  · intro h
    refine Option.eq_none_iff_forall_ne_some.2 fun ⟨inner, after⟩ hsome => ?_
    obtain ⟨mark, hspan⟩ := isSpan_of_spanAt? hsome
    exact h mark inner after hspan

theorem spanAt?_eq_some_iff : spanAt? cs = some (inner, after) ↔ ∃ mark, IsSpan mark cs inner after ∧
    ∀ other inside rest, IsSpan other cs inside rest → inner.length ≤ inside.length := by
  constructor
  · intro h
    obtain ⟨mark, hspan⟩ := isSpan_of_spanAt? h
    refine ⟨mark, hspan, fun other inside rest hother => ?_⟩
    obtain ⟨short, more, hshort, hle⟩ := hother.exists_spanAt?
    rw [h] at hshort
    cases hshort
    exact hle
  · rintro ⟨mark, hspan, hshortest⟩
    have hcs := hspan.text
    subst hcs
    rw [spanAt?_marks hspan.isMark, strongInner_eq_some_iff]
    exact ⟨hspan.closesSpan, fun inside rest h => hshortest mark inside rest (h.isSpan hspan.isMark)⟩

end Place

theorem splitStrongChars_cons (c : Char) (cs : List Char) :
    splitStrongChars (c :: cs) = (spanAt? (c :: cs)).or (splitStrongChars cs) :=
  rfl

theorem splitStrongChars_eq_none_iff (cs : List Char) :
    splitStrongChars cs = none ↔ ∀ place mark inner after, ¬ IsSpan mark (cs.drop place) inner after := by
  induction cs with
  | nil =>
    refine ⟨fun _ place mark inner after h => ?_, fun _ => rfl⟩
    have htext := h.text
    rw [List.drop_nil] at htext
    cases htext
  | cons c cs ih =>
    rw [splitStrongChars_cons, Option.or_eq_none_iff, spanAt?_eq_none_iff, ih]
    refine ⟨fun ⟨hhere, hlater⟩ place => ?_, fun h => ⟨h 0, fun place => h (place + 1)⟩⟩
    cases place with
    | zero => exact hhere
    | succ place => exact hlater place

theorem IsFirstSpan.cons {c : Char} {start behind : List Char} {mark : Char} {inner after : List Char}
    (hhere : ∀ other inside rest, ¬ IsSpan other (c :: (start ++ behind)) inside rest)
    (h : IsFirstSpan start behind mark inner after) :
    IsFirstSpan (c :: start) behind mark inner after where
  span := h.span
  first := by
    intro place hplace
    cases place with
    | zero => exact hhere
    | succ place => exact h.first place (Nat.lt_of_succ_lt_succ hplace)
  shortest := h.shortest

theorem splitStrongChars_eq_some_iff (cs inner after : List Char) :
    splitStrongChars cs = some (inner, after) ↔
      ∃ start behind mark, cs = start ++ behind ∧ IsFirstSpan start behind mark inner after := by
  induction cs with
  | nil =>
    refine ⟨fun h => (nomatch h), fun ⟨start, behind, mark, hcs, h⟩ => ?_⟩
    rw [(List.append_eq_nil_iff.1 hcs.symm).2] at h
    exact nomatch h.span.text
  | cons c cs ih =>
    rw [splitStrongChars_cons, Option.or_eq_some_iff, spanAt?_eq_some_iff, spanAt?_eq_none_iff, ih]
    constructor
    · rintro (⟨mark, hspan, hshortest⟩ | ⟨hhere, start, behind, mark, rfl, h⟩)
      · exact ⟨[], c :: cs, mark, rfl, hspan, fun place hplace => absurd hplace (Nat.not_lt_zero _), hshortest⟩
      · exact ⟨c :: start, behind, mark, rfl, h.cons hhere⟩
    · rintro ⟨start, behind, mark, hcs, h⟩
      cases start with
      | nil =>
        obtain rfl : c :: cs = behind := hcs
        exact .inl ⟨mark, h.span, h.shortest⟩
      | cons d start =>
        obtain ⟨rfl, rfl⟩ := List.cons.inj hcs
        exact .inr ⟨h.first 0 (Nat.succ_pos _), start, behind, mark, rfl, h.span,
          fun place hplace => h.first (place + 1) (Nat.succ_lt_succ hplace), h.shortest⟩

/-- The span that a text is split at is the first one and as short as one there can be; without any span
    the text is not split. -/
theorem splitStrong_finds_first (text : String) :
    (∀ inner after : String, splitStrong text = some (inner, after) ↔
      ∃ start behind mark, text.toList = start ++ behind ∧
        IsFirstSpan start behind mark inner.toList after.toList) ∧
    (splitStrong text = none ↔
      ∀ place mark inner after, ¬ IsSpan mark (text.toList.drop place) inner after) := by
  constructor
  · intro inner after
    rw [← splitStrongChars_eq_some_iff, splitStrong, Option.map_eq_some_iff]
    constructor
    · rintro ⟨⟨inside, rest⟩, h, hpair⟩
      cases hpair
      rw [h, String.toList_ofList, String.toList_ofList]
    · intro h
      exact ⟨_, h, Prod.ext String.ofList_toList String.ofList_toList⟩
  · rw [← splitStrongChars_eq_none_iff, splitStrong, Option.map_eq_none_iff]

-- The underscores are closed only behind a line end, and three asterisks close a span with the first two.
example : splitStrong "___a\nb__ **c*** **d**" = some ("c", "* **d**") := by decide

end NativeCatalogue
