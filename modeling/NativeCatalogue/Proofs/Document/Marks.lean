import NativeCatalogue.Proofs.Document.Rendering

set_option autoImplicit false

namespace NativeCatalogue

open LineKind

theorem not_isGap_of_not_isBlank {c : Char} (h : Text.isBlank c = false) : isGap c = false := by
  rw [← Bool.not_eq_true, isGap, Bool.or_eq_true, decide_eq_true_eq, decide_eq_true_eq]
  rintro (rfl | rfl) <;> cases h

theorem dropWhile_isGap_of_isTrimmed {cs : List Char} (h : Text.IsTrimmed cs) :
    cs.dropWhile isGap = cs := by
  cases cs with
  | nil => rfl
  | cons c cs =>
    exact List.dropWhile_cons_of_neg (by rw [not_isGap_of_not_isBlank (h.head c rfl)]; simp)

theorem ofLine_of_mark {line : String} {c : Char} {cs : List Char} (hline : line.toList = c :: cs)
    (hc : Text.isBlank c = false) :
    ofLine line = ((fence? (c :: cs)).or ((heading? (c :: cs)).or (item? (c :: cs)))).getD .plain := by
  have hspace : c ≠ ' ' := by
    rintro rfl
    cases hc
  have hbody : unindent? (c :: cs) = some (c :: cs) := by
    simp [unindent?, hspace]
  rw [ofLine, hline, List.all_cons, hc, Bool.false_and, if_neg Bool.false_ne_true, hbody,
    Option.bind_some]

theorem takeWhile_hashes (depth : Nat) (rest : List Char) (h : ∀ c ∈ rest.head?, c ≠ '#') :
    (List.replicate depth '#' ++ rest).takeWhile (· = '#') = List.replicate depth '#' ∧
      (List.replicate depth '#' ++ rest).dropWhile (· = '#') = rest :=
  List.takeWhile_append_of_head (by simp) fun c hc => decide_eq_false (h c hc)

theorem not_outOfRank {depth : Nat} (hdepth : 0 < depth) (hmax : depth ≤ 6) :
    ¬ (decide (depth = 0) || decide (6 < depth)) = true := by
  rw [Bool.or_eq_true, decide_eq_true_eq, decide_eq_true_eq]
  omega

theorem heading?_hashes {depth : Nat} (hdepth : 0 < depth) (hmax : depth ≤ 6) :
    heading? (List.replicate depth '#') = some (.heading depth "") := by
  obtain ⟨htake, hdrop⟩ := takeWhile_hashes depth [] (by simp)
  rw [List.append_nil] at htake hdrop
  rw [heading?]
  simp only [htake, hdrop, List.length_replicate]
  rw [if_neg (not_outOfRank hdepth hmax), if_pos trivial]

theorem heading?_text {depth : Nat} (hdepth : 0 < depth) (hmax : depth ≤ 6) {text : List Char}
    (htext : Text.IsTrimmed text) :
    heading? (List.replicate depth '#' ++ ' ' :: text) =
      some (.heading depth (.ofList (Text.trim (headingText text)))) := by
  obtain ⟨htake, hdrop⟩ := takeWhile_hashes depth (' ' :: text) (by simp)
  have hgap : (' ' :: text).dropWhile isGap = text := by
    rw [List.dropWhile_cons_of_pos (by decide), dropWhile_isGap_of_isTrimmed htext]
  rw [heading?]
  simp only [htake, hdrop, hgap, List.length_replicate]
  rw [if_neg (not_outOfRank hdepth hmax), if_neg (List.cons_ne_nil _ _), if_pos (by rfl)]

theorem ofLine_hashes {depth : Nat} (hdepth : 0 < depth) (hmax : depth ≤ 6) :
    ofLine (.ofList (List.replicate depth '#')) = .heading depth "" := by
  have hheading := heading?_hashes hdepth hmax
  obtain ⟨n, rfl⟩ := Nat.exists_eq_add_of_lt hdepth
  rw [Nat.zero_add, List.replicate_succ] at hheading ⊢
  rw [ofLine_of_mark (String.toList_ofList) (by decide), hheading]
  rfl

theorem ofLine_heading {depth : Nat} (hdepth : 0 < depth) (hmax : depth ≤ 6) {text : String}
    (htext : Text.IsTrimmed text.toList) :
    ofLine (.ofList (List.replicate depth '#') ++ " " ++ text) =
      .heading depth (.ofList (Text.trim (headingText text.toList))) := by
  have hheading := heading?_text hdepth hmax htext
  have hchars := toList_hashes_append depth text
  obtain ⟨n, rfl⟩ := Nat.exists_eq_add_of_lt hdepth
  rw [Nat.zero_add, List.replicate_succ, List.cons_append] at hheading
  rw [Nat.zero_add, List.replicate_succ, List.cons_append] at hchars
  rw [Nat.zero_add, List.replicate_succ, ofLine_of_mark hchars (by decide), hheading]
  rfl

theorem ofLine_opening {language : Option String} {body : String}
    (h : (Block.code language body).IsRead) :
    ofLine ("```" ++ language.getD "") = .fence codeMarker language := by
  have hchars : ("```" ++ language.getD "").toList = codeMarker ++ (language.getD "").toList := by
    rw [String.toList_append]
    rfl
  have hword : ∀ c ∈ (language.getD "").toList, Text.isBlank c = false ∧ c ≠ '\x60' := by
    cases language with
    | none => exact fun c hc => absurd hc List.not_mem_nil
    | some word => exact (h word rfl).2
  have hhead : ∀ c ∈ (language.getD "").toList.head?, c ≠ '\x60' :=
    fun c hc => (hword c (List.mem_of_mem_head? hc)).2
  have htrim : Text.IsTrimmed (language.getD "").toList :=
    ⟨fun c hc => (hword c (List.mem_of_mem_head? hc)).1,
      fun c hc => (hword c (List.mem_of_mem_getLast? hc)).1⟩
  have hmarker : codeMarker.all (· = '\x60') = true := by decide
  obtain ⟨htake, hdrop⟩ := List.takeWhile_append_of_head hmarker
    fun c hc => decide_eq_false (hhead c hc)
  have hlanguage : fenceLanguage (language.getD "").toList = language := by
    have hall : (language.getD "").toList.takeWhile (fun c => !Text.isBlank c && c ≠ '\x60') =
        (language.getD "").toList := by
      refine List.takeWhile_eq_self_iff.2 fun c hc => ?_
      simp [hword c hc]
    rw [fenceLanguage, dropWhile_isGap_of_isTrimmed htrim]
    simp only [hall]
    cases language with
    | none => rfl
    | some word =>
      rw [Option.getD_some, if_neg fun he => (h word rfl).1 (String.toList_eq_nil_iff.1 he),
        String.ofList_toList]
  simp only [codeMarker, List.cons_append, List.nil_append] at hchars htake hdrop
  have hfence : fence? ('\x60' :: '\x60' :: '\x60' :: (language.getD "").toList) =
      some (.fence codeMarker language) := by
    simp only [fence?, htake, hdrop, hlanguage]
    rfl
  rw [ofLine_of_mark hchars (by decide), hfence]
  rfl

theorem ofLine_marker {text : String} (h : Text.IsTrimmed text.toList) :
    ofLine ("*   " ++ text) = .item text := by
  have hchars : ("*   " ++ text).toList = '*' :: ' ' :: ' ' :: ' ' :: text.toList := by
    rw [String.toList_append]
    rfl
  have hgap : (' ' :: ' ' :: ' ' :: text.toList).dropWhile isGap = text.toList :=
    dropWhile_isGap_of_isTrimmed h
  have hitem : item? ('*' :: ' ' :: ' ' :: ' ' :: text.toList) = some (.item text) := by
    have hafter : afterMarker? ('*' :: ' ' :: ' ' :: ' ' :: text.toList) =
        some (' ' :: ' ' :: ' ' :: text.toList) := rfl
    rw [item?, hafter, Option.bind_eq_bind, Option.bind_some, if_pos (by rfl), hgap, h.trim_eq,
      String.ofList_toList]
  rw [ofLine_of_mark hchars (by decide), hitem]
  rfl

theorem ofLine_indented {line : String} (h : IsTextLine line) : ofLine ("    " ++ line) = .plain := by
  have hchars : ("    " ++ line).toList = ' ' :: ' ' :: ' ' :: ' ' :: line.toList := by
    rw [String.toList_append]
    rfl
  have hblank : (' ' :: ' ' :: ' ' :: ' ' :: line.toList).all Text.isBlank = false := by
    have := h.startsInText.not_allBlank
    simpa [Text.isBlank] using this
  have hbody : unindent? (' ' :: ' ' :: ' ' :: ' ' :: line.toList) = none := by
    rw [unindent?, if_neg]
    simp
  rw [ofLine, hchars, hblank, if_neg Bool.false_ne_true, hbody]
  rfl

end NativeCatalogue
