import NativeCatalogue.Proofs.Signature.Outline
import NativeCatalogue.Proofs.Signature.Storable

set_option autoImplicit false

namespace NativeCatalogue

open Arithmetic

theorem typesIn_outside (c : Char) (rest : List Char) : typesIn .outside (c :: rest) =
    if c = ',' || c = '\x7b' then typesIn .expecting rest else typesIn .outside rest := rfl

theorem typesIn_expecting (c : Char) (rest : List Char) : typesIn .expecting (c :: rest) =
    if c = ',' || c = '\x7b' then typesIn .expecting rest
    else if c = '"' then typesIn (.inside []) rest
    else if Text.isBlank c then typesIn .expecting rest
    else typesIn .outside rest := rfl

theorem typesIn_inside_ne_nil {line : List Char} (h : '"' ∈ line) (text : List Char) :
    typesIn (.inside text) line ≠ [] := by
  induction line generalizing text with
  | nil => cases h
  | cons c line ih =>
    rw [typesIn]
    split
    · exact List.cons_ne_nil _ _
    · rename_i hc
      exact ih ((List.mem_cons.1 h).resolve_left fun he => hc he.symm) (c :: text)

theorem typesIn_gap_ne_nil {gap : List Char} (hgap : ∀ c ∈ gap, Text.isBlank c = true)
    {rest : List Char} (h : '"' ∈ rest) : typesIn .expecting (gap ++ '"' :: rest) ≠ [] := by
  induction gap with
  | nil => exact typesIn_inside_ne_nil h []
  | cons c gap ih =>
    have hc := hgap c List.mem_cons_self
    have hmark : ¬ (c = ',' || c = '\x7b') = true := by
      intro he
      rw [Bool.or_eq_true, decide_eq_true_eq, decide_eq_true_eq] at he
      rcases he with rfl | rfl <;> cases hc
    have hquote : c ≠ '"' := fun he => by rw [he] at hc; cases hc
    rw [List.cons_append, typesIn_expecting, if_neg hmark, if_neg hquote, if_pos hc]
    exact ih fun d hd => hgap d (List.mem_cons_of_mem c hd)

def TypeSearch.led : TypeSearch → List Char
  | .outside => []
  | .expecting => [',']
  | .inside text => ',' :: '"' :: text.reverse

namespace SignatureFile

theorem HasType.cons {line : List Char} (h : HasType line) (c : Char) : HasType (c :: line) := by
  obtain ⟨before, mark, gap, text, after, rfl, hmark, hgap, htext⟩ := h
  exact ⟨c :: before, mark, gap, text, after, rfl, hmark, hgap, htext⟩

theorem HasType.mark {line : List Char} (h : HasType (',' :: line)) {c : Char}
    (hc : (c = ',' || c = '\x7b') = true) : HasType (c :: line) := by
  obtain ⟨before, mark, gap, text, after, hline, hmark, hgap, htext⟩ := h
  rw [Bool.or_eq_true, decide_eq_true_eq, decide_eq_true_eq] at hc
  cases before with
  | nil => exact ⟨[], c, gap, text, after, by rw [(List.cons.inj hline).2]; rfl, hc, hgap, htext⟩
  | cons b before =>
    exact ⟨c :: before, mark, gap, text, after, by rw [(List.cons.inj hline).2]; rfl, hmark, hgap, htext⟩

theorem HasType.blank {line : List Char} (h : HasType (',' :: line)) {c : Char}
    (hc : Text.isBlank c = true) : HasType (',' :: c :: line) := by
  obtain ⟨before, mark, gap, text, after, hline, hmark, hgap, htext⟩ := h
  cases before with
  | nil =>
    refine ⟨[], ',', c :: gap, text, after, by rw [(List.cons.inj hline).2]; rfl, .inl rfl, ?_, htext⟩
    exact List.forall_mem_cons.2 ⟨hc, hgap⟩
  | cons b before =>
    exact ⟨',' :: c :: before, mark, gap, text, after, by rw [(List.cons.inj hline).2]; rfl, hmark, hgap,
      htext⟩

theorem typesIn_ne_nil_of_hasType {line : List Char} (h : HasType line) (search : TypeSearch) :
    typesIn search line ≠ [] := by
  obtain ⟨before, mark, gap, text, after, rfl, hmark, hgap, -⟩ := h
  have hmark : (mark = ',' || mark = '\x7b') = true := by
    rwa [Bool.or_eq_true, decide_eq_true_eq, decide_eq_true_eq]
  induction before generalizing search with
  | nil =>
    have hclose : '"' ∈ text ++ '"' :: after := by simp
    have hmore := typesIn_gap_ne_nil hgap hclose
    cases search with
    | inside t => exact typesIn_inside_ne_nil (by simp) t
    | outside => rwa [List.nil_append, typesIn_outside, if_pos hmark]
    | expecting => rwa [List.nil_append, typesIn_expecting, if_pos hmark]
  | cons c before ih =>
    cases search with
    | inside t => exact typesIn_inside_ne_nil (by simp) t
    | outside =>
      rw [List.cons_append, typesIn_outside]
      split
      · exact ih _
      · exact ih _
    | expecting =>
      rw [List.cons_append, typesIn_expecting]
      split
      · exact ih _
      · split
        · exact ih _
        · split
          · exact ih _
          · exact ih _

theorem hasType_of_typesIn (search : TypeSearch) {line : List Char}
    (hsearch : ∀ text, search = .inside text → '"' ∉ text) (h : typesIn search line ≠ []) :
    HasType (search.led ++ line) := by
  fun_induction typesIn search line with
  | case1 => exact absurd rfl h
  | case2 text rest ih =>
    exact ⟨[], ',', [], text.reverse, rest, rfl, .inl rfl, by simp, by simpa using hsearch text rfl⟩
  | case3 text c rest hc ih =>
    have hmore := ih (fun t ht => by
      cases ht
      rw [List.mem_cons, not_or]
      exact ⟨fun he => hc he.symm, hsearch text rfl⟩) h
    rwa [TypeSearch.led, List.reverse_cons, List.cons_append, List.cons_append, List.append_assoc] at hmore
  | case4 search c rest hnot hc ih =>
    have hmark := (ih (fun _ he => by cases he) h).mark hc
    cases search with
    | inside text => exact absurd rfl (hnot text)
    | outside => exact hmark
    | expecting => exact hmark.cons ','
  | case5 rest hnot hc ih => exact ih (fun _ he => by cases he; exact List.not_mem_nil) h
  | case6 c rest hc hquote hblank _ ih => exact (ih (fun _ he => by cases he) h).blank hblank
  | case7 c rest hc hquote hblank _ ih => exact ((ih (fun _ he => by cases he) h).cons c).cons ','
  | case8 search c rest hnot hc hexpecting ih =>
    have hrest := (ih (fun _ he => by cases he) h).cons c
    cases search with
    | inside text => exact absurd rfl (hnot text)
    | outside => exact hrest
    | expecting => exact absurd rfl hexpecting

theorem typesIn_ne_nil_iff {line : List Char} : typesIn .outside line ≠ [] ↔ HasType line :=
  ⟨hasType_of_typesIn .outside (fun _ he => by cases he), fun h => typesIn_ne_nil_of_hasType h .outside⟩

theorem startsHex_eq_true {line : List Char} (h : startsHex line = true) :
    ∃ x rest, line = '0' :: x :: rest ∧ rest.head?.any Hash.isDigit = true := by
  unfold startsHex at h
  split at h
  · rename_i x rest
    exact ⟨x, rest, rfl, (Bool.and_eq_true_iff.1 h).2⟩
  · cases h

theorem hexDigitsIn?_cons (c : Char) (line : List Char) : hexDigitsIn? (c :: line) =
    if startsHex (c :: line) then some (line.tail.takeWhile Hash.isDigit) else hexDigitsIn? line := by
  by_cases h : ∃ x digits, c = '0' ∧ line = x :: digits
  · obtain ⟨x, digits, rfl, rfl⟩ := h
    rfl
  · rw [if_neg, hexDigitsIn?]
    · exact fun x digits hc hline => h ⟨x, digits, hc, hline⟩
    · intro hstart
      obtain ⟨x, digits, hline, -⟩ := startsHex_eq_true hstart
      exact h ⟨x, digits, List.cons.inj hline⟩

theorem hexDigitsIn?_eq_some_iff {line digits : List Char} : hexDigitsIn? line = some digits ↔
    ∃ before x rest, line = before ++ '0' :: x :: rest ∧ startsHex ('0' :: x :: rest) = true ∧
      (∀ earlier more, before = earlier ++ more → more ≠ [] →
        startsHex (more ++ '0' :: x :: rest) = false) ∧
      digits = rest.takeWhile Hash.isDigit := by
  induction line with
  | nil =>
    refine ⟨nofun, ?_⟩
    rintro ⟨before, x, rest, hline, -⟩
    exact absurd hline.symm (by simp)
  | cons c line ih =>
    rw [hexDigitsIn?_cons]
    cases hstart : startsHex (c :: line) with
    | true =>
      rw [if_pos rfl, Option.some.injEq]
      constructor
      · rintro rfl
        obtain ⟨x, rest, hline, -⟩ := startsHex_eq_true hstart
        obtain ⟨rfl, rfl⟩ := List.cons.inj hline
        refine ⟨[], x, rest, rfl, hstart, fun earlier more he hmore => ?_, rfl⟩
        exact absurd (List.append_eq_nil_iff.1 he.symm).2 hmore
      · rintro ⟨before, x, rest, hline, -, hfirst, rfl⟩
        cases before with
        | nil => rw [(List.cons.inj hline).2, List.tail_cons]
        | cons b before =>
          have := hfirst [] (b :: before) rfl (List.cons_ne_nil b before)
          rw [← hline, hstart] at this
          cases this
    | false =>
      rw [if_neg Bool.false_ne_true, ih]
      constructor
      · rintro ⟨before, x, rest, rfl, hx, hfirst, rfl⟩
        refine ⟨c :: before, x, rest, rfl, hx, fun earlier more he hmore => ?_, rfl⟩
        cases earlier with
        | nil => rw [List.nil_append] at he; rw [← he]; exact hstart
        | cons e earlier => exact hfirst earlier more (List.cons.inj he).2 hmore
      · rintro ⟨before, x, rest, hline, hx, hfirst, rfl⟩
        cases before with
        | nil => rw [hline, List.nil_append, hx] at hstart; cases hstart
        | cons b before =>
          refine ⟨before, x, rest, (List.cons.inj hline).2, hx, fun earlier more he hmore => ?_, rfl⟩
          exact hfirst (b :: earlier) more (by rw [he]; rfl) hmore

theorem hash_eq_some_iff {line : List Char} {hash : UInt64} :
    (hexDigitsIn? line).bind Hash.word? = some hash ↔ HasHash line hash := by
  have hword : ∀ x rest, startsHex ('0' :: x :: rest) = true →
      (Hash.word? (rest.takeWhile Hash.isDigit) = some hash ↔
        ∃ n, Hash.value? (rest.takeWhile Hash.isDigit) = some n ∧ n < 2 ^ (64 : Nat) ∧
          hash = .ofNat n) := by
    intro x rest hx
    obtain ⟨y, digits, hline, hhead⟩ := startsHex_eq_true hx
    cases hline
    cases rest with
    | nil => cases hhead
    | cons d rest =>
      have hd : Hash.isDigit d = true := hhead
      rw [List.takeWhile_cons_of_pos hd, Hash.word?, Option.bind_eq_some_iff]
      · refine exists_congr fun n => and_congr_right fun _ => ?_
        split
        · rename_i hn
          simp only [hn, true_and, Option.some.injEq]
          exact eq_comm
        · rename_i hn
          exact iff_of_false (Option.some_ne_none hash).symm fun h => hn h.1
      · simp
  rw [Option.bind_eq_some_iff]
  constructor
  · rintro ⟨digits, hdigits, hhash⟩
    obtain ⟨before, x, rest, hline, hx, hfirst, rfl⟩ := hexDigitsIn?_eq_some_iff.1 hdigits
    obtain ⟨n, hn⟩ := (hword x rest hx).1 hhash
    exact ⟨before, x, rest, n, hline, hx, hfirst, hn⟩
  · rintro ⟨before, x, rest, n, hline, hx, hfirst, hn⟩
    exact ⟨_, hexDigitsIn?_eq_some_iff.2 ⟨before, x, rest, hline, hx, hfirst, rfl⟩,
      (hword x rest hx).2 ⟨n, hn⟩⟩

end SignatureFile

end NativeCatalogue
