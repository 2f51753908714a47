import Mathlib.Data.List.Forall2
import Mathlib.Data.Nat.Digits.Defs
import NativeCatalogue.Proofs.Hash.Spelling
import NativeCatalogue.Signature.File

set_option autoImplicit false

namespace NativeCatalogue

namespace Hash

open Arithmetic

def IsDigitOf (c : Char) (k : Nat) : Prop :=
  k < 16 ∧ (c = Nat.digitChar k ∨ c = (Nat.digitChar k).toUpper)

def Denotes (digits : List Char) (n : Nat) : Prop :=
  ∃ values, List.Forall₂ IsDigitOf digits values ∧ Nat.ofDigits 16 values.reverse = n

theorem digit?_eq_some_iff {c : Char} {k : Nat} : digit? c = some k ↔ IsDigitOf c k := by
  constructor
  · intro h
    have hk := lt_of_digit? h
    refine ⟨hk, ?_⟩
    have lower : ∀ k : Fin 16, (Nat.digitChar k).isUpper = false := by decide
    have upper : ∀ k : Fin 16, 10 ≤ k.val → (Nat.digitChar k).toUpper.isUpper = true := by decide
    cases hcase : c.isUpper with
    | false => exact .inl (digit?_inj h (digit?_digitChar hk) (hcase.trans (lower ⟨k, hk⟩).symm))
    | true =>
      have hletter : 10 ≤ k := by
        have := digit?_eq_some h
        have := Text.isUpper_iff.1 hcase
        omega
      exact .inr (digit?_inj h (digit?_toUpper_digitChar hk)
        (hcase.trans (upper ⟨k, hk⟩ hletter).symm))
  · rintro ⟨hk, rfl | rfl⟩
    · exact digit?_digitChar hk
    · exact digit?_toUpper_digitChar hk

theorem foldlM_digits_eq_some_iff {digits : List Char} {start n : Nat} :
    digits.foldlM (fun n c => (digit? c).map (n * 16 + ·)) start = some n ↔
      ∃ values, List.Forall₂ IsDigitOf digits values ∧
        start * 16 ^ values.length + Nat.ofDigits 16 values.reverse = n := by
  induction digits generalizing start with
  | nil => simp [List.forall₂_nil_left_iff]
  | cons c digits ih =>
    have place : ∀ (k : Nat) (values : List Nat),
        (start * 16 + k) * 16 ^ values.length + Nat.ofDigits 16 values.reverse =
          start * 16 ^ (k :: values).length + Nat.ofDigits 16 (k :: values).reverse := by
      intro k values
      rw [List.reverse_cons, Nat.ofDigits_append, Nat.ofDigits_singleton, List.length_reverse,
        List.length_cons, Nat.pow_succ]
      ring
    rw [List.foldlM_cons]
    constructor
    · intro h
      obtain ⟨_, hnext, hrest⟩ := Option.bind_eq_some_iff.1 h
      obtain ⟨k, hk, rfl⟩ := Option.map_eq_some_iff.1 hnext
      obtain ⟨values, hvalues, hn⟩ := ih.1 hrest
      exact ⟨k :: values, .cons (digit?_eq_some_iff.1 hk) hvalues, (place k values).symm.trans hn⟩
    · rintro ⟨_, hdigits, hn⟩
      obtain ⟨k, values, hk, hvalues, rfl⟩ := List.forall₂_cons_left_iff.1 hdigits
      rw [digit?_eq_some_iff.2 hk]
      exact ih.2 ⟨values, hvalues, (place k values).trans hn⟩

theorem value?_eq_some_iff {digits : List Char} {n : Nat} :
    value? digits = some n ↔ Denotes digits n := by
  rw [value?, foldlM_digits_eq_some_iff]
  simp [Denotes]

theorem value?_zeros (zeros : Nat) (digits : List Char) :
    value? (List.replicate zeros '0' ++ digits) = value? digits := by
  induction zeros with
  | zero => rfl
  | succ zeros ih => exact ih

theorem isDigitOf_iff_toNat {c : Char} {k : Nat} : IsDigitOf c k ↔ k < 16 ∧
    (c.toNat = (if k < 10 then 48 else 87) + k ∨ c.toNat = (if k < 10 then 48 else 55) + k) := by
  have codes : ∀ k : Fin 16, (Nat.digitChar k).toNat = (if k.val < 10 then 48 else 87) + k.val ∧
      (Nat.digitChar k).toUpper.toNat = (if k.val < 10 then 48 else 55) + k.val := by decide
  refine and_congr_right fun hk => ?_
  rw [← (codes ⟨k, hk⟩).1, ← (codes ⟨k, hk⟩).2, Char.toNat_inj, Char.toNat_inj]

theorem digit?_toLower (c : Char) : digit? c.toLower = digit? c := by
  refine Option.ext fun k => ?_
  rw [digit?_eq_some_iff, digit?_eq_some_iff, isDigitOf_iff_toNat, isDigitOf_iff_toNat,
    Text.toNat_toLower]
  refine and_congr_right fun hk => ?_
  split
  · rename_i hupper
    have := Text.isUpper_iff.1 hupper
    split <;> omega
  · rename_i hupper
    have := mt Text.isUpper_iff.2 hupper
    rfl

theorem value?_map_toLower (digits : List Char) :
    value? (digits.map Char.toLower) = value? digits := by
  rw [value?, List.foldlM_map, value?]
  exact congrArg (fun step => digits.foldlM step 0)
    (funext fun n => funext fun c => congrArg (Option.map (n * 16 + ·)) (digit?_toLower c))

def marks : List (List Char) :=
  [[], ['0', 'x'], ['0', 'X']]

def signs : List (List Char) :=
  [[], ['+']]

/-- A text of a number: hexadecimal digits, at least one, behind at most one mark and one plus sign. -/
def IsTextOf (s : String) (n : Nat) : Prop :=
  ∃ mark ∈ marks, ∃ sign ∈ signs, ∃ digits,
    s.toList = mark ++ (sign ++ digits) ∧ digits ≠ [] ∧ Denotes digits n

theorem exists_mark (cs : List Char) : ∃ mark ∈ marks, cs = mark ++ dropMark cs := by
  unfold dropMark
  split
  · exact ⟨['0', 'x'], by simp [marks], rfl⟩
  · exact ⟨['0', 'X'], by simp [marks], rfl⟩
  · exact ⟨[], by simp [marks], rfl⟩

theorem exists_sign (cs : List Char) : ∃ sign ∈ signs, cs = sign ++ dropPlus cs := by
  unfold dropPlus
  split
  · exact ⟨['+'], by simp [signs], rfl⟩
  · exact ⟨[], by simp [signs], rfl⟩

theorem dropMark_of_digits {digits : List Char} (h : ∀ c ∈ digits, isDigit c = true) :
    dropMark digits = digits := by
  unfold dropMark
  split
  · exact absurd (h 'x' (by simp)) (by decide)
  · exact absurd (h 'X' (by simp)) (by decide)
  · rfl

/-- Digits hold neither a mark nor a sign, so that no more than these are taken from in front of them. -/
theorem dropPlus_dropMark {mark sign digits : List Char} (hmark : mark ∈ marks) (hsign : sign ∈ signs)
    (h : ∀ c ∈ digits, isDigit c = true) : dropPlus (dropMark (mark ++ (sign ++ digits))) = digits := by
  have hplus : dropPlus (sign ++ digits) = digits := by
    simp only [signs, List.mem_cons, List.not_mem_nil, or_false] at hsign
    rcases hsign with rfl | rfl
    · exact dropPlus_of_digits h
    · rfl
  have hdrop : dropMark (mark ++ (sign ++ digits)) = sign ++ digits := by
    simp only [marks, List.mem_cons, List.not_mem_nil, or_false] at hmark
    rcases hmark with rfl | rfl | rfl
    · simp only [signs, List.mem_cons, List.not_mem_nil, or_false] at hsign
      rcases hsign with rfl | rfl
      · exact dropMark_of_digits h
      · rfl
    · rfl
    · rfl
  rw [hdrop, hplus]

theorem isDigit_of_denotes {digits : List Char} {n : Nat} (h : Denotes digits n) :
    ∀ c ∈ digits, isDigit c = true :=
  isDigit_of_value? (value?_eq_some_iff.2 h)

theorem isTextOf_iff {s : String} {n : Nat} : IsTextOf s n ↔
    dropPlus (dropMark s.toList) ≠ [] ∧ value? (dropPlus (dropMark s.toList)) = some n := by
  constructor
  · rintro ⟨mark, hmark, sign, hsign, digits, hs, hne, hdigits⟩
    rw [hs, dropPlus_dropMark hmark hsign (isDigit_of_denotes hdigits)]
    exact ⟨hne, value?_eq_some_iff.2 hdigits⟩
  · rintro ⟨hne, hvalue⟩
    obtain ⟨mark, hmark, hs⟩ := exists_mark s.toList
    obtain ⟨sign, hsign, hrest⟩ := exists_sign (dropMark s.toList)
    exact ⟨mark, hmark, sign, hsign, _, hs.trans (congrArg (mark ++ ·) hrest), hne,
      value?_eq_some_iff.1 hvalue⟩

theorem parse_eq_ok_iff {s : String} {hash : UInt64} :
    parse s = .ok hash ↔ IsTextOf s hash.toNat := by
  rw [isTextOf_iff, parse]
  by_cases hne : dropPlus (dropMark s.toList) = []
  · rw [hne]
    constructor
    · rintro ⟨⟩
    · exact fun h => absurd rfl h.1
  · rw [← word?_eq_some_iff hne]
    cases word? (dropPlus (dropMark s.toList)) with
    | none =>
      constructor
      · rintro ⟨⟩
      · rintro ⟨-, ⟨⟩⟩
    | some word =>
      constructor
      · rintro ⟨⟩
        exact ⟨hne, rfl⟩
      · rintro ⟨-, ⟨⟩⟩
        rfl

theorem parse_eq_error_iff {s : String} {e : BadHash} :
    parse s = .error e ↔ e = ⟨s⟩ ∧ ¬ ∃ n < 2 ^ 64, IsTextOf s n := by
  have htext : (∃ n < 2 ^ 64, IsTextOf s n) ↔ ∃ hash, parse s = .ok hash := by
    constructor
    · rintro ⟨n, hn, h⟩
      refine ⟨.ofNat n, parse_eq_ok_iff.2 ?_⟩
      rwa [UInt64.toNat_ofNat_of_lt' hn]
    · rintro ⟨hash, h⟩
      exact ⟨hash.toNat, hash.toNat_lt, parse_eq_ok_iff.1 h⟩
  rw [htext, parse]
  cases word? (dropPlus (dropMark s.toList)) with
  | none =>
    constructor
    · rintro ⟨⟩
      refine ⟨rfl, ?_⟩
      rintro ⟨_, ⟨⟩⟩
    · rintro ⟨rfl, -⟩
      rfl
  | some word =>
    constructor
    · rintro ⟨⟩
    · exact fun h => absurd ⟨word, rfl⟩ h.2

theorem eq_or_isUpper_of_toLower {c d : Char} (h : c.toLower = d) :
    c = d ∨ c.isUpper = true ∧ c.toNat + 32 = d.toNat := by
  have hnat := congrArg Char.toNat h
  rw [Text.toNat_toLower] at hnat
  split at hnat
  · rename_i hupper
    exact .inr ⟨hupper, hnat⟩
  · exact .inl (Char.toNat_inj.1 hnat)

theorem eq_of_toLower {c d : Char} (h : c.toLower = d) (hd : d.toNat < 97) : c = d := by
  rcases eq_or_isUpper_of_toLower h with h | ⟨hupper, hnat⟩
  · exact h
  · have := Text.isUpper_iff.1 hupper
    omega

theorem mem_marks_of_toLower {mark other : List Char} (h : mark ∈ marks)
    (hcase : other.map Char.toLower = mark.map Char.toLower) : other ∈ marks := by
  simp only [marks, List.mem_cons, List.not_mem_nil, or_false] at h ⊢
  have written : mark.map Char.toLower = ['0', 'x'] → other = ['0', 'x'] ∨ other = ['0', 'X'] := by
    intro hmark
    rw [hmark] at hcase
    obtain ⟨a, as, rfl, ha, has⟩ := List.map_eq_cons_iff.1 hcase
    obtain ⟨b, bs, rfl, hb, hbs⟩ := List.map_eq_cons_iff.1 has
    rw [eq_of_toLower ha (by decide), List.map_eq_nil_iff.1 hbs]
    rcases eq_or_isUpper_of_toLower hb with rfl | ⟨-, hnat⟩
    · exact .inl rfl
    · have hX : b = 'X' := Char.toNat_inj.1 (Nat.add_right_cancel (hnat.trans rfl))
      exact .inr (by rw [hX])
  rcases h with rfl | rfl | rfl
  · exact .inl (List.map_eq_nil_iff.1 hcase)
  · exact .inr (written rfl)
  · exact .inr (written rfl)

theorem mem_signs_of_toLower {sign other : List Char} (h : sign ∈ signs)
    (hcase : other.map Char.toLower = sign.map Char.toLower) : other ∈ signs := by
  simp only [signs, List.mem_cons, List.not_mem_nil, or_false] at h ⊢
  rcases h with rfl | rfl
  · exact .inl (List.map_eq_nil_iff.1 hcase)
  · obtain ⟨a, as, rfl, ha, has⟩ := List.map_eq_cons_iff.1 hcase
    have ha : a = '+' := eq_of_toLower ha (by decide)
    exact .inr (by rw [ha, List.map_eq_nil_iff.1 has])

theorem IsTextOf.of_toLower {s t : String} {n : Nat} (h : IsTextOf s n)
    (hcase : t.toList.map Char.toLower = s.toList.map Char.toLower) : IsTextOf t n := by
  obtain ⟨mark, hmark, sign, hsign, digits, hs, hne, hdigits⟩ := h
  rw [hs, List.map_append, List.map_append] at hcase
  obtain ⟨mark', rest, ht, hmark', hrest⟩ := List.map_eq_append_iff.1 hcase
  obtain ⟨sign', digits', rfl, hsign', hdigits'⟩ := List.map_eq_append_iff.1 hrest
  refine ⟨mark', mem_marks_of_toLower hmark hmark', sign', mem_signs_of_toLower hsign hsign', digits',
    ht, ?_, ?_⟩
  · rintro rfl
    exact hne (List.map_eq_nil_iff.1 hdigits'.symm)
  · rw [← value?_eq_some_iff, ← value?_map_toLower, hdigits', value?_map_toLower, value?_eq_some_iff]
    exact hdigits

theorem parse_eq_ok_of_toLower {s t : String} (h : s.toList.map Char.toLower = t.toList.map Char.toLower)
    (hash : UInt64) : parse s = .ok hash ↔ parse t = .ok hash := by
  rw [parse_eq_ok_iff, parse_eq_ok_iff]
  exact ⟨fun hs => hs.of_toLower h.symm, fun ht => ht.of_toLower h⟩

theorem isTextOf_iff_value? {mark sign digits : List Char} (hmark : mark ∈ marks) (hsign : sign ∈ signs)
    (hne : digits ≠ []) (h : ∀ c ∈ digits, isDigit c = true) {n : Nat} :
    IsTextOf (.ofList (mark ++ (sign ++ digits))) n ↔ value? digits = some n := by
  rw [isTextOf_iff, String.toList_ofList, dropPlus_dropMark hmark hsign h]
  exact and_iff_right hne

theorem parse_zeros {mark sign digits : List Char} (hmark : mark ∈ marks) (hsign : sign ∈ signs)
    (hne : digits ≠ []) (h : ∀ c ∈ digits, isDigit c = true) (zeros : Nat) (hash : UInt64) :
    parse (.ofList (mark ++ (sign ++ (List.replicate zeros '0' ++ digits)))) = .ok hash ↔
      parse (.ofList (mark ++ (sign ++ digits))) = .ok hash := by
  have hzeros : ∀ c ∈ List.replicate zeros '0' ++ digits, isDigit c = true := by
    intro c hc
    rcases List.mem_append.1 hc with hc | hc
    · rw [List.eq_of_mem_replicate hc]
      rfl
    · exact h c hc
  rw [parse_eq_ok_iff, parse_eq_ok_iff, isTextOf_iff_value? hmark hsign hne h,
    isTextOf_iff_value? hmark hsign (List.append_ne_nil_of_right_ne_nil _ hne) hzeros, value?_zeros]

def lowerText (hash : UInt64) : String :=
  "0x" ++ .ofList (lowerHex hash.toNat)

theorem toList_lowerText (hash : UInt64) :
    (lowerText hash).toList = '0' :: 'x' :: lowerHex hash.toNat := by
  rw [lowerText, String.toList_append, @String.toList_ofList (lowerHex hash.toNat)]
  rfl

theorem parse_lowerText (hash : UInt64) : parse (lowerText hash) = .ok hash := by
  exact parse_eq_ok_iff.2 ⟨['0', 'x'], by simp [marks], [], by simp [signs], lowerHex hash.toNat,
    toList_lowerText hash, Nat.toDigits_ne_nil, value?_eq_some_iff.1 (value?_toDigits hash.toNat)⟩

theorem head?_groupLines (hash : UInt64) (signatures : List Signature) :
    (SignatureFile.groupLines hash signatures).head? =
      some ("[".toList ++ (lowerText hash).toList ++ "] = \x7b".toList) := by
  rw [toList_lowerText]
  rfl

/-- The written forms of a hash are read as it, and a text is read as a number exactly if it is a text of that
    number, however many zeros stand in front and in whatever case its letters are. All other texts fail, and
    the error has the whole text. -/
theorem parse_reads :
    (∀ hash : UInt64, parse (text hash) = .ok hash ∧ parse (lowerText hash) = .ok hash ∧
      ∀ signatures, (SignatureFile.groupLines hash signatures).head? =
        some ("[".toList ++ (lowerText hash).toList ++ "] = \x7b".toList)) ∧
    (∀ (s : String) (hash : UInt64), parse s = .ok hash ↔ IsTextOf s hash.toNat) ∧
    (∀ (s : String) (e : BadHash),
      parse s = .error e ↔ e = ⟨s⟩ ∧ ¬ ∃ n < 2 ^ 64, IsTextOf s n) ∧
    (∀ mark ∈ marks, ∀ sign ∈ signs, ∀ (digits : List Char) (zeros : Nat) (hash : UInt64), digits ≠ [] →
      (∀ c ∈ digits, isDigit c = true) →
        (parse (.ofList (mark ++ (sign ++ (List.replicate zeros '0' ++ digits)))) = .ok hash ↔
          parse (.ofList (mark ++ (sign ++ digits))) = .ok hash)) ∧
    ∀ (s t : String) (hash : UInt64), s.toList.map Char.toLower = t.toList.map Char.toLower →
      (parse s = .ok hash ↔ parse t = .ok hash) :=
  ⟨fun hash => ⟨HashComment.parse_text hash, parse_lowerText hash, head?_groupLines hash⟩,
    fun _ _ => parse_eq_ok_iff, fun _ _ => parse_eq_error_iff,
    fun _ hmark _ hsign _ zeros hash hne h => parse_zeros hmark hsign hne h zeros hash,
    fun _ _ hash h => parse_eq_ok_of_toLower h hash⟩

theorem parse_reads_sample :
    parse (.ofList (['0', 'X'] ++ (['+'] ++ (List.replicate 17 '0' ++ ['f', 'F'])))) = .ok 255 ∧
      "0Xab".toList.map Char.toLower = "0xAB".toList.map Char.toLower ∧ parse "0Xab" = .ok 0xAB := by
  have hmark : ['0', 'X'] ∈ marks := by decide
  have hsign : ['+'] ∈ signs := by decide
  have hdigits : ∀ c ∈ ['f', 'F'], isDigit c = true := List.all_eq_true.1 rfl
  have hcase : "0Xab".toList.map Char.toLower = "0xAB".toList.map Char.toLower := by decide
  have hzeros := (parse_reads.2.2.2.1 _ hmark _ hsign _ 17 255 (List.cons_ne_nil 'f' ['F']) hdigits).2
    (by decide)
  exact ⟨hzeros, hcase, (parse_reads.2.2.2.2 _ _ 0xAB hcase).2 (by decide)⟩

example : parse "0x10000000000000000" = .error ⟨"0x10000000000000000"⟩ := by decide

end Hash

end NativeCatalogue
