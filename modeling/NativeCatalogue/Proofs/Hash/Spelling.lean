import NativeCatalogue.Binary.Basic
import NativeCatalogue.Compilation.Basic
import NativeCatalogue.Proofs.Text.Character
import NativeCatalogue.Proofs.Text.Digits

set_option autoImplicit false

namespace NativeCatalogue

open Arithmetic

namespace Hash

theorem digit?_eq_some {c : Char} {k : Nat} (h : digit? c = some k) :
    48 ≤ c.toNat ∧ c.toNat ≤ 57 ∧ c.toNat = 48 + k ∨
      97 ≤ c.toNat ∧ c.toNat ≤ 102 ∧ c.toNat = 87 + k ∨
        65 ≤ c.toNat ∧ c.toNat ≤ 70 ∧ c.toNat = 55 + k := by
  unfold digit? at h
  split at h
  · rename_i hc
    cases h
    obtain ⟨hfirst, hlast⟩ := Char.isDigit_iff_toNat.1 hc
    change 48 ≤ c.toNat at hfirst
    change c.toNat ≤ 57 at hlast
    change _ ∧ _ ∧ _ = 48 + (c.toNat - 48) ∨ _
    omega
  · split at h
    · rename_i hc
      cases h
      rw [Bool.and_eq_true, decide_eq_true_eq, decide_eq_true_eq] at hc
      obtain ⟨hfirst, hlast⟩ := hc
      change 97 ≤ c.toNat at hfirst
      change c.toNat ≤ 102 at hlast
      change _ ∨ _ ∧ _ ∧ _ = 87 + (c.toNat - 97 + 10) ∨ _
      omega
    · split at h
      · rename_i hc
        cases h
        rw [Bool.and_eq_true, decide_eq_true_eq, decide_eq_true_eq] at hc
        obtain ⟨hfirst, hlast⟩ := hc
        change 65 ≤ c.toNat at hfirst
        change c.toNat ≤ 70 at hlast
        change _ ∨ _ ∨ _ ∧ _ ∧ _ = 55 + (c.toNat - 65 + 10)
        omega
      · cases h

theorem lt_of_digit? {c : Char} {k : Nat} (h : digit? c = some k) : k < 16 := by
  have := digit?_eq_some h
  omega

theorem digit?_inj {c d : Char} {k : Nat} (hc : digit? c = some k) (hd : digit? d = some k)
    (hcase : c.isUpper = d.isUpper) : c = d := by
  have hcNat := digit?_eq_some hc
  have hdNat := digit?_eq_some hd
  rw [Bool.eq_iff_iff, Text.isUpper_iff, Text.isUpper_iff] at hcase
  exact Char.toNat_inj.1 (by omega)

theorem foldlM_digits {digits : List Char} (h : ∀ c ∈ digits, isDigit c = true) (start : Nat) :
    ∃ n, digits.foldlM (fun n c => (digit? c).map (n * 16 + ·)) start = some n ∧
      n < (start + 1) * 16 ^ digits.length := by
  induction digits generalizing start with
  | nil => exact ⟨start, rfl, by simp⟩
  | cons c digits ih =>
    obtain ⟨k, hk⟩ := Option.isSome_iff_exists.1 (h c (by simp))
    obtain ⟨n, hn, hbound⟩ := ih (fun d hd => h d (List.mem_cons_of_mem c hd)) (start * 16 + k)
    refine ⟨n, by rw [List.foldlM_cons, hk]; exact hn, ?_⟩
    have hnext : start * 16 + k + 1 ≤ (start + 1) * 16 := by
      have := lt_of_digit? hk
      omega
    calc
      n < (start * 16 + k + 1) * 16 ^ digits.length := hbound
      _ ≤ (start + 1) * 16 * 16 ^ digits.length := Nat.mul_le_mul_right _ hnext
      _ = (start + 1) * 16 ^ (c :: digits).length := by
        rw [List.length_cons, Nat.pow_succ, Nat.mul_comm (16 ^ digits.length), Nat.mul_assoc]

theorem foldlM_digits_inj {as bs : List Char} {a b n : Nat}
    (ha : as.foldlM (fun n c => (digit? c).map (n * 16 + ·)) a = some n)
    (hb : bs.foldlM (fun n c => (digit? c).map (n * 16 + ·)) b = some n)
    (hcase : as.map Char.isUpper = bs.map Char.isUpper) : a = b ∧ as = bs := by
  induction as generalizing bs a b with
  | nil =>
    cases bs with
    | nil => exact ⟨Option.some.inj (ha.trans hb.symm), rfl⟩
    | cons d bs => cases hcase
  | cons c as ih =>
    cases bs with
    | nil => cases hcase
    | cons d bs =>
      rw [List.foldlM_cons] at ha hb
      obtain ⟨_, hnextA, ha⟩ := Option.bind_eq_some_iff.1 ha
      obtain ⟨_, hnextB, hb⟩ := Option.bind_eq_some_iff.1 hb
      obtain ⟨k, hk, rfl⟩ := Option.map_eq_some_iff.1 hnextA
      obtain ⟨l, hl, rfl⟩ := Option.map_eq_some_iff.1 hnextB
      obtain ⟨hfirst, hrest⟩ := List.cons_eq_cons.1 hcase
      -- Behind these digits the numbers are equal, and both digits are below 16.
      obtain ⟨hnext, rfl⟩ := ih ha hb hrest
      have hkBound := lt_of_digit? hk
      have hlBound := lt_of_digit? hl
      obtain ⟨rfl, rfl⟩ : a = b ∧ k = l := by omega
      exact ⟨rfl, by rw [digit?_inj hk hl hfirst]⟩

theorem word?_eq_some_iff {digits : List Char} (hne : digits ≠ []) {hash : UInt64} :
    word? digits = some hash ↔ value? digits = some hash.toNat := by
  refine ⟨fun h => ?_, fun h => word?_of_value? h hne⟩
  rw [word?] at h
  · obtain ⟨n, hn, h⟩ := Option.bind_eq_some_iff.1 h
    split at h
    · rename_i hlt
      cases h
      rw [hn, UInt64.toNat_ofNat_of_lt' hlt]
    · cases h
  · exact hne

theorem dropPlus_of_digits {digits : List Char} (h : ∀ c ∈ digits, isDigit c = true) :
    dropPlus digits = digits := by
  unfold dropPlus
  split
  · exact absurd (h '+' (by simp)) (by decide)
  · rfl

def Alike (a b : String) : Prop :=
  a.toList.map Char.isUpper = b.toList.map Char.isUpper

end Hash

namespace HashComment

structure IsDigits (limit : Nat) (digits : List Char) : Prop where
  nonempty : digits ≠ []
  length : digits.length ≤ limit
  digits : ∀ c ∈ digits, Hash.isDigit c = true

theorem IsDigits.value {digits : List Char} (h : IsDigits 16 digits) :
    ∃ hash : UInt64, Hash.value? digits = some hash.toNat := by
  obtain ⟨n, hn, hbound⟩ := Hash.foldlM_digits h.digits 0
  have hpow : (0 + 1) * 16 ^ digits.length ≤ 2 ^ 64 := by
    rw [Nat.zero_add, Nat.one_mul]
    exact Nat.le_trans (Nat.pow_le_pow_right (n := 16) (by decide) h.length) (by decide)
  exact ⟨.ofNat n, by rw [UInt64.toNat_ofNat_of_lt' (Nat.lt_of_lt_of_le hbound hpow)]; exact hn⟩

theorem parse_hashText_iff {digits : List Char} (h : IsDigits 16 digits) {hash : UInt64} :
    Hash.parse (hashText digits) = .ok hash ↔ Hash.value? digits = some hash.toNat := by
  have hdrop : Hash.dropPlus (Hash.dropMark ('0' :: 'x' :: digits)) = digits :=
    Hash.dropPlus_of_digits h.digits
  rw [Hash.parse, hashText, String.toList_ofList, hdrop, ← Hash.word?_eq_some_iff h.nonempty]
  cases Hash.word? digits with
  | none => exact ⟨nofun, nofun⟩
  | some word => exact ⟨fun he => by cases he; rfl, fun he => by cases he; rfl⟩

theorem parse_hashText {digits : List Char} (h : IsDigits 16 digits) :
    ∃ hash, Hash.parse (hashText digits) = .ok hash := by
  obtain ⟨hash, hvalue⟩ := h.value
  exact ⟨hash, (parse_hashText_iff h).2 hvalue⟩

theorem hashText_inj {as bs : List Char} {hash : UInt64} (has : IsDigits 16 as)
    (hbs : IsDigits 16 bs) (ha : Hash.parse (hashText as) = .ok hash)
    (hb : Hash.parse (hashText bs) = .ok hash) (halike : Hash.Alike (hashText as) (hashText bs)) :
    as = bs := by
  rw [Hash.Alike, hashText, hashText, String.toList_ofList, String.toList_ofList] at halike
  have hcase : as.map Char.isUpper = bs.map Char.isUpper :=
    (List.cons_eq_cons.1 (List.cons_eq_cons.1 halike).2).2
  exact (Hash.foldlM_digits_inj ((parse_hashText_iff has).1 ha) ((parse_hashText_iff hbs).1 hb)
    hcase).2

theorem hashText_eq_zero_iff {digits : List Char} (h : IsDigits 16 digits) :
    hashText digits = "0x0" ↔
      Hash.parse (hashText digits) = .ok 0 ∧ digits.length = 1 := by
  constructor
  · intro he
    have hdigits : digits = ['0'] := by
      have hlist := congrArg String.toList he
      rw [hashText, String.toList_ofList] at hlist
      exact (List.cons_eq_cons.1 (List.cons_eq_cons.1 hlist).2).2
    rw [hdigits]
    exact ⟨rfl, rfl⟩
  · rintro ⟨hvalue, hlength⟩
    obtain ⟨c, rfl⟩ := List.length_eq_one_iff.1 hlength
    have hvalue := (parse_hashText_iff h).1 hvalue
    have hdigit : Hash.digit? c = some 0 := by simpa [Hash.value?] using hvalue
    have hc : c.toNat = '0'.toNat := by
      have := Hash.digit?_eq_some hdigit
      change c.toNat = 48
      omega
    rw [Char.toNat_inj.1 hc]
    rfl

theorem text_eq (hash : UInt64) : Hash.text hash = hashText (Hash.upperHex hash.toNat) := by
  simp [Hash.text, hashText, ← String.toList_inj]

theorem isDigits_upperHex (hash : UInt64) : IsDigits 16 (Hash.upperHex hash.toNat) where
  nonempty h := Nat.toDigits_ne_nil (List.map_eq_nil_iff.1 h)
  length := by
    rw [Hash.upperHex, List.length_map]
    exact (Nat.length_toDigits_le_iff (by decide) (by decide)).2 hash.toNat_lt
  digits := Hash.isDigit_of_value? (Hash.value?_upperHex hash.toNat)

theorem parse_text (hash : UInt64) : Hash.parse (Hash.text hash) = .ok hash := by
  rw [text_eq]
  exact (parse_hashText_iff (isDigits_upperHex hash)).2 (Hash.value?_upperHex hash.toNat)

end HashComment

end NativeCatalogue
