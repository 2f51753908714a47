import NativeCatalogue.Binary.Decimal
import NativeCatalogue.Hash.Basic

set_option autoImplicit false

namespace NativeCatalogue

theorem Text.isDigit_of_mem_toDigits {n : Nat} {c : Char} (h : c ∈ Nat.toDigits 10 n) :
    c.isDigit = true :=
  Nat.isDigit_of_mem_toDigits (by decide) (by decide) h

theorem Binary.naturalOf_toDigits (n : Nat) : naturalOf (Nat.toDigits 10 n) = n := by
  have hfold : naturalOf (Nat.toDigits 10 n) = Nat.ofDigitChars 10 (Nat.toDigits 10 n) 0 := by
    rw [Nat.ofDigitChars_eq_foldl, naturalOf]
    exact congrArg (fun f => (Nat.toDigits 10 n).foldl f 0)
      (funext fun n => funext fun c => congrArg (· + _) (Nat.mul_comm n 10))
  rw [hfold, Nat.ofDigitChars_ten_toDigits]

namespace Hash

theorem digit?_digitChar {n : Nat} (h : n < 16) : digit? (Nat.digitChar n) = some n := by
  have all : ∀ n : Fin 16, digit? (Nat.digitChar n) = some n.val := by decide
  exact all ⟨n, h⟩

theorem digit?_toUpper_digitChar {n : Nat} (h : n < 16) :
    digit? (Nat.digitChar n).toUpper = some n := by
  have all : ∀ n : Fin 16, digit? (Nat.digitChar n).toUpper = some n.val := by decide
  exact all ⟨n, h⟩

theorem value?_append (as bs : List Char) :
    value? (as ++ bs) = (value? as).bind fun n =>
      bs.foldlM (fun n c => (digit? c).map (n * 16 + ·)) n := by
  rw [value?, List.foldlM_append]
  rfl

/-- Digits denote their number in whatever way each of them is written. -/
theorem value?_map_toDigits (write : Char → Char)
    (h : ∀ k < 16, digit? (write (Nat.digitChar k)) = some k) (n : Nat) :
    value? ((Nat.toDigits 16 n).map write) = some n := by
  induction n using Nat.base_induction 16 (by decide) with
  | single n hn =>
    rw [Nat.toDigits_of_lt_base hn]
    simp [value?, h n hn]
  | digit n k hk hn ih =>
    rw [← Nat.toDigits_append_toDigits (by decide) hn hk, List.map_append, value?_append, ih,
      Nat.toDigits_of_lt_base hk]
    simp [h k hk, Nat.mul_comm]

theorem value?_toDigits (n : Nat) : value? (Nat.toDigits 16 n) = some n := by
  simpa using value?_map_toDigits id (fun _ hk => digit?_digitChar hk) n

theorem value?_upperHex (n : Nat) : value? (upperHex n) = some n :=
  value?_map_toDigits Char.toUpper (fun _ hk => digit?_toUpper_digitChar hk) n

theorem word?_of_value? {digits : List Char} {hash : UInt64} (h : value? digits = some hash.toNat)
    (hne : digits ≠ []) : word? digits = some hash := by
  cases digits with
  | nil => exact absurd rfl hne
  | cons c digits =>
    rw [word?]
    · rw [h, Option.bind_some, if_pos hash.toNat_lt, UInt64.ofNat_toNat]
    · exact hne

theorem word?_lowerHex (hash : UInt64) : word? (lowerHex hash.toNat) = some hash :=
  word?_of_value? (value?_toDigits hash.toNat) Nat.toDigits_ne_nil

theorem isDigit_of_value? {digits : List Char} {n : Nat} (h : value? digits = some n) :
    ∀ c ∈ digits, isDigit c = true := by
  rw [value?] at h
  generalize 0 = start at h
  induction digits generalizing start with
  | nil => exact fun c hc => absurd hc List.not_mem_nil
  | cons d digits ih =>
    rw [List.foldlM_cons] at h
    obtain ⟨next, hnext, hrest⟩ := Option.bind_eq_some_iff.1 h
    obtain ⟨k, hk, -⟩ := Option.map_eq_some_iff.1 hnext
    intro c hc
    rcases List.mem_cons.1 hc with rfl | hc
    · rw [isDigit, hk]; rfl
    · exact ih next hrest c hc

theorem isDigit_of_mem_lowerHex {n : Nat} {c : Char} (h : c ∈ lowerHex n) : isDigit c = true :=
  isDigit_of_value? (value?_toDigits n) c h

end Hash

end NativeCatalogue
