import NativeCatalogue.Json.Reader
import NativeCatalogue.Proofs.Text.Digits
import NativeCatalogue.Proofs.Text.Pieces

set_option autoImplicit false

namespace NativeCatalogue.JsonText

open Text (Symbol)

def withUnit (unit : StringUnit) : List StringUnit × List Symbol → List StringUnit × List Symbol :=
  fun (units, after) => (unit :: units, after)

theorem scanString_escape {e c : Char} (h : escapeChar? e = some c) (rest : List Symbol) :
    scanString (some '\\' :: some e :: rest) = (scanString rest).map (withUnit (.char c)) := by
  have hu : e ≠ 'u' := by
    rintro rfl
    cases h
  rw [scanString]
  · rw [Option.bind_eq_bind, Option.bind_some, Option.bind_eq_bind, h]
    cases scanString rest <;> rfl
  · intro a b c d r he
    exact absurd he (by simp [hu])

theorem scanString_code (a b c d : Char) {na nb nc nd : Nat} (ha : hexValue? (some a) = some na)
    (hb : hexValue? (some b) = some nb) (hc : hexValue? (some c) = some nc)
    (hd : hexValue? (some d) = some nd) (rest : List Symbol) :
    scanString (some '\\' :: some 'u' :: some a :: some b :: some c :: some d :: rest) =
      (scanString rest).map (withUnit (.code (((na * 16 + nb) * 16 + nc) * 16 + nd))) := by
  rw [scanString, ha, hb, hc, hd]
  cases scanString rest <;> rfl

theorem scanString_plain {c : Char} (hquote : c ≠ '"') (hescape : c ≠ '\\') (hcontrol : 0x20 ≤ c.toNat)
    (rest : List Symbol) : scanString (some c :: rest) = (scanString rest).map (withUnit (.char c)) := by
  have hunit : plainUnit? (some c) = some (.char c) := by
    simp [plainUnit?, hescape, Nat.not_lt.2 hcontrol]
  rw [scanString]
  · rw [hunit]
    cases scanString rest <;> rfl
  all_goals simp [hquote, hescape]

theorem hexValue?_hexDigit (n : Nat) : hexValue? (some (hexDigit n)) = some (n % 16) := by
  have all : ∀ n : Fin 16, hexValue? (some (Nat.digitChar n)) = some n.val := by decide
  exact all ⟨n % 16, Nat.mod_lt n (by decide)⟩

theorem unitChars?_code (n : Nat) (h : n < 0x20) (units : List StringUnit) :
    unitChars? (.code n :: units) = (unitChars? units).map (Char.ofNat n :: ·) := by
  have hhigh : ¬ (0xD800 ≤ n ∧ n ≤ 0xDBFF) := by omega
  have hlow : ¬ (0xDC00 ≤ n ∧ n ≤ 0xDFFF) := by omega
  have hhalf : ¬ (0xD800 ≤ n ∧ n ≤ 0xDFFF) := by omega
  cases units with
  | nil => simp [unitChars?, hhalf]
  | cons unit units => cases unit <;> simp [unitChars?, hhigh, hlow, hhalf]

theorem scanString_quoteChar (c : Char) : ∃ unit,
    (∀ units, unitChars? (unit :: units) = (unitChars? units).map (c :: ·)) ∧
      ∀ rest, scanString ((quoteChar c).map some ++ rest) = (scanString rest).map (withUnit unit) := by
  have escaped : ∀ e d, escapeChar? e = some d → ∃ unit,
      (∀ units, unitChars? (unit :: units) = (unitChars? units).map (d :: ·)) ∧
        ∀ rest, scanString (['\\', e].map some ++ rest) = (scanString rest).map (withUnit unit) :=
    fun e d h => ⟨.char d, fun _ => rfl, scanString_escape h⟩
  unfold quoteChar
  split
  · rename_i h; exact h ▸ escaped '"' '"' rfl
  split
  · rename_i h; exact h ▸ escaped '\\' '\\' rfl
  split
  · rename_i h; exact h ▸ escaped 'b' '\x08' rfl
  split
  · rename_i h; exact h ▸ escaped 'f' '\x0c' rfl
  split
  · rename_i h; exact h ▸ escaped 'n' '\n' rfl
  split
  · rename_i h; exact h ▸ escaped 'r' '\r' rfl
  split
  · rename_i h; exact h ▸ escaped 't' '\t' rfl
  split
  · rename_i hcontrol
    have hcode : ((0 * 16 + 0) * 16 + c.toNat / 16 % 16) * 16 + c.toNat % 16 = c.toNat := by omega
    refine ⟨.code c.toNat, fun units => ?_, fun rest => ?_⟩
    · rw [unitChars?_code c.toNat hcontrol, Char.ofNat_toNat]
    · have hzero : hexValue? (some '0') = some 0 := rfl
      have hscan := scanString_code '0' '0' (hexDigit (c.toNat / 16)) (hexDigit c.toNat) hzero hzero
        (hexValue?_hexDigit _) (hexValue?_hexDigit _) rest
      rwa [hcode] at hscan
  · rename_i hquote hescape _ _ _ _ _ hcontrol
    exact ⟨.char c, fun _ => rfl, scanString_plain hquote hescape (Nat.not_lt.1 hcontrol)⟩

theorem scanString_quoted (cs : List Char) : ∃ units, unitChars? units = some cs ∧
    ∀ rest, scanString ((cs.flatMap quoteChar).map some ++ some '"' :: rest) = some (units, rest) := by
  induction cs with
  | nil => exact ⟨[], rfl, fun rest => rfl⟩
  | cons c cs ih =>
    obtain ⟨units, hchars, hscan⟩ := ih
    obtain ⟨unit, hunit, hfirst⟩ := scanString_quoteChar c
    refine ⟨unit :: units, by rw [hunit, hchars, Option.map_some], fun rest => ?_⟩
    rw [List.flatMap_cons, List.map_append, List.append_assoc, hfirst, hscan]
    rfl

theorem scanToken_quote (s : String) (rest : List Symbol) :
    scanToken ((quote s).map some ++ rest) = some (.string (some s), rest) := by
  obtain ⟨units, hchars, hscan⟩ := scanString_quoted s.toList
  have hshape : (quote s).map some ++ rest =
      some '"' :: ((s.toList.flatMap quoteChar).map some ++ some '"' :: rest) := by
    simp [quote]
  rw [hshape, scanToken, scanTokenAt, hscan]
  simp only [Option.map_some, hchars, String.ofList_toList]

def EndsNumber (rest : List Symbol) : Prop :=
  ∀ x ∈ rest.head?, isDigit x = false ∧ x ∉ [some '.', some 'e', some 'E']

theorem leadingDigits_append {ds : List Char} (h : ∀ c ∈ ds, c.isDigit = true) {rest : List Symbol}
    (hrest : ∀ x ∈ rest.head?, isDigit x = false) :
    leadingDigits (ds.map some ++ rest) = ds ∧ afterDigits (ds.map some ++ rest) = rest := by
  have hall : (ds.map some).all isDigit = true := by
    rw [List.all_map]
    exact List.all_eq_true.2 h
  obtain ⟨htake, hdrop⟩ := List.takeWhile_append_of_head hall hrest
  refine ⟨?_, hdrop⟩
  rw [leadingDigits, htake, List.filterMap_map]
  exact List.filterMap_some

theorem head?_toDigits {n : Nat} (h : 0 < n) : (Nat.toDigits 10 n).head? ≠ some '0' := by
  induction n using Nat.base_induction 10 (by decide) with
  | single n hn =>
    have all : ∀ n : Fin 10, 0 < n.val → Nat.digitChar n ≠ '0' := by decide
    rw [Nat.toDigits_of_lt_base hn, List.head?_cons]
    exact fun he => all ⟨n, hn⟩ h (Option.some.inj he)
  | digit n k hk hn ih =>
    obtain ⟨c, digits, hdigits⟩ := List.exists_cons_of_ne_nil (Nat.toDigits_ne_nil (n := n) (b := 10))
    rw [← Nat.toDigits_append_toDigits (by decide) hn hk]
    rw [hdigits] at ih ⊢
    exact ih hn

theorem scanFraction_end {rest : List Symbol} (h : EndsNumber rest) : scanFraction rest = some ([], rest) := by
  unfold scanFraction
  split
  · exact absurd (h _ rfl).2 (by decide)
  · rfl

theorem scanExponent_end {rest : List Symbol} (h : EndsNumber rest) : scanExponent rest = some (none, rest) := by
  cases rest with
  | nil => rfl
  | cons x rest =>
    have hx := (h x rfl).2
    rw [scanExponent, if_neg (by simp_all)]

theorem scanNumber_toDigits (negative : Bool) (n : Nat) {rest : List Symbol} (h : EndsNumber rest) :
    scanNumber negative ((Nat.toDigits 10 n).map some ++ rest) =
      some (⟨negative, Nat.toDigits 10 n, [], none⟩, rest) := by
  have hdigits : ∀ c ∈ Nat.toDigits 10 n, c.isDigit = true := fun c hc =>
    Text.isDigit_of_mem_toDigits hc
  obtain ⟨hwhole, hafter⟩ := leadingDigits_append hdigits fun x hx => (h x hx).1
  have hfirst : ¬ (Nat.toDigits 10 n = [] ||
      (Nat.toDigits 10 n).head? = some '0' && (Nat.toDigits 10 n).length ≠ 1) = true := by
    rcases Nat.eq_zero_or_pos n with rfl | hn
    · rw [Nat.toDigits_zero]
      decide
    · simp [Nat.toDigits_ne_nil, head?_toDigits hn]
  rw [scanNumber, hwhole, hafter]
  dsimp only
  rw [if_neg hfirst, scanFraction_end h, Option.bind_eq_bind, Option.bind_some, scanExponent_end h]
  rfl

theorem scanTokenAt_digit {c : Char} (h : c.isDigit = true) (rest : List Symbol) :
    scanTokenAt c rest = (scanNumber false (some c :: rest)).map fun (n, after) => (.number n, after) := by
  unfold scanTokenAt
  split
  case h_12 => rfl
  all_goals exact absurd h (by decide)

theorem scanToken_ofInt (i : Int) {rest : List Symbol} (h : EndsNumber rest) :
    scanToken ((Numeral.ofInt i).print.map some ++ rest) = some (.number (.ofInt i), rest) := by
  have hprint : (Numeral.ofInt i).print = (if i < 0 then ['-'] else []) ++ Nat.toDigits 10 i.natAbs := by
    simp [Numeral.print, Numeral.ofInt]
  rw [hprint]
  by_cases hi : i < 0
  · rw [if_pos hi, List.singleton_append, List.map_cons, List.cons_append, scanToken, scanTokenAt,
      scanNumber_toDigits true i.natAbs h, Numeral.ofInt, decide_eq_true hi]
    rfl
  · have hnumber := scanNumber_toDigits false i.natAbs h
    have hdigits : ∀ c ∈ Nat.toDigits 10 i.natAbs, c.isDigit = true := fun c hc =>
      Text.isDigit_of_mem_toDigits hc
    rw [if_neg hi, List.nil_append, Numeral.ofInt, decide_eq_false hi]
    obtain ⟨c, digits, hcons⟩ := List.exists_cons_of_ne_nil (Nat.toDigits_ne_nil (n := i.natAbs) (b := 10))
    rw [hcons, List.map_cons, List.cons_append] at hnumber ⊢
    rw [scanToken, scanTokenAt_digit (hdigits c (hcons ▸ List.mem_cons_self)), hnumber]
    rfl

theorem tokens?_nil : tokens? [] = some [] := by
  rw [tokens?]
  rfl

theorem scanToken_space {x : Symbol} (h : isSpace x = true) (rest : List Symbol) :
    scanToken (x :: rest) = none := by
  cases x with
  | none => cases h
  | some c =>
    have hc : ((c = ' ' ∨ c = '\t') ∨ c = '\n') ∨ c = '\r' := by
      simpa [isSpace] using h
    rcases hc with ((rfl | rfl) | rfl) | rfl <;> rfl

theorem tokens?_eq {cs : List Symbol} : tokens? cs =
    match cs.dropWhile isSpace with
    | [] => some []
    | x :: rest => (scanToken (x :: rest)).bind fun (t, after) => (tokens? after).map (t :: ·) := by
  rw [tokens?]
  split
  · rename_i hdrop
    rw [hdrop]
  · rename_i x rest hdrop
    rw [hdrop]
    dsimp only
    split
    · rename_i hscan
      rw [hscan, Option.bind_none]
    · rename_i t after hscan
      rw [hscan, Option.bind_some]

theorem tokens?_space {x : Symbol} (h : isSpace x = true) (rest : List Symbol) :
    tokens? (x :: rest) = tokens? rest := by
  rw [tokens?_eq, List.dropWhile_cons_of_pos h, ← tokens?_eq]

theorem tokens?_scan {cs rest : List Symbol} {t : Token} (h : scanToken cs = some (t, rest)) :
    tokens? cs = (tokens? rest).map (t :: ·) := by
  cases cs with
  | nil => cases h
  | cons x cs =>
    have hx : ¬ isSpace x = true := by
      intro hx
      rw [scanToken_space hx] at h
      cases h
    rw [tokens?_eq, List.dropWhile_cons_of_neg hx]
    dsimp only
    rw [h, Option.bind_some]

theorem tokens?_newline (layout : Layout) (depth : Nat) (rest : List Symbol) :
    tokens? ((layout.newline depth).map some ++ rest) = tokens? rest := by
  cases layout with
  | compact => rfl
  | pretty =>
    rw [Layout.newline, List.map_cons, List.cons_append, tokens?_space rfl]
    induction 2 * depth with
    | zero => rfl
    | succ n ih => rw [List.replicate_succ, List.map_cons, List.cons_append, tokens?_space rfl, ih]

theorem tokens?_colon (layout : Layout) (rest : List Symbol) :
    tokens? (layout.colon.map some ++ rest) = (tokens? rest).map (.colon :: ·) := by
  cases layout with
  | compact => exact tokens?_scan rfl
  | pretty =>
    rw [← tokens?_space (x := some ' ') rfl rest]
    exact tokens?_scan rfl

end NativeCatalogue.JsonText
