import Mathlib.Data.Nat.ModEq
import Mathlib.Data.Nat.Prime.Basic
import NativeCatalogue.Binary.Basic
import NativeCatalogue.Proofs.Basic
import NativeCatalogue.Proofs.Hash.Spelling
import NativeCatalogue.Proofs.Text.Symbol

/-!
Hashes of names that differ little. Each step of the hash can be undone, so that equal ends neither bring
different hashes together nor tell equal ones apart, and a change of one byte shows in the hash.
-/

set_option autoImplicit false

namespace NativeCatalogue.Hash

open Arithmetic

/-- A word to which a copy of itself is added, shifted to the left, is multiplied by an odd number. -/
theorem add_shiftLeft_injective {k : UInt32} (hk : 0 < k.toNat % 32) :
    Function.Injective fun h : UInt32 => h + (h <<< k) := by
  intro a b hab
  have product : ∀ h : UInt32, (h + (h <<< k)).toNat = h.toNat * (1 + 2 ^ (k.toNat % 32)) % 2 ^ 32 := by
    intro h
    rw [UInt32.toNat_add, UInt32.toNat_shiftLeft, Nat.shiftLeft_eq, Nat.add_mod_mod, Nat.mul_add,
      Nat.mul_one]
  have hmod : a.toNat * (1 + 2 ^ (k.toNat % 32)) ≡ b.toNat * (1 + 2 ^ (k.toNat % 32)) [MOD 2 ^ 32] := by
    rw [Nat.ModEq, ← product, ← product]
    exact congrArg UInt32.toNat hab
  have hodd : Odd (1 + 2 ^ (k.toNat % 32)) :=
    odd_one.add_even ((Nat.even_pow' (Nat.ne_of_gt hk)).2 even_two)
  have hcancel := Nat.ModEq.cancel_right_of_coprime
    (Nat.Coprime.pow_left 32 (Nat.coprime_two_left.2 hodd)) hmod
  rw [Nat.ModEq, Nat.mod_eq_of_lt a.toNat_lt, Nat.mod_eq_of_lt b.toNat_lt] at hcancel
  exact UInt32.toNat_inj.1 hcancel

/-- Of a word and its copy, shifted to the right, the exclusive or has the word's own high bits. -/
theorem xor_shiftRight_injective {k : UInt32} (hk : 0 < k.toNat % 32) :
    Function.Injective fun h : UInt32 => h ^^^ (h >>> k) := by
  intro a b hab
  -- What the words differ in is its own shifted copy, and only zero is.
  have hshift : a ^^^ b = (a ^^^ b) >>> k := by
    have hab : a ^^^ (a >>> k) = b ^^^ (b >>> k) := hab
    rw [UInt32.shiftRight_xor, ← UInt32.xor_eq_zero_iff]
    calc
      a ^^^ b ^^^ (a >>> k ^^^ b >>> k) = a ^^^ (a >>> k) ^^^ (b ^^^ (b >>> k)) := by ac_rfl
      _ = 0 := by rw [hab, UInt32.xor_self]
  refine UInt32.xor_eq_zero_iff.1 (UInt32.toNat_inj.1 (Nat.eq_zero_of_not_pos fun hpos => ?_))
  have hlt := Nat.div_lt_self hpos (Nat.one_lt_two_pow (Nat.ne_of_gt hk))
  rw [← Nat.shiftRight_eq_div_pow, ← UInt32.toNat_shiftRight, ← hshift] at hlt
  exact Nat.lt_irrefl _ hlt

theorem mix_inj {hash other : UInt32} {byte : UInt8} : mix hash byte = mix other byte ↔ hash = other := by
  refine ⟨fun h => ?_, fun h => by rw [h]⟩
  have hsum := xor_shiftRight_injective (k := 6) (by decide) h
  exact (UInt32.add_left_inj _).1 (add_shiftLeft_injective (k := 10) (by decide) hsum)

theorem mix_byte_inj {hash : UInt32} {a b : UInt8} : mix hash a = mix hash b ↔ a = b := by
  refine ⟨fun h => ?_, fun h => by rw [h]⟩
  have hsum := xor_shiftRight_injective (k := 6) (by decide) h
  exact UInt8.toUInt32_inj.1
    ((UInt32.add_right_inj _).1 (add_shiftLeft_injective (k := 10) (by decide) hsum))

theorem finish_inj {hash other : UInt32} : finish hash = finish other ↔ hash = other := by
  refine ⟨fun h => ?_, fun h => by rw [h]⟩
  have hxor := add_shiftLeft_injective (k := 15) (by decide) h
  exact add_shiftLeft_injective (k := 3) (by decide)
    (xor_shiftRight_injective (k := 11) (by decide) hxor)

theorem foldl_mix_inj {hash other : UInt32} (bytes : List UInt8) :
    bytes.foldl mix hash = bytes.foldl mix other ↔ hash = other := by
  induction bytes generalizing hash other with
  | nil => exact Iff.rfl
  | cons byte bytes ih => exact ih.trans mix_inj

theorem joaat_append_inj (as bs back : List UInt8) :
    joaat (as ++ back) = joaat (bs ++ back) ↔ joaat as = joaat bs := by
  rw [joaat, joaat, joaat, joaat, List.foldl_append, List.foldl_append, finish_inj, finish_inj,
    foldl_mix_inj]

theorem joaat_byte_inj (front back : List UInt8) (a b : UInt8) :
    joaat (front ++ a :: back) = joaat (front ++ b :: back) ↔ a = b := by
  rw [joaat, joaat, List.foldl_append, List.foldl_append, List.foldl_cons, List.foldl_cons, finish_inj,
    foldl_mix_inj, mix_byte_inj]

def IsAscii (name : String) : Prop :=
  ∀ c ∈ name.toList, c.toNat < 128

/-- Names of one length that differ at exactly one place, case aside. -/
structure DifferOnce (x y : String) : Prop where
  length : x.length = y.length
  once : ∃! i : Nat, x.toList[i]?.map Char.toLower ≠ y.toList[i]?.map Char.toLower

theorem toNat_toLower_lt {c : Char} (h : c.toNat < 128) : c.toLower.toNat < 128 := by
  rw [Text.toNat_toLower]
  split
  · rename_i hupper
    have := Text.isUpper_iff.1 hupper
    omega
  · exact h

theorem lowerAfter_of_ascii {cs : List Char} (h : ∀ c ∈ cs, c.toNat < 128) (before : List Char) :
    Text.lowerAfter before cs = cs.map Char.toLower := by
  induction cs generalizing before with
  | nil => rfl
  | cons c cs ih =>
    obtain ⟨hc, hcs⟩ := List.forall_mem_cons.1 h
    rw [Text.lowerAfter, if_neg (by omega), ih hcs, Text.lowerChar, if_pos hc]
    rfl

theorem utf8EncodeChar_of_ascii {c : Char} (h : c.toNat < 128) :
    String.utf8EncodeChar c = [c.val.toUInt8] :=
  String.utf8EncodeChar_eq_singleton
    (Char.utf8Size_eq_one_iff.2 (UInt32.le_iff_toNat_le.2 (Nat.le_of_lt_succ h)))

theorem eq_of_byte_eq {c d : Char} (hc : c.toNat < 128) (hd : d.toNat < 128)
    (h : c.val.toUInt8 = d.val.toUInt8) : c = d := by
  have hbyte := congrArg UInt8.toNat h
  rw [UInt32.toNat_toUInt8, UInt32.toNat_toUInt8] at hbyte
  change c.toNat % 2 ^ 8 = d.toNat % 2 ^ 8 at hbyte
  exact Char.toNat_inj.1 (by omega)

theorem ofName_eq {name : String} (h : IsAscii name) :
    ofName name = joaat ((name.toList.map Char.toLower).flatMap String.utf8EncodeChar) := by
  rw [ofName, Text.toList_toUTF8, String.toList_ofList, Text.lowerCase, lowerAfter_of_ascii h]

theorem ofName_ne {x y : String} (hx : IsAscii x) (hy : IsAscii y) (h : DifferOnce x y) :
    ofName x ≠ ofName y := by
  have hlower : ∀ {name : String}, IsAscii name → ∀ c ∈ name.toList.map Char.toLower, c.toNat < 128 := by
    intro name hname c hc
    obtain ⟨d, hd, rfl⟩ := List.mem_map.1 hc
    exact toNat_toLower_lt (hname d hd)
  have hlength : (x.toList.map Char.toLower).length = (y.toList.map Char.toLower).length := by
    rw [List.length_map, List.length_map, String.length_toList, String.length_toList, h.length]
  obtain ⟨front, a, b, back, hne, hxs, hys⟩ :=
    List.exists_split_of_once hlength (by simpa only [List.getElem?_map] using h.once)
  have ha : a.toNat < 128 := hlower hx a (by rw [hxs]; simp)
  have hb : b.toNat < 128 := hlower hy b (by rw [hys]; simp)
  rw [ofName_eq hx, ofName_eq hy, hxs, hys, List.flatMap_append, List.flatMap_append, List.flatMap_cons,
    List.flatMap_cons, utf8EncodeChar_of_ascii ha, utf8EncodeChar_of_ascii hb]
  exact fun he => hne (eq_of_byte_eq ha hb ((joaat_byte_inj _ _ _ _).1 he))

/-- Equal ends neither bring hashes together nor tell them apart, a different byte always tells them apart,
    and so does a character of a name, as a number and as a text. -/
theorem near_names_apart :
    (∀ as bs back : List UInt8, joaat (as ++ back) = joaat (bs ++ back) ↔ joaat as = joaat bs) ∧
      (∀ (front back : List UInt8) (a b : UInt8), a ≠ b →
        joaat (front ++ a :: back) ≠ joaat (front ++ b :: back)) ∧
      ∀ x y : String, IsAscii x → IsAscii y → DifferOnce x y →
        ofName x ≠ ofName y ∧ text (ofName x).toUInt64 ≠ text (ofName y).toUInt64 := by
  refine ⟨joaat_append_inj, fun front back a b hne => mt (joaat_byte_inj front back a b).1 hne,
    fun x y hx hy h => ?_⟩
  have hne := ofName_ne hx hy h
  refine ⟨hne, fun he => hne ?_⟩
  have hparse := HashComment.parse_text (ofName x).toUInt64
  rw [he, HashComment.parse_text] at hparse
  exact (UInt32.toUInt64_inj.1 (Except.ok.inj hparse)).symm

theorem near_names_apart_sample :
    (1 : UInt8) ≠ 2 ∧ joaat ([7] ++ 1 :: [9]) ≠ joaat ([7] ++ 2 :: [9]) ∧
      IsAscii "WAIT" ∧ IsAscii "Waif" ∧ DifferOnce "WAIT" "Waif" ∧
        ofName "WAIT" ≠ ofName "Waif" ∧
          text (ofName "WAIT").toUInt64 ≠ text (ofName "Waif").toUInt64 := by
  have hbyte : (1 : UInt8) ≠ 2 := by decide
  have hfirst : IsAscii "WAIT" := by simp [IsAscii]
  have hsecond : IsAscii "Waif" := by simp [IsAscii]
  have hdiffer : DifferOnce "WAIT" "Waif" := by
    have hx : "WAIT".toList.map Char.toLower = ['w', 'a', 'i', 't'] := rfl
    have hy : "Waif".toList.map Char.toLower = ['w', 'a', 'i', 'f'] := rfl
    refine ⟨by decide, ?_⟩
    simp only [← List.getElem?_map, hx, hy]
    refine ⟨3, by decide, fun i hi => ?_⟩
    match i, hi with
    | 0, hi => exact absurd rfl hi
    | 1, hi => exact absurd rfl hi
    | 2, hi => exact absurd rfl hi
    | 3, _ => rfl
    | i + 4, hi => exact absurd rfl hi
  exact ⟨hbyte, near_names_apart.2.1 [7] [9] 1 2 hbyte, hfirst, hsecond, hdiffer,
    near_names_apart.2.2 _ _ hfirst hsecond hdiffer⟩

end NativeCatalogue.Hash
