import Mathlib.Data.Nat.Digits.Defs
import NativeCatalogue.Vocabulary.Vector

set_option autoImplicit false

namespace NativeCatalogue

namespace Vector3

def littleEndian (bytes : List UInt8) : Nat :=
  Nat.ofDigits 256 (bytes.map UInt8.toNat)

def doubleWordAt (bytes : List UInt8) (place : Nat) : UInt64 :=
  .ofNat (littleEndian ((bytes.drop (8 * place)).take 8))

def slotsOf (bytes : List UInt8) : List UInt64 :=
  (List.range slotCount).map (doubleWordAt bytes)

def ofSlotBytes (bytes : List UInt8) : Vector3 :=
  ofSlots (doubleWordAt bytes 0) (doubleWordAt bytes 1) (doubleWordAt bytes 2)

def lowHalf (w : UInt64) : UInt64 :=
  w &&& 0xFFFFFFFF

def paddings (v : Vector3) : List UInt32 :=
  [v.paddingX, v.paddingY, v.paddingZ]

def clearPadding (bytes : List UInt8) : List UInt8 :=
  bytes.mapIdx fun i b => if i % 8 < 4 then b else 0

theorem toNat_or_shiftLeft {low : UInt32} (byte : UInt8) {k : UInt32} (hk : k.toNat ≤ 24)
    (hlow : low.toNat < 2 ^ k.toNat) :
    (low ||| byte.toUInt32 <<< k).toNat = low.toNat + 2 ^ k.toNat * byte.toNat := by
  have hbyte := byte.toNat_lt
  have hmod : k.toNat % 32 = k.toNat := Nat.mod_eq_of_lt (by omega)
  have hpow : 2 ^ k.toNat ≤ 2 ^ 24 := Nat.pow_le_pow_right (by decide) hk
  have hlt : byte.toNat * 2 ^ k.toNat < 2 ^ 32 :=
    calc byte.toNat * 2 ^ k.toNat
        ≤ byte.toNat * 2 ^ 24 := Nat.mul_le_mul_left _ hpow
      _ < 2 ^ 32 := by omega
  rw [UInt32.toNat_or, UInt32.toNat_shiftLeft, UInt8.toNat_toUInt32, hmod, Nat.shiftLeft_eq,
    Nat.mod_eq_of_lt hlt, Nat.mul_comm byte.toNat, Nat.or_comm,
    ← Nat.two_pow_add_eq_or_of_lt hlow, Nat.add_comm]

theorem littleEndian_four (a b c d : UInt8) : littleEndian [a, b, c, d] =
    a.toNat + 2 ^ 8 * b.toNat + 2 ^ 16 * c.toNat + 2 ^ 24 * d.toNat := by
  simp only [littleEndian, List.map_cons, List.map_nil, Nat.ofDigits_cons, Nat.ofDigits_nil]
  omega

theorem toNat_wordOf (a b c d : UInt8) : (wordOf a b c d).toNat = littleEndian [a, b, c, d] := by
  have ha := a.toNat_lt
  have hb := b.toNat_lt
  have hc := c.toNat_lt
  have hfirst : a.toUInt32.toNat = a.toNat := a.toNat_toUInt32
  have hsecond : (a.toUInt32 ||| b.toUInt32 <<< 8).toNat = a.toNat + 2 ^ 8 * b.toNat := by
    rw [toNat_or_shiftLeft b (by decide) (by rw [hfirst]; exact ha), hfirst]
    rfl
  have hthird : (a.toUInt32 ||| b.toUInt32 <<< 8 ||| c.toUInt32 <<< 16).toNat =
      a.toNat + 2 ^ 8 * b.toNat + 2 ^ 16 * c.toNat := by
    have hlow : (a.toUInt32 ||| b.toUInt32 <<< 8).toNat < 2 ^ (16 : UInt32).toNat := by
      change _ < 2 ^ 16
      omega
    rw [toNat_or_shiftLeft c (by decide) hlow, hsecond]
    rfl
  have hlow : (a.toUInt32 ||| b.toUInt32 <<< 8 ||| c.toUInt32 <<< 16).toNat <
      2 ^ (24 : UInt32).toNat := by
    change _ < 2 ^ 24
    omega
  rw [wordOf, toNat_or_shiftLeft d (by decide) hlow, hthird, littleEndian_four]
  rfl

theorem toNat_byte {w k : UInt32} (hk : k.toNat < 32) :
    (w >>> k).toUInt8.toNat = w.toNat / 2 ^ k.toNat % 2 ^ 8 := by
  rw [UInt32.toNat_toUInt8, UInt32.toNat_shiftRight, Nat.mod_eq_of_lt hk, Nat.shiftRight_eq_div_pow]

theorem wordBytes_eq_iff {w : UInt32} {a b c d : UInt8} : wordBytes w = [a, b, c, d] ↔
    w.toNat % 2 ^ 8 = a.toNat ∧ w.toNat / 2 ^ 8 % 2 ^ 8 = b.toNat ∧
      w.toNat / 2 ^ 16 % 2 ^ 8 = c.toNat ∧ w.toNat / 2 ^ 24 % 2 ^ 8 = d.toNat := by
  rw [wordBytes, List.cons_eq_cons, List.cons_eq_cons, List.cons_eq_cons, List.cons_eq_cons,
    ← UInt8.toNat_inj, ← UInt8.toNat_inj, ← UInt8.toNat_inj, ← UInt8.toNat_inj,
    UInt32.toNat_toUInt8, toNat_byte (by decide), toNat_byte (by decide), toNat_byte (by decide),
    and_iff_left rfl]
  exact Iff.rfl

theorem wordBytes_wordOf (a b c d : UInt8) : wordBytes (wordOf a b c d) = [a, b, c, d] := by
  have ha := a.toNat_lt
  have hb := b.toNat_lt
  have hc := c.toNat_lt
  have hd := d.toNat_lt
  rw [wordBytes_eq_iff, toNat_wordOf, littleEndian_four]
  omega

theorem littleEndian_wordBytes (w : UInt32) : littleEndian (wordBytes w) = w.toNat := by
  have hw := w.toNat_lt
  obtain ⟨ha, hb, hc, hd⟩ := wordBytes_eq_iff.1 (show wordBytes w = _ from rfl)
  rw [wordBytes, littleEndian_four, ← ha, ← hb, ← hc, ← hd]
  omega

theorem wordBytes_inj {w u : UInt32} (h : wordBytes w = wordBytes u) : w = u := by
  rw [← UInt32.toNat_inj, ← littleEndian_wordBytes, h, littleEndian_wordBytes]

theorem wordsOf_flatMap (words : List UInt32) : wordsOf (words.flatMap wordBytes) = words := by
  induction words with
  | nil => rfl
  | cons w words ih =>
    have hword : wordOf w.toUInt8 (w >>> 8).toUInt8 (w >>> 16).toUInt8 (w >>> 24).toUInt8 = w :=
      wordBytes_inj (wordBytes_wordOf _ _ _ _)
    rw [List.flatMap_cons, wordBytes]
    exact congrArg₂ List.cons hword ih

theorem flatMap_wordsOf {bytes : List UInt8} {n : Nat} (h : bytes.length = 4 * n) :
    (wordsOf bytes).flatMap wordBytes = bytes ∧ (wordsOf bytes).length = n := by
  induction n generalizing bytes with
  | zero =>
    rw [List.eq_nil_of_length_eq_zero h]
    exact ⟨rfl, rfl⟩
  | succ n ih =>
    match bytes, h with
    | a :: b :: c :: d :: rest, h =>
      have hfour : rest.length = 4 * n := by
        simp only [List.length_cons] at h
        omega
      obtain ⟨hrest, hlength⟩ := ih hfour
      rw [wordsOf, List.flatMap_cons, wordBytes_wordOf, hrest, List.length_cons, hlength]
      exact ⟨rfl, rfl⟩

theorem length_toBytes (v : Vector3) : v.toBytes.length = size :=
  rfl

theorem ofBytes?_toBytes (v : Vector3) : ofBytes? v.toBytes = .ok v := by
  rw [ofBytes?, if_pos v.length_toBytes, toBytes, wordsOf_flatMap]

theorem exists_toBytes_eq {bytes : List UInt8} (h : bytes.length = size) :
    ∃ v, toBytes v = bytes := by
  obtain ⟨hbytes, hlength⟩ := flatMap_wordsOf (n := 6) h
  match hwords : wordsOf bytes, hlength with
  | [x, px, y, py, z, pz], _ => exact ⟨⟨x, px, y, py, z, pz⟩, by rw [toBytes, ← hwords, hbytes]⟩

theorem ofBytes?_eq_ok_iff {bytes : List UInt8} {v : Vector3} :
    ofBytes? bytes = .ok v ↔ v.toBytes = bytes := by
  constructor
  · intro h
    have hlength : bytes.length = size := by
      by_contra hne
      rw [ofBytes?, if_neg hne] at h
      cases h
    obtain ⟨w, rfl⟩ := exists_toBytes_eq hlength
    rw [ofBytes?_toBytes] at h
    cases h
    rfl
  · rintro rfl
    exact v.ofBytes?_toBytes

theorem littleEndian_append (as bs : List UInt8) :
    littleEndian (as ++ bs) = littleEndian as + 256 ^ as.length * littleEndian bs := by
  rw [littleEndian, List.map_append, Nat.ofDigits_append, List.length_map]
  rfl

def doubleWord (low high : UInt32) : UInt64 :=
  .ofNat (littleEndian (wordBytes low ++ wordBytes high))

theorem toNat_doubleWord (low high : UInt32) :
    (doubleWord low high).toNat = low.toNat + 2 ^ 32 * high.toNat := by
  have hlow := low.toNat_lt
  have hhigh := high.toNat_lt
  have hlength : (wordBytes low).length = 4 := rfl
  have hvalue : littleEndian (wordBytes low ++ wordBytes high) = low.toNat + 2 ^ 32 * high.toNat := by
    rw [littleEndian_append, littleEndian_wordBytes, littleEndian_wordBytes, hlength]
    norm_num only
  rw [doubleWord, hvalue]
  exact UInt64.toNat_ofNat_of_lt' (by unfold UInt64.size; omega)

theorem toUInt32_doubleWord (low high : UInt32) : (doubleWord low high).toUInt32 = low := by
  rw [← UInt32.toNat_inj, UInt64.toNat_toUInt32, toNat_doubleWord, Nat.add_mul_mod_self_left]
  exact Nat.mod_eq_of_lt low.toNat_lt

theorem lowHalf_eq (w : UInt64) : lowHalf w = w.toUInt32.toUInt64 := by
  rw [← UInt64.toNat_inj, lowHalf, UInt64.toNat_and, UInt32.toNat_toUInt64, UInt64.toNat_toUInt32]
  exact Nat.and_two_pow_sub_one_eq_mod w.toNat 32

theorem doubleWordAt_toBytes (v : Vector3) :
    doubleWordAt v.toBytes 0 = doubleWord v.x v.paddingX ∧
      doubleWordAt v.toBytes 1 = doubleWord v.y v.paddingY ∧
      doubleWordAt v.toBytes 2 = doubleWord v.z v.paddingZ := by
  have hx : (v.toBytes.drop (8 * 0)).take 8 = wordBytes v.x ++ wordBytes v.paddingX := rfl
  have hy : (v.toBytes.drop (8 * 1)).take 8 = wordBytes v.y ++ wordBytes v.paddingY := rfl
  have hz : (v.toBytes.drop (8 * 2)).take 8 = wordBytes v.z ++ wordBytes v.paddingZ := rfl
  rw [doubleWordAt, doubleWordAt, doubleWordAt, hx, hy, hz]
  exact ⟨rfl, rfl, rfl⟩

theorem slotsOf_toBytes (v : Vector3) : slotsOf v.toBytes =
    [doubleWord v.x v.paddingX, doubleWord v.y v.paddingY, doubleWord v.z v.paddingZ] := by
  obtain ⟨hx, hy, hz⟩ := v.doubleWordAt_toBytes
  rw [← hx, ← hy, ← hz]
  rfl

theorem slots_eq (v : Vector3) : v.slots = (slotsOf v.toBytes).map lowHalf := by
  rw [slotsOf_toBytes]
  simp only [List.map_cons, List.map_nil, lowHalf_eq, toUInt32_doubleWord]
  rfl

theorem ofSlotBytes_toBytes (v : Vector3) :
    ofSlotBytes v.toBytes = { x := v.x, y := v.y, z := v.z } := by
  obtain ⟨hx, hy, hz⟩ := v.doubleWordAt_toBytes
  rw [ofSlotBytes, hx, hy, hz, ofSlots, toUInt32_doubleWord, toUInt32_doubleWord, toUInt32_doubleWord]

theorem clearPadding_toBytes (v : Vector3) :
    clearPadding v.toBytes = toBytes { x := v.x, y := v.y, z := v.z } := by
  have hzero : wordBytes 0 = [0, 0, 0, 0] := by decide
  simp only [toBytes, List.flatMap_cons, List.flatMap_nil, hzero]
  simp [clearPadding, wordBytes, List.mapIdx_cons]

theorem slots_ofSlots (a b c : UInt64) : (ofSlots a b c).slots = [a, b, c].map lowHalf := by
  simp only [List.map_cons, List.map_nil, lowHalf_eq]
  rfl

theorem patterns_ofSlots_slots (v : Vector3) :
    ∃ a b c, v.slots = [a, b, c] ∧ (ofSlots a b c).patterns = v.patterns := by
  refine ⟨_, _, _, rfl, ?_⟩
  simp only [ofSlots, patterns, UInt32.toUInt32_toUInt64]

/-- A byte string is read exactly if it has the size of a vector, and is then what the vector is written as. The
    slots of the vector are the 64-bit words of the bytes without their high halves; the vector in these
    words has the same patterns and no padding, so that its bytes are the same but for zeros where padding
    stands. -/
theorem views_agree :
    (∀ bytes, (∃ v, ofBytes? bytes = .ok v) ↔ bytes.length = size) ∧
    (∀ bytes v, ofBytes? bytes = .ok v →
      v.toBytes = bytes ∧ v.slots = (slotsOf bytes).map lowHalf ∧
      (ofSlotBytes bytes).patterns = v.patterns ∧ (ofSlotBytes bytes).paddings = [0, 0, 0] ∧
      (ofSlotBytes bytes).toBytes = clearPadding bytes) ∧
    (∀ v : Vector3, ∃ a b c, v.slots = [a, b, c] ∧ (ofSlots a b c).patterns = v.patterns) ∧
    ∀ a b c, (ofSlots a b c).slots = [a, b, c].map lowHalf := by
  refine ⟨fun bytes => ⟨?_, fun h => ?_⟩, fun bytes v h => ?_, patterns_ofSlots_slots, slots_ofSlots⟩
  · rintro ⟨v, h⟩
    rw [← ofBytes?_eq_ok_iff.1 h, length_toBytes]
  · obtain ⟨v, hv⟩ := exists_toBytes_eq h
    exact ⟨v, ofBytes?_eq_ok_iff.2 hv⟩
  · obtain rfl := ofBytes?_eq_ok_iff.1 h
    rw [ofSlotBytes_toBytes, clearPadding_toBytes]
    exact ⟨rfl, v.slots_eq, rfl, rfl, rfl⟩

def specialBytes : List UInt8 :=
  [0x34, 0x12, 0xC0, 0x7F, 0xAA, 0xAA, 0xAA, 0xAA, 0, 0, 0, 0x80, 1, 2, 3, 4, 1, 0, 0, 0, 0, 0, 0, 0xFF]

theorem views_agree_special :
    ofBytes? specialBytes = .ok ⟨0x7FC01234, 0xAAAAAAAA, 0x80000000, 0x04030201, 1, 0xFF000000⟩ ∧
      slotsOf specialBytes = [0xAAAAAAAA7FC01234, 0x0403020180000000, 0xFF00000000000001] ∧
      (ofSlotBytes specialBytes).patterns = [0x7FC01234, 0x80000000, 1] ∧
      (ofSlotBytes specialBytes).toBytes =
        [0x34, 0x12, 0xC0, 0x7F, 0, 0, 0, 0, 0, 0, 0, 0x80, 0, 0, 0, 0, 1, 0, 0, 0, 0, 0, 0, 0] := by
  have hread : ofBytes? specialBytes =
      .ok ⟨0x7FC01234, 0xAAAAAAAA, 0x80000000, 0x04030201, 1, 0xFF000000⟩ := by decide
  obtain ⟨-, -, hpatterns, -, hbytes⟩ := views_agree.2.1 specialBytes _ hread
  exact ⟨hread, by decide, hpatterns, hbytes⟩

end Vector3

end NativeCatalogue
