import NativeCatalogue.Text.Basic

set_option autoImplicit false

namespace ByteArray

theorem toList_loop_eq (bytes : ByteArray) (i : Nat) (read : List UInt8) :
    toList.loop bytes i read = read.reverse ++ bytes.data.toList.drop i := by
  fun_induction toList.loop bytes i read with
  | case1 i read h ih =>
    have hi : i < bytes.data.toList.length := by simpa using h
    rw [ih, List.drop_eq_getElem_cons hi]
    simp [get!, h]
  | case2 i read h =>
    rw [List.drop_eq_nil_of_le (by simpa using Nat.le_of_not_lt h), List.append_nil]

theorem toList_eq_data_toList (bytes : ByteArray) : bytes.toList = bytes.data.toList :=
  bytes.toList_loop_eq 0 []

theorem mk_toArray (bytes : List UInt8) : ⟨bytes.toArray⟩ = bytes.toByteArray := by
  refine ByteArray.ext (Array.toList_inj.1 ?_)
  rw [List.toList_data_toByteArray]

end ByteArray

namespace NativeCatalogue.Text

open String (utf8EncodeChar)

theorem toList_toUTF8 (s : String) : s.toUTF8.toList = s.toList.flatMap utf8EncodeChar := by
  rw [ByteArray.toList_eq_data_toList, String.toUTF8_eq_toByteArray, ← String.utf8Encode_toList,
    List.utf8Encode, List.toList_data_toByteArray]

theorem charOf?_utf8EncodeChar (c : Char) : charOf? (utf8EncodeChar c) = some c := by
  have hbytes : ByteArray.mk (utf8EncodeChar c).toArray = (String.ofList [c]).toByteArray := by
    rw [ByteArray.mk_toArray, String.toByteArray_ofList, List.utf8Encode_singleton]
  have hread : String.fromUTF8? ⟨(utf8EncodeChar c).toArray⟩ = some (String.ofList [c]) := by
    rw [hbytes, String.fromUTF8?, dif_pos (String.ofList [c]).isValidUTF8]
    rfl
  rw [charOf?, hread, Option.map_some, String.toList_ofList]

theorem eq_of_charOf? {bytes : List UInt8} {c : Char} (h : charOf? bytes = some c) :
    bytes = utf8EncodeChar c := by
  unfold charOf? at h
  split at h
  · rename_i d hread
    cases h
    obtain ⟨s, hs, hlist⟩ := Option.map_eq_some_iff.1 hread
    unfold String.fromUTF8? at hs
    split at hs
    · cases hs
      have hform : (String.fromUTF8 ⟨bytes.toArray⟩ ‹_›).toByteArray = [c].utf8Encode := by
        rw [← hlist, String.utf8Encode_toList]
      have hbytes : bytes.toByteArray = (utf8EncodeChar c).toByteArray := by
        rw [← ByteArray.mk_toArray, ← List.utf8Encode_singleton, ← hform]
        rfl
      have hdata := congrArg (fun b : ByteArray => b.data.toList) hbytes
      rwa [List.toList_data_toByteArray, List.toList_data_toByteArray] at hdata
    · cases hs
  · cases h

theorem eq_of_utf8EncodeChar_append {c d : Char} {rest more : List UInt8}
    (h : utf8EncodeChar c ++ rest = utf8EncodeChar d ++ more) : c = d := by
  have hc : ((utf8EncodeChar c ++ rest).toByteArray).utf8DecodeChar? 0 = some c := by
    rw [List.toByteArray_append, ByteArray.utf8DecodeChar?_utf8EncodeChar_append]
  rw [h, List.toByteArray_append, ByteArray.utf8DecodeChar?_utf8EncodeChar_append] at hc
  exact (Option.some.inj hc).symm

theorem charOf?_cons_take {c : Char} {b : UInt8} {bytes rest : List UInt8} (hform : utf8EncodeChar c = b :: bytes)
    {n : Nat} (hn : n ≤ bytes.length) :
    charOf? (b :: (bytes ++ rest).take n) = if n = bytes.length then some c else none := by
  split
  · rename_i hlength
    rw [hlength, List.take_left, ← hform, charOf?_utf8EncodeChar]
  · rename_i hlength
    refine Option.eq_none_iff_forall_ne_some.2 fun d hd => ?_
    -- The bytes that are taken would be the form of `d`, with which the form of `c` starts.
    have hsplit : utf8EncodeChar d ++ (bytes ++ rest).drop n = utf8EncodeChar c ++ rest := by
      rw [← eq_of_charOf? hd, hform, List.cons_append, List.take_append_drop, List.cons_append]
    have hlengths := congrArg List.length (eq_of_charOf? hd)
    rw [eq_of_utf8EncodeChar_append hsplit, hform, List.length_cons, List.length_cons,
      List.length_take, List.length_append] at hlengths
    omega

theorem firstSymbol_form {c : Char} {b : UInt8} {bytes : List UInt8} (hform : utf8EncodeChar c = b :: bytes)
    (rest : List UInt8) : firstSymbol b (bytes ++ rest) = (some c, bytes.length) := by
  have hlength : bytes.length < 4 := by
    have h := String.length_utf8EncodeChar c
    rw [hform, List.length_cons] at h
    have := c.utf8Size_le_four
    omega
  have hread : ∀ n ≤ bytes.length, charOf? (b :: (bytes ++ rest).take n) =
      if n = bytes.length then some c else none := fun n hn => charOf?_cons_take hform hn
  have hfound : ([0, 1, 2, 3].findSome? fun n => (charOf? (b :: (bytes ++ rest).take n)).map (·, n)) =
      some (c, bytes.length) := by
    generalize bytes.length = length at hlength hread ⊢
    have hsplit : [0, 1, 2, 3] = List.range length ++ length :: List.range' (length + 1) (3 - length) := by
      match length, hlength with
      | 0, _ | 1, _ | 2, _ | 3, _ => rfl
    refine List.findSome?_eq_some_iff.2 ⟨_, length, _, hsplit, ?_, fun n hn => ?_⟩
    · rw [hread length (Nat.le_refl length), if_pos rfl, Option.map_some]
    · have hlt := List.mem_range.1 hn
      rw [hread n (Nat.le_of_lt hlt), if_neg (Nat.ne_of_lt hlt), Option.map_none]
  rw [firstSymbol, hfound]

theorem symbolsOfBytes_flatMap (cs : List Char) :
    symbolsOfBytes (cs.flatMap utf8EncodeChar) = cs.map some := by
  induction cs with
  | nil => exact symbolsOfBytes.eq_1
  | cons c cs ih =>
    cases hform : utf8EncodeChar c with
    | nil =>
      have h := String.length_utf8EncodeChar c
      rw [hform] at h
      exact absurd h.symm (Nat.ne_of_gt c.utf8Size_pos)
    | cons b bytes =>
      rw [List.flatMap_cons, hform, List.cons_append, symbolsOfBytes, firstSymbol_form hform,
        List.drop_left, ih, List.map_cons]

theorem symbolsOfBytes_toUTF8 (s : String) : symbolsOfBytes s.toUTF8.toList = symbols s := by
  rw [toList_toUTF8, symbolsOfBytes_flatMap, symbols]

end NativeCatalogue.Text
