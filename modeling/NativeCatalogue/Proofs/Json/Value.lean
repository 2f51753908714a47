import NativeCatalogue.Binary.Basic
import NativeCatalogue.Json.Fields
import NativeCatalogue.Proofs.SortedMap
import NativeCatalogue.Proofs.Text.Digits

set_option autoImplicit false

namespace NativeCatalogue

open Arithmetic

inductive Json.Readable : Json → Prop
  | null : Readable .null
  | bool (b : Bool) : Readable (.bool b)
  | int (i : Int) (low : -(2 ^ (63 : Nat) : Nat) ≤ i) (high : i < (2 ^ (64 : Nat) : Nat)) : Readable (.int i)
  | float (bits : Nat) : Readable (.float bits)
  | string (s : String) : Readable (.string s)
  | array (items : List Json) (h : ∀ v ∈ items, Readable v) : Readable (.array items)
  | object (members : List (String × Json)) (sorted : Json.ofMembers members = members)
      (h : ∀ e ∈ members, Readable e.2) : Readable (.object members)

theorem Numeral.integer?_ofInt {i : Int} (low : -(2 ^ (63 : Nat) : Nat) ≤ i) (high : i < (2 ^ (64 : Nat) : Nat)) :
    (ofInt i).integer? = some i := by
  have hmagnitude : Binary.naturalOf (Nat.toDigits 10 i.natAbs) = i.natAbs :=
    Binary.naturalOf_toDigits i.natAbs
  simp only [integer?, ofInt, hmagnitude, wordMax]
  by_cases hi : i < 0
  · have hbound : ¬ (decide (i.natAbs = 0) || decide (2 ^ (63 : Nat) < i.natAbs)) = true := by
      rw [Bool.or_eq_true, decide_eq_true_eq, decide_eq_true_eq]
      omega
    have hvalue : -(i.natAbs : Int) = i := by omega
    rw [if_neg (by simp), if_pos (decide_eq_true hi), if_neg hbound, hvalue]
  · have hbound : i.natAbs ≤ 2 ^ (64 : Nat) - 1 := by omega
    have hvalue : (i.natAbs : Int) = i := by omega
    rw [if_neg (by simp), if_neg (by simp [hi]), if_pos hbound, hvalue]

namespace JsonText

theorem values?_ofItems {items : List Json} {limit : Nat}
    (h : ∀ v ∈ items, (ofJson v).value? limit = some v) :
    values? (ofItems items) limit = some items := by
  induction items with
  | nil => rfl
  | cons v items ih =>
    rw [ofItems, values?, h v List.mem_cons_self, ih fun w hw => h w (List.mem_cons_of_mem v hw)]
    rfl

theorem memberValues?_ofMembers {members : List (String × Json)} {limit : Nat}
    (h : ∀ e ∈ members, (ofJson e.2).value? limit = some e.2) :
    memberValues? (ofMembers members) limit = some members := by
  induction members with
  | nil => rfl
  | cons e members ih =>
    rw [ofMembers, memberValues?, h e List.mem_cons_self,
      ih fun d hd => h d (List.mem_cons_of_mem e hd)]
    rfl

theorem depth_le_depthOfItems {items : List Json} {v : Json} (h : v ∈ items) :
    v.depth ≤ Json.depthOfItems items := by
  induction items with
  | nil => cases h
  | cons w items ih =>
    rw [Json.depthOfItems]
    rcases List.mem_cons.1 h with rfl | h
    · exact Nat.le_max_left _ _
    · exact Nat.le_trans (ih h) (Nat.le_max_right _ _)

theorem depth_le_depthOfMembers {members : List (String × Json)} {e : String × Json}
    (h : e ∈ members) : e.2.depth ≤ Json.depthOfMembers members := by
  induction members with
  | nil => cases h
  | cons d members ih =>
    rw [Json.depthOfMembers]
    rcases List.mem_cons.1 h with rfl | h
    · exact Nat.le_max_left _ _
    · exact Nat.le_trans (ih h) (Nat.le_max_right _ _)

theorem value?_ofJson {v : Json} (h : v.Readable) {limit : Nat} (hlimit : v.depth ≤ limit) :
    (ofJson v).value? limit = some v := by
  induction h generalizing limit with
  | null => rfl
  | bool b => rfl
  | float bits => rfl
  | string s => rfl
  | int i low high => rw [ofJson, value?, Numeral.value?, Numeral.integer?_ofInt low high]
  | array items h ih =>
    cases limit with
    | zero => cases hlimit
    | succ limit =>
      have hitems : ∀ v ∈ items, (ofJson v).value? limit = some v := fun v hv =>
        ih v hv (Nat.le_trans (depth_le_depthOfItems hv) (Nat.le_of_succ_le_succ hlimit))
      rw [ofJson, value?, values?_ofItems hitems]
      rfl
  | object members sorted h ih =>
    cases limit with
    | zero => cases hlimit
    | succ limit =>
      have hmembers : ∀ e ∈ members, (ofJson e.2).value? limit = some e.2 := fun e he =>
        ih e he (Nat.le_trans (depth_le_depthOfMembers he) (Nat.le_of_succ_le_succ hlimit))
      rw [ofJson, value?, memberValues?_ofMembers hmembers, Option.map_some, sorted]

end JsonText

end NativeCatalogue
