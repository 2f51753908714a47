import NativeCatalogue.Binary.Basic
import NativeCatalogue.SortedMap

set_option autoImplicit false

namespace NativeCatalogue.SortedMap

open Arithmetic

variable {κ α : Type} [Ord κ]

theorem ext_toList {m n : SortedMap κ α} (h : m.toList = n.toList) : m = n := by
  cases m
  cases n
  cases h
  rfl

theorem lookup_eq [Std.LawfulEqOrd κ] [BEq κ] [LawfulBEq κ] (key : κ) (xs : List (κ × α)) :
    lookup key xs = xs.lookup key := by
  induction xs with
  | nil => rfl
  | cons x xs ih =>
    rw [lookup, List.lookup_cons]
    by_cases h : key = x.1
    · rw [h, if_pos Std.ReflCmp.compare_self, beq_self_eq_true]
    · rw [if_neg fun he => h (Std.LawfulEqCmp.eq_of_compare he), beq_false_of_ne h, ih]

theorem nodup_keys [Std.LawfulEqOrd κ] (m : SortedMap κ α) : (m.toList.map Prod.fst).Nodup := by
  refine List.pairwise_map.2 (m.sorted.imp fun {a b} hlt he => ?_)
  have heq : compare b.1 b.1 = .eq := Std.ReflCmp.compare_self
  rw [he, heq] at hlt
  cases hlt

theorem nodup_toList [Std.LawfulEqOrd κ] (m : SortedMap κ α) : m.toList.Nodup :=
  (List.pairwise_map.1 (nodup_keys m)).imp fun hne he => hne (congrArg Prod.fst he)

theorem get?_filter [Std.LawfulEqOrd κ] (m : SortedMap κ α) {p : κ → Bool} {key : κ}
    (h : p key = true) : (m.filter fun k _ => p k).get? key = m.get? key := by
  obtain ⟨xs, sorted⟩ := m
  change lookup key (xs.filter fun e => p e.1) = lookup key xs
  clear sorted
  induction xs with
  | nil => rfl
  | cons x xs ih =>
    rw [lookup]
    by_cases hkey : compare key x.1 = .eq
    · have hx : p x.1 = true := Std.LawfulEqCmp.eq_of_compare hkey ▸ h
      rw [if_pos hkey, List.filter_cons, if_pos hx, lookup, if_pos hkey]
    · rw [if_neg hkey, ← ih]
      by_cases hx : p x.1 = true
      · rw [List.filter_cons, if_pos hx, lookup, if_neg hkey]
      · rw [List.filter_cons, if_neg hx]

theorem lookup_place_self [Std.LawfulEqOrd κ] {key : κ} {value : α} (xs : List (κ × α)) :
    lookup key (place key value xs) = some value := by
  have hself : compare key key = .eq := Std.ReflCmp.compare_self
  induction xs with
  | nil => rw [place, lookup, if_pos hself]
  | cons x xs ih =>
    rw [place]
    split
    · rw [lookup, if_pos hself]
    · rw [lookup, if_pos hself]
    · rename_i hgt
      rw [lookup, if_neg (by rw [hgt]; decide), ih]

theorem lookup_place_of_ne [Std.LawfulEqOrd κ] {key other : κ} (h : other ≠ key) (value : α)
    (xs : List (κ × α)) : lookup other (place key value xs) = lookup other xs := by
  have hne : compare other key ≠ .eq := fun he => h (Std.LawfulEqCmp.eq_of_compare he)
  induction xs with
  | nil => exact if_neg hne
  | cons x xs ih =>
    rw [place]
    split
    · rw [lookup, if_neg hne]
    · rename_i heq
      have hx : key = x.1 := Std.LawfulEqCmp.eq_of_compare heq
      rw [lookup, if_neg hne, lookup, if_neg (hx ▸ hne)]
    · rw [lookup, lookup, ih]

theorem lookup_eq_none {key : κ} {xs : List (κ × α)} (h : ∀ x ∈ xs, compare key x.1 = .lt) :
    lookup key xs = none := by
  induction xs with
  | nil => rfl
  | cons x xs ih =>
    rw [lookup, if_neg (by rw [h x List.mem_cons_self]; decide)]
    exact ih fun y hy => h y (List.mem_cons_of_mem x hy)

/-- A weight of the entries grows by that of the new one, less that of the one it replaces. -/
theorem sum_place [Std.TransOrd κ] (weight : α → Nat) (key : κ) (value : α) {xs : List (κ × α)}
    (h : xs.Pairwise fun a b => compare a.1 b.1 = .lt) :
    ((place key value xs).map fun e => weight e.2).sum + ((lookup key xs).map weight).getD 0 =
      (xs.map fun e => weight e.2).sum + weight value := by
  induction xs with
  | nil => exact Nat.add_comm _ _
  | cons x xs ih =>
    obtain ⟨k, v⟩ := x
    obtain ⟨hx, hxs⟩ := List.pairwise_cons.1 h
    rw [place]
    split
    · rename_i hlt
      have hnone : lookup key ((k, v) :: xs) = none :=
        lookup_eq_none fun y hy => (List.mem_cons.1 hy).elim (fun he => he ▸ hlt)
          fun hy => Std.TransCmp.lt_trans hlt (hx y hy)
      rw [hnone, List.map_cons, List.sum_cons, Option.map_none, Option.getD_none, Nat.add_zero]
      exact Nat.add_comm _ _
    · rename_i heq
      simp only [lookup, if_pos heq, List.map_cons, List.sum_cons, Option.map_some, Option.getD_some]
      omega
    · rename_i hgt
      have hne : compare key k ≠ .eq := by rw [hgt]; decide
      have hrest := ih hxs
      simp only [lookup, if_neg hne, List.map_cons, List.sum_cons]
      omega

theorem get?_of_mem [Std.LawfulEqOrd κ] [Std.TransOrd κ] {m : SortedMap κ α} {key : κ} {value : α}
    (h : (key, value) ∈ m.toList) : m.get? key = some value := by
  obtain ⟨xs, sorted⟩ := m
  change (key, value) ∈ xs at h
  change lookup key xs = some value
  induction xs with
  | nil => cases h
  | cons x xs ih =>
    obtain ⟨hx, hxs⟩ := List.pairwise_cons.1 sorted
    rcases List.mem_cons.1 h with rfl | h
    · rw [lookup, if_pos Std.ReflCmp.compare_self]
    · have hgt : compare key x.1 = .gt := Std.OrientedCmp.gt_iff_lt.2 (hx (key, value) h)
      rw [lookup, if_neg (by rw [hgt]; decide)]
      exact ih hxs h

theorem mem_of_get? [Std.LawfulEqOrd κ] {m : SortedMap κ α} {key : κ} {value : α}
    (h : m.get? key = some value) : (key, value) ∈ m.toList := by
  obtain ⟨xs, sorted⟩ := m
  change lookup key xs = some value at h
  change (key, value) ∈ xs
  clear sorted
  induction xs with
  | nil => cases h
  | cons x xs ih =>
    rw [lookup] at h
    split at h
    · rename_i heq
      cases h
      rw [Std.LawfulEqOrd.eq_of_compare heq]
      exact List.mem_cons_self
    · exact List.mem_cons_of_mem x (ih h)

section Maps

variable [Std.TransOrd κ] [Std.LawfulEqOrd κ] (m : SortedMap κ α) (key : κ) (value : α)

theorem get?_insert_self : (m.insert key value).get? key = some value :=
  lookup_place_self m.toList

theorem get?_insert_of_ne {other : κ} (h : other ≠ key) :
    (m.insert key value).get? other = m.get? other :=
  lookup_place_of_ne h value m.toList

theorem size_insert :
    (m.insert key value).size = if (m.get? key).isSome then m.size else m.size + 1 := by
  have hcount : ∀ xs : List (κ × α), (xs.map fun _ => 1).sum = xs.length := fun xs => by
    rw [List.map_const', List.sum_replicate_nat, Nat.mul_one]
  have hsum := sum_place (fun _ => 1) key value m.sorted
  rw [hcount, hcount] at hsum
  change (m.insert key value).size + ((m.get? key).map fun _ => 1).getD 0 = m.size + 1 at hsum
  cases hget : m.get? key with
  | none =>
    rw [hget] at hsum
    exact hsum
  | some old =>
    rw [hget] at hsum
    exact Nat.add_right_cancel hsum

end Maps

section Lookups

variable [Std.LawfulEqOrd κ]

theorem get?_erase_self (m : SortedMap κ α) (key : κ) : (m.erase key).get? key = none := by
  refine Option.eq_none_iff_forall_ne_some.2 fun value h => ?_
  have hmem := mem_of_get? h
  simp [erase, filter] at hmem

theorem get?_erase_of_ne (m : SortedMap κ α) {key other : κ} (h : other ≠ key) :
    (m.erase key).get? other = m.get? other := by
  have hne : compare key other ≠ .eq := fun he => h (Std.LawfulEqCmp.eq_of_compare he).symm
  exact get?_filter m (p := fun k => compare key k != .eq) (bne_iff_ne.2 hne)

variable [Std.TransOrd κ]

theorem get?_eq_some_iff {m : SortedMap κ α} {key : κ} {value : α} :
    m.get? key = some value ↔ (key, value) ∈ m.toList :=
  ⟨mem_of_get?, get?_of_mem⟩

/-- Maps that have the same values at all keys are equal, as their lists are in the same order. -/
theorem ext_get? {m n : SortedMap κ α} (h : ∀ key, m.get? key = n.get? key) : m = n := by
  have hperm : m.toList.Perm n.toList := by
    refine (List.perm_ext_iff_of_nodup (nodup_toList m) (nodup_toList n)).2 fun e => ?_
    rw [← get?_eq_some_iff, ← get?_eq_some_iff, h]
  refine ext_toList (hperm.eq_of_pairwise (fun a b _ _ hab hba => ?_) m.sorted n.sorted)
  have hgt : compare b.1 a.1 = .gt := Std.OrientedCmp.gt_iff_lt.2 hab
  rw [hgt] at hba
  cases hba

end Lookups

section Lists

variable [Std.TransOrd κ]

theorem place_last {key : κ} {xs : List (κ × α)} (h : ∀ x ∈ xs, compare x.1 key = .lt) (value : α) :
    place key value xs = xs ++ [(key, value)] := by
  induction xs with
  | nil => rfl
  | cons x xs ih =>
    have hgt : compare key x.1 = .gt := Std.OrientedCmp.gt_iff_lt.2 (h x List.mem_cons_self)
    rw [place, hgt]
    exact congrArg (x :: ·) (ih fun y hy => h y (List.mem_cons_of_mem x hy))

variable [Std.LawfulEqOrd κ]

theorem toList_foldl_insert {xs : List (κ × α)} {m : SortedMap κ α}
    (h : (m.toList ++ xs).Pairwise fun a b => compare a.1 b.1 = .lt) :
    (xs.foldl (fun m e => m.insert e.1 e.2) m).toList = m.toList ++ xs := by
  induction xs generalizing m with
  | nil => rw [List.append_nil]; rfl
  | cons x xs ih =>
    have hlast : (m.insert x.1 x.2).toList = m.toList ++ [x] :=
      place_last (fun y hy => (List.pairwise_append.1 h).2.2 y hy x List.mem_cons_self) x.2
    have hsorted : ((m.insert x.1 x.2).toList ++ xs).Pairwise fun a b => compare a.1 b.1 = .lt := by
      rw [hlast, List.append_assoc]
      exact h
    rw [List.foldl_cons, ih hsorted, hlast, List.append_assoc]
    rfl

theorem ofList_toList (m : SortedMap κ α) : ofList m.toList = m :=
  ext_toList (toList_foldl_insert (m := ∅) m.sorted)

theorem mem_foldl_insert {xs : List (κ × α)} {m : SortedMap κ α} {e : κ × α}
    (h : e ∈ (xs.foldl (fun m e => m.insert e.1 e.2) m).toList) : e ∈ m.toList ∨ e ∈ xs := by
  induction xs generalizing m with
  | nil => exact .inl h
  | cons x xs ih =>
    rcases ih h with h | h
    · rcases mem_place h with rfl | h
      · exact .inr List.mem_cons_self
      · exact .inl h
    · exact .inr (List.mem_cons_of_mem x h)

theorem mem_of_mem_ofList {xs : List (κ × α)} {e : κ × α} (h : e ∈ (ofList xs).toList) : e ∈ xs :=
  (mem_foldl_insert h).resolve_left List.not_mem_nil

end Lists

end NativeCatalogue.SortedMap
