import Mathlib.Data.List.Nodup
import NativeCatalogue.Proofs.SortedMap
import NativeCatalogue.Record.Catalogue

set_option autoImplicit false

namespace NativeCatalogue.Catalogue

open Arithmetic

theorem size_eq (c : Catalogue) :
    c.size = (c.namespaces.toList.map fun e => e.2.size).sum := by
  rw [size, counts, List.map_map]
  rfl

section Insert

variable (c : Catalogue) (ns : String) (r : NativeRecord)

theorem inNamespace_insert_self :
    (c.insert ns r).inNamespace ns = (c.inNamespace ns).insert r.hash r := by
  rw [inNamespace, insert, SortedMap.get?_insert_self, Option.getD_some]

theorem inNamespace_insert_of_ne {other : String} (h : other ≠ ns) :
    (c.insert ns r).inNamespace other = c.inNamespace other := by
  rw [inNamespace, insert, SortedMap.get?_insert_of_ne _ _ _ h]
  rfl

theorem get?_insert_self : (c.insert ns r).get? ns r.hash = some r := by
  rw [get?, inNamespace_insert_self, SortedMap.get?_insert_self]

theorem get?_insert_of_ne {other hash : String} (h : ¬ (ns = other ∧ r.hash = hash)) :
    (c.insert ns r).get? other hash = c.get? other hash := by
  by_cases hns : other = ns
  · have hhash : hash ≠ r.hash := fun he => h ⟨hns.symm, he.symm⟩
    rw [get?, get?, hns, inNamespace_insert_self, SortedMap.get?_insert_of_ne _ _ _ hhash]
  · rw [get?, get?, inNamespace_insert_of_ne c ns r hns]

theorem size_insert :
    (c.insert ns r).size = if (c.get? ns r.hash).isSome then c.size else c.size + 1 := by
  have hold : ((SortedMap.lookup ns c.namespaces.toList).map SortedMap.size).getD 0 =
      (c.inNamespace ns).size := by
    change ((c.namespaces.get? ns).map SortedMap.size).getD 0 = ((c.namespaces.get? ns).getD ∅).size
    cases c.namespaces.get? ns <;> rfl
  have hsum : (c.insert ns r).size + (c.inNamespace ns).size =
      c.size + ((c.inNamespace ns).insert r.hash r).size := by
    rw [size_eq, size_eq, ← hold]
    exact SortedMap.sum_place SortedMap.size _ _ c.namespaces.sorted
  rw [SortedMap.size_insert] at hsum
  change _ = if ((c.inNamespace ns).get? r.hash).isSome then c.size else c.size + 1
  split at hsum
  · rename_i htaken
    rw [if_pos htaken]
    exact Nat.add_right_cancel hsum
  · rename_i hfree
    rw [if_neg hfree]
    omega

end Insert

theorem get?_of_mem {c : Catalogue} {ns hash : String} {records : SortedMap String NativeRecord}
    {r : NativeRecord} (hns : (ns, records) ∈ c.namespaces.toList)
    (hr : (hash, r) ∈ records.toList) : c.get? ns hash = some r := by
  rw [get?, inNamespace, SortedMap.get?_of_mem hns, Option.getD_some]
  exact SortedMap.get?_of_mem hr

def KeepsHashes (c : Catalogue) : Prop :=
  ∀ ns hash r, c.get? ns hash = some r → r.hash = hash

theorem length_toList (c : Catalogue) : c.toList.length = c.size := by
  rw [toList, List.length_flatMap, size_eq]
  refine congrArg List.sum (List.map_congr_left fun e _ => ?_)
  rw [List.length_map, SortedMap.values, List.length_map, SortedMap.size]

theorem mem_toList_iff {c : Catalogue} {e : String × NativeRecord} :
    e ∈ c.toList ↔ ∃ records hash, (e.1, records) ∈ c.namespaces.toList ∧ (hash, e.2) ∈ records.toList := by
  obtain ⟨ns, r⟩ := e
  simp only [toList, SortedMap.values, List.mem_flatMap, List.mem_map, Prod.exists, Prod.mk.injEq]
  constructor
  · rintro ⟨_, records, hns, _, ⟨hash, _, hr, rfl⟩, rfl, rfl⟩
    exact ⟨records, hash, hns, hr⟩
  · rintro ⟨records, hash, hns, hr⟩
    exact ⟨ns, records, hns, r, ⟨hash, r, hr, rfl⟩, rfl, rfl⟩

section KeepsHashes

variable {c : Catalogue} (h : c.KeepsHashes)

include h

theorem KeepsHashes.mem_toList_iff {e : String × NativeRecord} :
    e ∈ c.toList ↔ c.get? e.1 e.2.hash = some e.2 := by
  rw [Catalogue.mem_toList_iff]
  constructor
  · rintro ⟨records, hash, hns, hr⟩
    have hget := get?_of_mem hns hr
    rw [h _ _ _ hget]
    exact hget
  · intro hget
    cases hrecords : c.namespaces.get? e.1 with
    | none =>
      rw [get?, inNamespace, hrecords] at hget
      cases hget
    | some records =>
      rw [get?, inNamespace, hrecords] at hget
      exact ⟨records, e.2.hash, SortedMap.mem_of_get? hrecords, SortedMap.mem_of_get? hget⟩

theorem KeepsHashes.nodup_toList : c.toList.Nodup := by
  have hhash : ∀ {ns records e}, (ns, records) ∈ c.namespaces.toList → e ∈ records.toList →
      e.2.hash = e.1 := fun hns he => h _ _ _ (get?_of_mem hns he)
  refine List.nodup_flatMap.2 ⟨fun ⟨ns, records⟩ hns => ?_, ?_⟩
  · simp only [SortedMap.values, List.map_map]
    refine (SortedMap.nodup_toList records).map_on fun a ha b hb hab => ?_
    obtain hr : a.2 = b.2 := (Prod.mk.inj hab).2
    exact Prod.ext ((hhash hns ha).symm.trans (hr ▸ hhash hns hb)) hr
  · refine (List.pairwise_map.1 (SortedMap.nodup_keys c.namespaces)).imp fun hne e hleft hright => ?_
    obtain ⟨_, -, rfl⟩ := List.mem_map.1 hleft
    obtain ⟨_, -, he⟩ := List.mem_map.1 hright
    exact hne (Prod.mk.inj he).1.symm

end KeepsHashes

end NativeCatalogue.Catalogue
