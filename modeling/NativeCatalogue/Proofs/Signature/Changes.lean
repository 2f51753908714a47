import NativeCatalogue.Proofs.Basic
import NativeCatalogue.Proofs.Signature.Storable

/-!
Tables and plain groups under the same changes. The index of a table only makes it faster: after any
changes it leads to the place of each hash, and a table answers as the groups do that went through the
same changes without an index.
-/

set_option autoImplicit false

namespace NativeCatalogue

def SignatureTable.Change.hash : SignatureTable.Change → UInt64
  | .reset hash => hash
  | .insert hash _ => hash

namespace SignatureGroups

open SignatureTable (Change)

def applyChange (groups : SignatureGroups) : Change → SignatureGroups
  | .reset hash => groups.reset hash
  | .insert hash s => (groups.insert hash s).1

def ofChanges (changes : List Change) : SignatureGroups :=
  changes.foldl applyChange []

theorem ofChanges_concat (changes : List Change) (change : Change) :
    ofChanges (changes ++ [change]) = (ofChanges changes).applyChange change := by
  rw [ofChanges, List.foldl_append]
  rfl

theorem hashes_update (hash : UInt64) (f : List Signature → List Signature)
    (groups : SignatureGroups) : hashes (update hash f groups) =
      if (hashes groups).contains hash then hashes groups else hashes groups ++ [hash] := by
  split
  · rename_i h
    exact hashes_update_of_mem (List.contains_iff_mem.1 h) f
  · rename_i h
    exact hashes_update_of_not_mem (fun hmem => h (List.contains_iff_mem.2 hmem)) f

theorem hashes_applyChange (groups : SignatureGroups) (change : Change) :
    hashes (groups.applyChange change) =
      if (hashes groups).contains change.hash then hashes groups
      else hashes groups ++ [change.hash] := by
  cases change with
  | reset hash => exact hashes_update hash _ groups
  | insert hash s =>
    rw [applyChange, insert]
    split
    · rename_i hs
      have hmem : hash ∈ hashes groups := by
        by_contra hnot
        rw [get?_of_not_mem hnot] at hs
        cases hs
      exact (if_pos (List.contains_iff_mem.2 hmem)).symm
    · exact hashes_update hash _ groups

theorem hashes_ofChanges (changes : List Change) :
    hashes (ofChanges changes) = (changes.map Change.hash).eraseDups := by
  induction changes using List.reverseRecOn with
  | nil => rfl
  | append_singleton changes change ih =>
    rw [ofChanges_concat, hashes_applyChange, ih, List.map_append, List.map_singleton,
      List.eraseDups_concat]

end SignatureGroups

namespace SignatureTable

open SignatureGroups (hashes)

/-- A table that shows groups: it leads to each group by its hash, and has the answers of the groups. -/
structure Shows (t : SignatureTable) (groups : SignatureGroups) : Prop where
  /-- An entry of the index is a place, that of the group of its hash, and each group is indexed. -/
  index : ∀ hash (place : Nat), t.index[hash]? = some place ↔
    ∃ signatures, t.groups[place]? = some (hash, signatures)
  hashes : (hashes t.toList).Nodup
  signatures : ∀ g ∈ t.toList, g.2.Nodup
  /-- What a hash leads to is what is listed under it, and there is nothing under other hashes. -/
  listed : ∀ hash signatures, t.get? hash = some signatures ↔ (hash, signatures) ∈ t.toList
  toList : t.toList = groups
  get? : ∀ hash, t.get? hash = groups.get? hash
  size : t.size = groups.length
  isEmpty : t.isEmpty = groups.isEmpty
  signatureCount : t.signatureCount = groups.signatureCount
  insert : ∀ hash s, (t.insert hash s).2 = (groups.insert hash s).2

theorem Valid.shows {t : SignatureTable} (h : t.Valid) : t.Shows t.toList where
  index hash place := by
    rw [h.place, SignatureGroups.hashes, List.getElem?_map, Option.map_eq_some_iff]
    constructor
    · rintro ⟨⟨found, signatures⟩, hgroup, rfl⟩
      exact ⟨signatures, by rw [← Array.getElem?_toList]; exact hgroup⟩
    · rintro ⟨signatures, hgroup⟩
      exact ⟨(hash, signatures), by rw [← Array.getElem?_toList] at hgroup; exact hgroup, rfl⟩
  hashes := h.hashes
  signatures := h.signatures
  listed hash signatures := by
    rw [get?_eq h]
    exact ⟨SignatureGroups.mem_of_get?, SignatureGroups.get?_of_mem h.hashes⟩
  toList := rfl
  get? := get?_eq h
  size := (Array.length_toList).symm
  isEmpty := by rw [SignatureTable.isEmpty, SignatureTable.toList, Array.isEmpty_toList]
  signatureCount := rfl
  insert hash s := congrArg Prod.snd (toList_insert h hash s)

theorem valid_change {t : SignatureTable} (h : t.Valid) (change : Change) : (change.apply t).Valid := by
  cases change with
  | reset hash => exact valid_reset h hash
  | insert hash s => exact valid_insert h hash s

theorem toList_change {t : SignatureTable} (h : t.Valid) (change : Change) :
    (change.apply t).toList = SignatureGroups.applyChange t.toList change := by
  cases change with
  | reset hash => exact toList_reset h hash
  | insert hash s => exact congrArg Prod.fst (toList_insert h hash s)

theorem valid_foldl {t : SignatureTable} (h : t.Valid) (changes : List Change) :
    (changes.foldl Change.apply t).Valid ∧ (changes.foldl Change.apply t).toList =
      changes.foldl SignatureGroups.applyChange t.toList := by
  induction changes generalizing t with
  | nil => exact ⟨h, rfl⟩
  | cons change changes ih =>
    rw [List.foldl_cons, List.foldl_cons, ← toList_change h]
    exact ih (valid_change h change)

/-- After any changes a table shows the groups that went through the same changes, which stand in the
order in which their hashes were first seen. -/
theorem shows_ofChanges (changes : List Change) :
    (ofChanges changes).Shows (SignatureGroups.ofChanges changes) ∧
      hashes (ofChanges changes).toList = (changes.map Change.hash).eraseDups := by
  obtain ⟨hvalid, hgroups⟩ := valid_foldl valid_empty changes
  have hsame : (ofChanges changes).toList = SignatureGroups.ofChanges changes := hgroups
  refine ⟨hsame ▸ Valid.shows hvalid, ?_⟩
  rw [hsame, SignatureGroups.hashes_ofChanges]

end SignatureTable

end NativeCatalogue
