import Mathlib.Data.List.Induction
import Mathlib.Data.List.Nodup
import NativeCatalogue.Binary.Basic
import NativeCatalogue.Signature.Basic
import NativeCatalogue.Signature.Table

set_option autoImplicit false

namespace NativeCatalogue

open Arithmetic

/-- Hashes in the order in which they were first seen, each with its signatures. -/
abbrev SignatureGroups :=
  List (UInt64 × List Signature)

namespace SignatureGroups

def update (hash : UInt64) (f : List Signature → List Signature) : SignatureGroups → SignatureGroups
  | [] => [(hash, f [])]
  | (h, signatures) :: rest =>
    if h = hash then (h, f signatures) :: rest else (h, signatures) :: update hash f rest

def reset (g : SignatureGroups) (hash : UInt64) : SignatureGroups :=
  update hash (fun _ => []) g

def get? (g : SignatureGroups) (hash : UInt64) : Option (List Signature) :=
  List.lookup hash g

def insert (g : SignatureGroups) (hash : UInt64) (s : Signature) : SignatureGroups × Bool :=
  if ((get? g hash).getD []).contains s then (g, false) else (update hash (· ++ [s]) g, true)

def signatureCount (g : SignatureGroups) : Nat :=
  (g.map fun (_, signatures) => signatures.length).sum

end SignatureGroups

namespace SignatureGroups

def hashes (groups : SignatureGroups) : List UInt64 :=
  groups.map Prod.fst

@[simp] theorem hashes_cons (g : UInt64 × List Signature) (groups : SignatureGroups) :
    hashes (g :: groups) = g.1 :: hashes groups := rfl

theorem hashes_append (as bs : SignatureGroups) : hashes (as ++ bs) = hashes as ++ hashes bs :=
  List.map_append

theorem update_of_not_mem {hash : UInt64} {f : List Signature → List Signature}
    {groups : SignatureGroups} (h : hash ∉ hashes groups) :
    update hash f groups = groups ++ [(hash, f [])] := by
  induction groups with
  | nil => rfl
  | cons g groups ih =>
    rw [hashes_cons, List.mem_cons, not_or] at h
    rw [update, if_neg fun he => h.1 he.symm, ih h.2, List.cons_append]

theorem hashes_update_of_mem {hash : UInt64} {groups : SignatureGroups}
    (h : hash ∈ hashes groups) (f : List Signature → List Signature) :
    hashes (update hash f groups) = hashes groups := by
  induction groups with
  | nil => cases h
  | cons g groups ih =>
    by_cases hg : g.1 = hash
    · rw [update, if_pos hg, hashes_cons, hashes_cons]
    · rw [hashes_cons, List.mem_cons] at h
      rw [update, if_neg hg, hashes_cons, hashes_cons, ih (h.resolve_left fun he => hg he.symm)]

theorem hashes_update_of_not_mem {hash : UInt64} {groups : SignatureGroups}
    (h : hash ∉ hashes groups) (f : List Signature → List Signature) :
    hashes (update hash f groups) = hashes groups ++ [hash] := by
  rw [update_of_not_mem h, hashes_append]
  rfl

theorem nodup_update {hash : UInt64} {groups : SignatureGroups} (h : (hashes groups).Nodup)
    (f : List Signature → List Signature) : (hashes (update hash f groups)).Nodup := by
  by_cases hmem : hash ∈ hashes groups
  · rwa [hashes_update_of_mem hmem]
  · rw [hashes_update_of_not_mem hmem, List.nodup_append]
    refine ⟨h, List.nodup_singleton hash, fun a ha b hb => ?_⟩
    rw [List.mem_singleton.1 hb]
    exact fun he => hmem (he ▸ ha)

theorem modify_eq_update {hash : UInt64} {groups : SignatureGroups} {place : Nat}
    (h : (hashes groups).Nodup) (hplace : (hashes groups)[place]? = some hash)
    (f : List Signature → List Signature) :
    groups.modify place (fun g => (g.1, f g.2)) = update hash f groups := by
  induction groups generalizing place with
  | nil => cases hplace
  | cons g groups ih =>
    rw [hashes_cons, List.nodup_cons] at h
    cases place with
    | zero =>
      have hg : g.1 = hash := Option.some.inj hplace
      rw [List.modify_zero_cons, update, if_pos hg]
    | succ place =>
      have hplace : (hashes groups)[place]? = some hash := hplace
      have hg : g.1 ≠ hash := fun he => h.1 (he ▸ List.mem_of_getElem? hplace)
      rw [List.modify_succ_cons, ih h.2 hplace, update, if_neg hg]

theorem get?_of_not_mem {hash : UInt64} {groups : SignatureGroups} (h : hash ∉ hashes groups) :
    get? groups hash = none := by
  induction groups with
  | nil => rfl
  | cons g groups ih =>
    rw [hashes_cons, List.mem_cons, not_or] at h
    rw [get?, List.lookup_cons, show (hash == g.1) = false from beq_false_of_ne h.1]
    exact ih h.2

theorem get?_of_mem {hash : UInt64} {signatures : List Signature} {groups : SignatureGroups}
    (h : (hashes groups).Nodup) (hmem : (hash, signatures) ∈ groups) :
    get? groups hash = some signatures := by
  induction groups with
  | nil => cases hmem
  | cons g groups ih =>
    rw [hashes_cons, List.nodup_cons] at h
    rcases List.mem_cons.1 hmem with rfl | hmem
    · rw [get?, List.lookup_cons, beq_self_eq_true]
    · have hg : hash ≠ g.1 := fun he => h.1 (he ▸ List.mem_map_of_mem hmem)
      rw [get?, List.lookup_cons, beq_false_of_ne hg]
      exact ih h.2 hmem

theorem mem_of_get? {hash : UInt64} {signatures : List Signature} {groups : SignatureGroups}
    (h : get? groups hash = some signatures) : (hash, signatures) ∈ groups := by
  induction groups with
  | nil => cases h
  | cons g groups ih =>
    rw [get?, List.lookup_cons] at h
    cases hg : hash == g.1 with
    | true =>
      rw [hg] at h
      cases h
      rw [eq_of_beq hg]
      exact List.mem_cons_self
    | false =>
      rw [hg] at h
      exact List.mem_cons_of_mem g (ih h)

theorem get?_update_self {hash : UInt64} {groups : SignatureGroups}
    (f : List Signature → List Signature) :
    get? (update hash f groups) hash = some (f ((get? groups hash).getD [])) := by
  induction groups with
  | nil => simp [update, get?]
  | cons g groups ih =>
    obtain ⟨h, signatures⟩ := g
    by_cases he : h = hash
    · simp [update, get?, he]
    · have hne : (hash == h) = false := beq_false_of_ne fun hh => he hh.symm
      rw [update, if_neg he, get?, get?, List.lookup_cons, List.lookup_cons, hne]
      exact ih

theorem get?_update_of_ne {hash other : UInt64} {groups : SignatureGroups} (h : other ≠ hash)
    (f : List Signature → List Signature) : get? (update hash f groups) other = get? groups other := by
  induction groups with
  | nil => simp [update, get?, h]
  | cons g groups ih =>
    rw [update]
    split
    · rename_i he
      have hne : (other == g.1) = false := beq_false_of_ne fun hg => h (hg.trans he)
      rw [get?, get?, List.lookup_cons, List.lookup_cons, hne]
    · rw [get?, get?, List.lookup_cons, List.lookup_cons]
      cases other == g.1 with
      | true => rfl
      | false => exact ih

theorem update_update {hash : UInt64} {groups : SignatureGroups}
    (f g : List Signature → List Signature) :
    update hash f (update hash g groups) = update hash (fun ss => f (g ss)) groups := by
  induction groups with
  | nil => simp [update]
  | cons group groups ih =>
    by_cases he : group.1 = hash
    · rw [update, if_pos he, update, if_pos he, update, if_pos he]
    · rw [update, if_neg he, update, if_neg he, ih, update, if_neg he]

theorem mem_update {hash : UInt64} {groups : SignatureGroups} (h : (hashes groups).Nodup)
    {f : List Signature → List Signature} {g : UInt64 × List Signature}
    (hg : g ∈ update hash f groups) :
    g ∈ groups ∨ g = (hash, f ((get? groups hash).getD [])) := by
  have hget : get? (update hash f groups) g.1 = some g.2 := get?_of_mem (nodup_update h f) hg
  by_cases he : g.1 = hash
  · rw [he, get?_update_self] at hget
    exact .inr (Prod.ext he (Option.some.inj hget).symm)
  · rw [get?_update_of_ne he] at hget
    exact .inl (mem_of_get? hget)

end SignatureGroups

namespace SignatureTable

open SignatureGroups (hashes)

def indexOf (hashes : List UInt64) : Std.HashMap UInt64 Nat :=
  hashes.zipIdx.foldl (fun index (hash, place) => index.insert hash place) ∅

theorem indexOf_concat (hashes : List UInt64) (hash : UInt64) :
    indexOf (hashes ++ [hash]) = (indexOf hashes).insert hash hashes.length := by
  rw [indexOf, List.zipIdx_append, List.foldl_append, Nat.zero_add]
  rfl

theorem getElem?_indexOf {hashes : List UInt64} (h : hashes.Nodup) {hash : UInt64} {place : Nat} :
    (indexOf hashes)[hash]? = some place ↔ hashes[place]? = some hash := by
  induction hashes using List.reverseRecOn with
  | nil => simp [indexOf]
  | append_singleton hashes last ih =>
    rw [List.nodup_append] at h
    obtain ⟨h, -, hlast⟩ := h
    rw [indexOf_concat, Std.HashMap.getElem?_insert]
    by_cases he : last = hash
    · subst he
      have hnot : ∀ j : Nat, hashes[j]? ≠ some last := fun j hj =>
        hlast last (List.mem_of_getElem? hj) last (by simp) rfl
      rw [if_pos (beq_self_eq_true last), Option.some.injEq]
      constructor
      · rintro rfl
        exact List.getElem?_concat_length
      · intro hplace
        rcases Nat.lt_trichotomy place hashes.length with hlt | heq | hgt
        · rw [List.getElem?_append_left hlt] at hplace
          exact absurd hplace (hnot place)
        · exact heq.symm
        · rw [List.getElem?_eq_none (by simp; omega)] at hplace
          cases hplace
    · rw [if_neg (by simpa using he), ih h]
      rcases Nat.lt_or_ge place hashes.length with hlt | hge
      · rw [List.getElem?_append_left hlt]
      · rw [List.getElem?_eq_none hge, List.getElem?_append_right hge]
        cases place - hashes.length with
        | zero => simp [he]
        | succ n => simp

theorem getElem?_indexOf_eq_none {hashes : List UInt64} (h : hashes.Nodup) {hash : UInt64} :
    (indexOf hashes)[hash]? = none ↔ hash ∉ hashes := by
  rw [Option.eq_none_iff_forall_not_mem]
  constructor
  · intro hnone hmem
    obtain ⟨place, hplace⟩ := List.getElem?_of_mem hmem
    exact hnone place ((getElem?_indexOf h).2 hplace)
  · intro hmem place hplace
    exact hmem (List.mem_of_getElem? ((getElem?_indexOf h).1 hplace))

/-- Tables whose index leads to the places of the hashes, and that hold everything once. -/
structure Valid (t : SignatureTable) : Prop where
  index : t.index = indexOf (hashes t.toList)
  hashes : (hashes t.toList).Nodup
  signatures : ∀ g ∈ t.toList, g.2.Nodup

theorem Valid.ext {t u : SignatureTable} (ht : t.Valid) (hu : u.Valid) (h : t.toList = u.toList) :
    t = u := by
  have hindex : t.index = u.index := by rw [ht.index, hu.index, h]
  have hgroups : t.groups = u.groups := Array.toList_inj.1 h
  cases t
  cases u
  cases hindex
  cases hgroups
  rfl

theorem Valid.place {t : SignatureTable} (h : t.Valid) {hash : UInt64} {place : Nat} :
    t.index[hash]? = some place ↔ (SignatureGroups.hashes t.toList)[place]? = some hash := by
  rw [h.index]
  exact getElem?_indexOf h.hashes

theorem Valid.place_eq_none {t : SignatureTable} (h : t.Valid) {hash : UInt64} :
    t.index[hash]? = none ↔ hash ∉ SignatureGroups.hashes t.toList := by
  rw [h.index]
  exact getElem?_indexOf_eq_none h.hashes

theorem toList_append (t : SignatureTable) (hash : UInt64) :
    (t.append hash).toList = t.toList ++ [(hash, [])] := by
  simp [toList, append]

theorem toList_modifyAt (t : SignatureTable) (place : Nat) (f : List Signature → List Signature) :
    (t.modifyAt place f).toList = t.toList.modify place fun g => (g.1, f g.2) := by
  simp [toList, modifyAt]

theorem toList_reset {t : SignatureTable} (h : t.Valid) (hash : UInt64) :
    (t.reset hash).toList = SignatureGroups.reset t.toList hash := by
  rw [reset, SignatureGroups.reset]
  cases hplace : t.index[hash]? with
  | none =>
    rw [SignatureGroups.update_of_not_mem (h.place_eq_none.1 hplace)]
    exact toList_append t hash
  | some place =>
    rw [← SignatureGroups.modify_eq_update h.hashes (h.place.1 hplace)]
    exact toList_modifyAt t place _

theorem get?_eq {t : SignatureTable} (h : t.Valid) (hash : UInt64) :
    t.get? hash = SignatureGroups.get? t.toList hash := by
  cases hplace : t.index[hash]? with
  | none =>
    rw [SignatureGroups.get?_of_not_mem (h.place_eq_none.1 hplace)]
    simp [get?, hplace]
  | some place =>
    have hhash := h.place.1 hplace
    rw [SignatureGroups.hashes, List.getElem?_map, Option.map_eq_some_iff] at hhash
    obtain ⟨⟨found, signatures⟩, hgroup, rfl⟩ := hhash
    have hgroups : t.groups[place]? = some (found, signatures) := by
      rw [← Array.getElem?_toList]
      exact hgroup
    rw [SignatureGroups.get?_of_mem h.hashes (List.mem_of_getElem? hgroup)]
    simp [get?, hplace, hgroups]

theorem has_eq {t : SignatureTable} (h : t.Valid) (hash : UInt64) (s : Signature) :
    t.has hash s = ((SignatureGroups.get? t.toList hash).getD []).contains s := by
  rw [has, get?_eq h]
  cases SignatureGroups.get? t.toList hash <;> simp

theorem valid_append {t : SignatureTable} (h : t.Valid) {hash : UInt64}
    (hnew : hash ∉ SignatureGroups.hashes t.toList) : (t.append hash).Valid := by
  have hhashes : SignatureGroups.hashes (t.append hash).toList =
      SignatureGroups.hashes t.toList ++ [hash] := by
    rw [toList_append, SignatureGroups.hashes_append]
    rfl
  refine ⟨?_, ?_, fun g hg => ?_⟩
  · rw [hhashes, indexOf_concat, ← h.index]
    simp [append, SignatureGroups.hashes, toList]
  · rw [hhashes, ← SignatureGroups.hashes_update_of_not_mem hnew id]
    exact SignatureGroups.nodup_update h.hashes id
  · rw [toList_append, List.mem_append] at hg
    rcases hg with hg | hg
    · exact h.signatures g hg
    · rw [List.mem_singleton.1 hg]
      exact List.nodup_nil

theorem valid_modifyAt {t : SignatureTable} (h : t.Valid) {hash : UInt64} {place : Nat}
    (hplace : t.index[hash]? = some place) {f : List Signature → List Signature}
    (hf : (f ((SignatureGroups.get? t.toList hash).getD [])).Nodup) : (t.modifyAt place f).Valid := by
  have hgroups : (t.modifyAt place f).toList = SignatureGroups.update hash f t.toList := by
    rw [toList_modifyAt]
    exact SignatureGroups.modify_eq_update h.hashes (h.place.1 hplace) f
  have hmem : hash ∈ SignatureGroups.hashes t.toList := List.mem_of_getElem? (h.place.1 hplace)
  refine ⟨?_, ?_, fun g hg => ?_⟩
  · rw [hgroups, SignatureGroups.hashes_update_of_mem hmem, ← h.index]
    rfl
  · rw [hgroups]
    exact SignatureGroups.nodup_update h.hashes f
  · rw [hgroups] at hg
    rcases SignatureGroups.mem_update h.hashes hg with hg | rfl
    · exact h.signatures g hg
    · exact hf

theorem valid_empty : (∅ : SignatureTable).Valid :=
  ⟨rfl, List.nodup_nil, fun _ hg => by cases hg⟩

theorem valid_reset {t : SignatureTable} (h : t.Valid) (hash : UInt64) : (t.reset hash).Valid := by
  rw [reset]
  cases hplace : t.index[hash]? with
  | none => exact valid_append h (h.place_eq_none.1 hplace)
  | some place => exact valid_modifyAt h hplace List.nodup_nil

theorem valid_insert_new {t : SignatureTable} (h : t.Valid) {hash : UInt64} {s : Signature}
    (hnew : t.has hash s = false) : ∃ u, t.insert hash s = (u, true) ∧ u.Valid ∧
      u.toList = SignatureGroups.update hash (· ++ [s]) t.toList := by
  have hfresh : s ∉ (SignatureGroups.get? t.toList hash).getD [] := by
    rw [has_eq h] at hnew
    simpa using hnew
  have hnodup : ((SignatureGroups.get? t.toList hash).getD [] ++ [s]).Nodup := by
    rw [List.nodup_append]
    refine ⟨?_, List.nodup_singleton s, fun a ha b hb he => ?_⟩
    · cases hget : SignatureGroups.get? t.toList hash with
      | none => exact List.nodup_nil
      | some signatures => exact h.signatures _ (SignatureGroups.mem_of_get? hget)
    · rw [← List.mem_singleton.1 hb, ← he] at hfresh
      exact hfresh ha
  rw [insert, hnew, if_neg Bool.false_ne_true, Std.HashMap.contains_eq_isSome_getElem?]
  cases hplace : t.index[hash]? with
  | some place =>
    refine ⟨t.modifyAt place (· ++ [s]), by simp [hplace], valid_modifyAt h hplace hnodup, ?_⟩
    rw [← SignatureGroups.modify_eq_update h.hashes (h.place.1 hplace)]
    exact toList_modifyAt t place _
  | none =>
    have hmem := h.place_eq_none.1 hplace
    have hopened := valid_append h hmem
    have hlast : (t.append hash).index[hash]? = some t.groups.size :=
      Std.HashMap.getElem?_insert_self
    have hgroups : (t.append hash).toList = SignatureGroups.update hash id t.toList := by
      rw [toList_append, SignatureGroups.update_of_not_mem hmem]
      rfl
    refine ⟨(t.append hash).modifyAt t.groups.size (· ++ [s]), by simp [hlast],
      valid_modifyAt hopened hlast ?_, ?_⟩
    · rw [hgroups, SignatureGroups.get?_update_self]
      exact hnodup
    · rw [toList_modifyAt,
        SignatureGroups.modify_eq_update hopened.hashes (hopened.place.1 hlast) (· ++ [s]), hgroups,
        SignatureGroups.update_update]
      rfl

theorem valid_insert {t : SignatureTable} (h : t.Valid) (hash : UInt64) (s : Signature) :
    (t.insert hash s).1.Valid := by
  cases hhas : t.has hash s with
  | true => rw [insert, if_pos hhas]; exact h
  | false =>
    obtain ⟨u, hinsert, hu, -⟩ := valid_insert_new h hhas
    rw [hinsert]
    exact hu

/-- The index changes nothing: a table shows what the plain groups show after an insertion. -/
theorem toList_insert {t : SignatureTable} (h : t.Valid) (hash : UInt64) (s : Signature) :
    ((t.insert hash s).1.toList, (t.insert hash s).2) = SignatureGroups.insert t.toList hash s := by
  rw [SignatureGroups.insert, ← has_eq h]
  cases hhas : t.has hash s with
  | true => rw [insert, if_pos hhas, if_pos rfl]
  | false =>
    obtain ⟨u, hinsert, -, hgroups⟩ := valid_insert_new h hhas
    rw [hinsert, if_neg Bool.false_ne_true, hgroups]

end SignatureTable

end NativeCatalogue
