import Mathlib.Data.Finset.Card
import NativeCatalogue.Proofs.Signature.Table
import NativeCatalogue.Run.Signatures

/-!
Adding the signatures of natives to a table. Each native with a given hash has one entry for the table,
and what adding entries does is an induction over one insertion: groups grow at their ends, new hashes
come behind the others, and what is counted is what was not there.
-/

set_option autoImplicit false

namespace NativeCatalogue

namespace SignatureGroups

theorem getElem?_update {hash : UInt64} {groups : SignatureGroups} {place : Nat}
    {g : UInt64 × List Signature} (h : (hashes groups).Nodup) (hg : groups[place]? = some g)
    (f : List Signature → List Signature) :
    (update hash f groups)[place]? = some (g.1, if g.1 = hash then f g.2 else g.2) := by
  induction groups generalizing place with
  | nil => cases hg
  | cons first groups ih =>
    rw [hashes_cons, List.nodup_cons] at h
    by_cases hfirst : first.1 = hash
    · rw [update, if_pos hfirst]
      cases place with
      | zero =>
        cases hg
        rw [List.getElem?_cons_zero, if_pos hfirst]
      | succ place =>
        have hother : g.1 ≠ hash := fun he => h.1 (by
          rw [hfirst, ← he]
          exact List.mem_map_of_mem (List.mem_of_getElem? hg))
        rw [if_neg hother]
        exact hg
    · rw [update, if_neg hfirst]
      cases place with
      | zero =>
        cases hg
        rw [List.getElem?_cons_zero, if_neg hfirst]
      | succ place => exact ih h.2 hg

theorem signatureCount_update (hash : UInt64) (s : Signature) (groups : SignatureGroups) :
    signatureCount (update hash (· ++ [s]) groups) = signatureCount groups + 1 := by
  induction groups with
  | nil => rfl
  | cons g groups ih =>
    by_cases hg : g.1 = hash
    · rw [update, if_pos hg]
      simp only [signatureCount, List.map_cons, List.sum_cons, List.length_append,
        List.length_singleton]
      omega
    · rw [update, if_neg hg]
      simp only [signatureCount, List.map_cons, List.sum_cons] at ih ⊢
      omega

end SignatureGroups

namespace SignatureTable

open SignatureGroups (hashes)

def Grows (t u : SignatureTable) : Prop :=
  ∀ (place : Nat) hash signatures, t.toList[place]? = some (hash, signatures) →
    ∃ more, u.toList[place]? = some (hash, signatures ++ more)

theorem Grows.refl (t : SignatureTable) : Grows t t :=
  fun _ _ signatures h => ⟨[], by rwa [List.append_nil]⟩

theorem Grows.trans {t u v : SignatureTable} (htu : Grows t u) (huv : Grows u v) : Grows t v := by
  intro place hash signatures h
  obtain ⟨more, hmore⟩ := htu place hash signatures h
  obtain ⟨yet, hyet⟩ := huv place hash _ hmore
  exact ⟨more ++ yet, by rw [hyet, List.append_assoc]⟩

theorem insert_of_has {t : SignatureTable} {hash : UInt64} {s : Signature}
    (h : t.has hash s = true) : t.insert hash s = (t, false) := by
  rw [insert, if_pos h]

theorem mem_hashes_of_has {t : SignatureTable} (h : t.Valid) {hash : UInt64} {s : Signature}
    (hhas : t.has hash s = true) : hash ∈ hashes t.toList := by
  by_contra hmem
  rw [has_eq h, SignatureGroups.get?_of_not_mem hmem] at hhas
  cases hhas

theorem grows_insert {t : SignatureTable} (h : t.Valid) (hash : UInt64) (s : Signature) :
    Grows t (t.insert hash s).1 := by
  cases hhas : t.has hash s with
  | true => rw [insert_of_has hhas]; exact Grows.refl t
  | false =>
    obtain ⟨u, hinsert, -, hgroups⟩ := valid_insert_new h hhas
    rw [hinsert]
    intro place other signatures hplace
    refine ⟨if other = hash then [s] else [], ?_⟩
    rw [hgroups, SignatureGroups.getElem?_update h.hashes hplace]
    split
    · rfl
    · rw [List.append_nil]

theorem hashes_insert {t : SignatureTable} (h : t.Valid) (hash : UInt64) (s : Signature) :
    hashes (t.insert hash s).1.toList =
      if hash ∈ hashes t.toList then hashes t.toList else hashes t.toList ++ [hash] := by
  cases hhas : t.has hash s with
  | true => rw [insert_of_has hhas, if_pos (mem_hashes_of_has h hhas)]
  | false =>
    obtain ⟨u, hinsert, -, hgroups⟩ := valid_insert_new h hhas
    rw [hinsert, hgroups]
    split
    · rename_i hmem
      exact SignatureGroups.hashes_update_of_mem hmem _
    · rename_i hmem
      exact SignatureGroups.hashes_update_of_not_mem hmem _

theorem has_insert {t : SignatureTable} (h : t.Valid) (hash other : UInt64) (s r : Signature) :
    (t.insert hash s).1.has other r = true ↔ t.has other r = true ∨ (other, r) = (hash, s) := by
  cases hhas : t.has hash s with
  | true =>
    rw [insert_of_has hhas]
    refine ⟨.inl, fun hor => hor.elim id fun he => ?_⟩
    cases he
    exact hhas
  | false =>
    obtain ⟨u, hinsert, hu, hgroups⟩ := valid_insert_new h hhas
    rw [hinsert, has_eq hu, hgroups, has_eq h]
    by_cases he : other = hash
    · subst he
      rw [SignatureGroups.get?_update_self, Option.getD_some]
      simp
    · rw [SignatureGroups.get?_update_of_ne he]
      simp [he]

theorem signatureCount_insert {t : SignatureTable} (h : t.Valid) (hash : UInt64) (s : Signature) :
    (t.insert hash s).1.signatureCount =
      t.signatureCount + if (t.insert hash s).2 then 1 else 0 := by
  cases hhas : t.has hash s with
  | true => rw [insert_of_has hhas]; rfl
  | false =>
    obtain ⟨u, hinsert, -, hgroups⟩ := valid_insert_new h hhas
    rw [hinsert, if_pos rfl]
    exact (congrArg SignatureGroups.signatureCount hgroups).trans
      (SignatureGroups.signatureCount_update hash s t.toList)

def addEntry (t : SignatureTable × Nat) (e : UInt64 × Signature) : SignatureTable × Nat :=
  ((t.1.insert e.1 e.2).1, if (t.1.insert e.1 e.2).2 then t.2 + 1 else t.2)

def addEntries (t : SignatureTable × Nat) (entries : List (UInt64 × Signature)) :
    SignatureTable × Nat :=
  entries.foldl addEntry t

def newEntries (t : SignatureTable) (entries : List (UInt64 × Signature)) :
    Finset (UInt64 × Signature) :=
  (entries.filter fun e => !t.has e.1 e.2).toFinset

/-- The hashes of entries that are no hashes of a table, each at its first place. -/
def newHashes (t : SignatureTable) (entries : List (UInt64 × Signature)) : List UInt64 :=
  ((entries.map Prod.fst).filter fun hash => !(hashes t.toList).contains hash).eraseDups

theorem grows_addEntries {t : SignatureTable} (h : t.Valid) (n : Nat)
    (entries : List (UInt64 × Signature)) : Grows t (addEntries (t, n) entries).1 := by
  induction entries generalizing t n with
  | nil => exact Grows.refl t
  | cons e entries ih => exact (grows_insert h e.1 e.2).trans (ih (valid_insert h e.1 e.2) _)

theorem has_addEntries {t : SignatureTable} (h : t.Valid) (n : Nat)
    (entries : List (UInt64 × Signature)) (e : UInt64 × Signature) :
    (addEntries (t, n) entries).1.has e.1 e.2 = true ↔ t.has e.1 e.2 = true ∨ e ∈ entries := by
  induction entries generalizing t n with
  | nil => simp [addEntries]
  | cons first entries ih =>
    refine (ih (valid_insert h first.1 first.2) _).trans ?_
    rw [has_insert h, List.mem_cons, or_assoc]

theorem hashes_addEntries {t : SignatureTable} (h : t.Valid) (n : Nat)
    (entries : List (UInt64 × Signature)) :
    hashes (addEntries (t, n) entries).1.toList = hashes t.toList ++ newHashes t entries := by
  induction entries generalizing t n with
  | nil => simp [addEntries, newHashes]
  | cons e entries ih =>
    refine (ih (valid_insert h e.1 e.2) _).trans ?_
    rw [newHashes, newHashes, hashes_insert h, List.map_cons]
    by_cases hmem : e.1 ∈ hashes t.toList
    · rw [if_pos hmem, List.filter_cons_of_neg (by simpa using hmem)]
    · rw [if_neg hmem, List.filter_cons_of_pos (by simpa using hmem), List.eraseDups_cons,
        List.filter_filter, List.append_assoc, List.singleton_append]
      refine congrArg (fun l => hashes t.toList ++ e.1 :: l.eraseDups) (List.filter_congr ?_)
      intro hash _
      rw [List.contains_eq_mem, List.contains_eq_mem, Bool.and_comm]
      simp [Bool.beq_eq_decide_eq]

theorem signatureCount_addEntries {t : SignatureTable} (h : t.Valid) (n : Nat)
    (entries : List (UInt64 × Signature)) :
    (addEntries (t, n) entries).1.signatureCount + n =
      t.signatureCount + (addEntries (t, n) entries).2 := by
  induction entries generalizing t n with
  | nil => rfl
  | cons e entries ih =>
    have hstep := signatureCount_insert h e.1 e.2
    have hrest := ih (valid_insert h e.1 e.2) (if (t.insert e.1 e.2).2 then n + 1 else n)
    change (addEntries _ entries).1.signatureCount + n = _ + (addEntries _ entries).2
    cases hadded : (t.insert e.1 e.2).2 with
    | true =>
      simp only [hadded, if_true] at hstep hrest
      simp only [addEntry, hadded, if_true]
      omega
    | false =>
      simp only [hadded, Bool.false_eq_true, if_false] at hstep hrest
      simp only [addEntry, hadded, Bool.false_eq_true, if_false]
      omega

theorem mem_newEntries {t : SignatureTable} {entries : List (UInt64 × Signature)}
    {e : UInt64 × Signature} : e ∈ newEntries t entries ↔ e ∈ entries ∧ t.has e.1 e.2 = false := by
  simp [newEntries]

theorem addEntries_count {t : SignatureTable} (h : t.Valid) (n : Nat)
    (entries : List (UInt64 × Signature)) :
    (addEntries (t, n) entries).2 = n + (newEntries t entries).card := by
  induction entries generalizing t n with
  | nil => rfl
  | cons e entries ih =>
    have hrest := ih (valid_insert h e.1 e.2) (if (t.insert e.1 e.2).2 then n + 1 else n)
    refine hrest.trans ?_
    cases hhas : t.has e.1 e.2 with
    | true =>
      have hsame : newEntries t (e :: entries) = newEntries t entries := by
        rw [newEntries, List.filter_cons_of_neg (by simp [hhas])]
        rfl
      rw [insert_of_has hhas, hsame]
      rfl
    | false =>
      obtain ⟨u, hinsert, hu, -⟩ := valid_insert_new h hhas
      have hinsertHas : ∀ d : UInt64 × Signature,
          u.has d.1 d.2 = true ↔ t.has d.1 d.2 = true ∨ d = e := by
        intro d
        have := has_insert h e.1 d.1 e.2 d.2
        rwa [hinsert] at this
      -- The entry itself is new before the insertion and not behind it.
      have hnot : e ∉ newEntries u entries := by
        rw [mem_newEntries, (hinsertHas e).2 (.inr rfl)]
        simp
      have hset : newEntries t (e :: entries) = Insert.insert e (newEntries u entries) := by
        ext d
        rw [mem_newEntries, Finset.mem_insert, mem_newEntries, List.mem_cons,
          ← Bool.not_eq_true, ← Bool.not_eq_true, hinsertHas d]
        by_cases hd : d = e
        · subst hd
          simp [hhas]
        · simp [hd]
      rw [hinsert, hset, Finset.card_insert_of_notMem hnot, if_pos rfl, Nat.add_assoc,
        Nat.add_comm 1]

theorem addEntries_of_has {t : SignatureTable} {entries : List (UInt64 × Signature)}
    (h : ∀ e ∈ entries, t.has e.1 e.2 = true) (n : Nat) : addEntries (t, n) entries = (t, n) := by
  induction entries with
  | nil => rfl
  | cons e entries ih =>
    have hfirst : addEntry (t, n) e = (t, n) := by
      rw [addEntry, insert_of_has (h e (by simp))]
      rfl
    change addEntries (addEntry (t, n) e) entries = (t, n)
    rw [hfirst]
    exact ih fun d hd => h d (List.mem_cons_of_mem e hd)

end SignatureTable

namespace CompiledNative

def entry? (c : CompiledNative) : Option (UInt64 × Signature) :=
  if c.record.manualHash then
    (Hash.parse c.record.hash).toOption.map (·, Signature.ofPrototype c.prototype)
  else none

def HasHash (c : CompiledNative) : Prop :=
  c.record.manualHash = true → ∃ hash, Hash.parse c.record.hash = .ok hash

end CompiledNative

namespace SignatureTable

theorem collect_eq {t : SignatureTable} {natives : List CompiledNative}
    (h : ∀ c ∈ natives, c.HasHash) :
    t.collect natives = .ok (addEntries (t, 0) (natives.filterMap CompiledNative.entry?)) := by
  rw [collect]
  generalize 0 = n
  induction natives generalizing t n with
  | nil => rfl
  | cons c natives ih =>
    have hrest := fun u => ih (t := u) fun d hd => h d (List.mem_cons_of_mem c hd)
    rw [List.foldlM_cons]
    cases hmanual : c.record.manualHash with
    | false =>
      rw [List.filterMap_cons_none (by simp [CompiledNative.entry?, hmanual])]
      simp only [collectNative, hmanual, Bool.false_eq_true, if_false, bind, Except.bind]
      exact hrest t n
    | true =>
      obtain ⟨hash, hhash⟩ := h c (by simp) hmanual
      have hentry : c.entry? = some (hash, Signature.ofPrototype c.prototype) := by
        simp [CompiledNative.entry?, hmanual, hhash, Except.toOption]
      rw [List.filterMap_cons_some hentry]
      simp only [collectNative, hmanual, if_true, hhash, bind, Except.bind]
      exact hrest _ _

end SignatureTable

end NativeCatalogue
