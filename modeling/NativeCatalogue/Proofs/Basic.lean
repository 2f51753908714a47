import Mathlib.Data.List.Forall2
import Mathlib.Data.List.Nodup

set_option autoImplicit false

namespace NativeCatalogue

namespace List

variable {α β : Type}

theorem takeWhile_append_of_head {p : α → Bool} {as bs : List α}
    (has : as.all p = true) (hbs : ∀ b ∈ bs.head?, p b = false) :
    (as ++ bs).takeWhile p = as ∧ (as ++ bs).dropWhile p = bs := by
  have has := List.all_eq_true.1 has
  rw [List.takeWhile_append_of_pos has, List.dropWhile_append_of_pos has]
  cases bs with
  | nil => simp
  | cons b bs =>
    have hb := hbs b rfl
    rw [List.takeWhile_cons_of_neg (by simp [hb]), List.dropWhile_cons_of_neg (by simp [hb])]
    simp

theorem takeWhile_append_of_stop {p : α → Bool} (as : List α) {b : α} (bs : List α)
    (hb : p b = false) : (as ++ b :: bs).takeWhile p = as.takeWhile p := by
  induction as with
  | nil => simp [hb]
  | cons a as ih =>
    rw [List.cons_append, List.takeWhile_cons, List.takeWhile_cons, ih]

theorem dropWhile_append_of_stop {p : α → Bool} (as : List α) {b : α} (bs : List α)
    (hb : p b = false) : (as ++ b :: bs).dropWhile p = as.dropWhile p ++ b :: bs := by
  induction as with
  | nil => simp [hb]
  | cons a as ih =>
    rw [List.cons_append, List.dropWhile_cons, List.dropWhile_cons]
    split
    · exact ih
    · rfl

theorem head?_dropWhile_eq_false {p : α → Bool} {as : List α} :
    ∀ a ∈ (as.dropWhile p).head?, p a = false := by
  intro a ha
  have h := List.head?_dropWhile_not p as
  rw [Option.mem_def.1 ha] at h
  simpa using h

theorem all_of_length_takeWhile {p : α → Bool} {as bs : List α}
    (h : ((as ++ bs).takeWhile p).length = as.length) :
    as.all p = true ∧ ∀ b ∈ bs.head?, p b = false := by
  induction as with
  | nil =>
    refine ⟨rfl, fun b hb => ?_⟩
    obtain ⟨more, rfl⟩ := List.head?_eq_some_iff.1 hb
    rw [← Bool.not_eq_true]
    intro hp
    rw [List.nil_append, List.takeWhile_cons_of_pos hp] at h
    cases h
  | cons a as ih =>
    cases hp : p a with
    | false =>
      rw [List.cons_append, List.takeWhile_cons_of_neg (by simp [hp])] at h
      cases h
    | true =>
      rw [List.cons_append, List.takeWhile_cons_of_pos hp, List.length_cons, List.length_cons] at h
      obtain ⟨hall, hhead⟩ := ih (Nat.succ.inj h)
      exact ⟨by rw [List.all_cons, hp, hall]; rfl, hhead⟩

theorem append_inj_of_split {p : α → Bool} {as bs cs ds : List α} (h : as ++ bs = cs ++ ds)
    (has : as.all p = true) (hbs : ∀ b ∈ bs.head?, p b = false) (hcs : cs.all p = true)
    (hds : ∀ d ∈ ds.head?, p d = false) : as = cs ∧ bs = ds := by
  obtain ⟨hfront, hback⟩ := takeWhile_append_of_head has hbs
  obtain ⟨hfront', hback'⟩ := takeWhile_append_of_head hcs hds
  rw [h] at hfront hback
  exact ⟨hfront.symm.trans hfront', hback.symm.trans hback'⟩

theorem head?_append_eq {as bs cs : List α} (h : bs.head? = cs.head?) :
    (as ++ bs).head? = (as ++ cs).head? := by
  rw [List.head?_append, List.head?_append, h]

theorem head?_append_same {as : List α} (h : as ≠ []) (bs cs : List α) :
    (as ++ bs).head? = (as ++ cs).head? := by
  rw [List.head?_append_of_ne_nil as h, List.head?_append_of_ne_nil as h]

theorem exists_split_of_once {as bs : List α} (hlength : as.length = bs.length)
    (honce : ∃! i : Nat, as[i]? ≠ bs[i]?) :
    ∃ front a b back, a ≠ b ∧ as = front ++ a :: back ∧ bs = front ++ b :: back := by
  obtain ⟨i, hne, hunique⟩ := honce
  have hi : i < as.length := by
    by_contra hge
    exact hne (by rw [List.getElem?_eq_none (by omega), List.getElem?_eq_none (by omega)])
  have hsame : ∀ j, j ≠ i → as[j]? = bs[j]? := fun j hj => by
    by_contra hdiffer
    exact hj (hunique j hdiffer)
  have hfront : as.take i = bs.take i := List.ext_getElem? fun j => by
    rw [List.getElem?_take, List.getElem?_take]
    split
    · exact hsame j (by omega)
    · rfl
  have hback : as.drop (i + 1) = bs.drop (i + 1) := List.ext_getElem? fun j => by
    rw [List.getElem?_drop, List.getElem?_drop]
    exact hsame _ (by omega)
  have hsplit : as = as.take i ++ as[i] :: as.drop (i + 1) := by
    rw [List.getElem_cons_drop, List.take_append_drop]
  have hother : bs = as.take i ++ bs[i] :: as.drop (i + 1) := by
    rw [hfront, hback, List.getElem_cons_drop, List.take_append_drop]
  refine ⟨_, _, _, _, fun he => hne ?_, hsplit, hother⟩
  rw [List.getElem?_eq_getElem hi, List.getElem?_eq_getElem (hlength ▸ hi), he]

theorem map_eq_self_iff {f : α → α} {as : List α} :
    as.map f = as ↔ ∀ a ∈ as, f a = a := by
  constructor
  · exact fun h => List.map_inj_left.1 (h.trans (List.map_id as).symm)
  · exact fun h => (List.map_congr_left h).trans (List.map_id as)

theorem flatMap_if (p : α → Prop) [DecidablePred p] (f : α → List β) (xs : List α) :
    (xs.flatMap fun x => if p x then f x else []) = (xs.filter p).flatMap f := by
  induction xs with
  | nil => rfl
  | cons x xs ih =>
    rw [List.flatMap_cons, ih]
    by_cases hx : p x
    · rw [if_pos hx, List.filter_cons_of_pos (by simpa using hx), List.flatMap_cons]
    · rw [if_neg hx, List.filter_cons_of_neg (by simpa using hx), List.nil_append]

theorem mapM_eq_some_iff_forall₂ {f : α → Option β} {xs : List α} {ys : List β} :
    xs.mapM f = some ys ↔ List.Forall₂ (fun x y => f x = some y) xs ys := by
  induction xs generalizing ys with
  | nil =>
    rw [List.mapM_nil, List.forall₂_nil_left_iff]
    exact ⟨fun h => (Option.some.inj h).symm, fun h => congrArg some h.symm⟩
  | cons x xs ih =>
    rw [List.mapM_cons]
    constructor
    · intro h
      obtain ⟨y, hy, hrest⟩ := Option.bind_eq_some_iff.1 h
      obtain ⟨more, hmore, hys⟩ := Option.bind_eq_some_iff.1 hrest
      cases hys
      exact .cons hy (ih.1 hmore)
    · intro h
      obtain ⟨y, more, hy, hmore, rfl⟩ := List.forall₂_cons_left_iff.1 h
      rw [hy, ih.2 hmore]
      rfl

theorem mapM_eq_none_iff {f : α → Option β} {xs : List α} :
    xs.mapM f = none ↔ ∃ x ∈ xs, f x = none := by
  induction xs with
  | nil => simp
  | cons x xs ih =>
    rw [List.mapM_cons, List.exists_mem_cons_iff, ← ih]
    cases f x with
    | none => exact ⟨fun _ => .inl rfl, fun _ => rfl⟩
    | some y =>
      cases xs.mapM f with
      | none => exact ⟨fun _ => .inr rfl, fun _ => rfl⟩
      | some ys => exact ⟨nofun, fun h => h.elim nofun nofun⟩

theorem lookup_eq_none_of_not_mem {key : String} {members : List (String × α)}
    (h : key ∉ members.map Prod.fst) : members.lookup key = none := by
  refine List.lookup_eq_none_iff.2 fun e he => ?_
  have hne : key ≠ e.1 := by
    intro hkey
    rw [hkey] at h
    exact h (List.mem_map_of_mem he)
  exact bne_iff_ne.2 hne

theorem eraseDups_of_nodup [BEq α] [LawfulBEq α] {xs : List α} (h : xs.Nodup) :
    xs.eraseDups = xs := by
  induction xs with
  | nil => exact List.eraseDups_nil
  | cons x xs ih =>
    obtain ⟨hx, hxs⟩ := List.nodup_cons.1 h
    have hkept : xs.filter (fun b => !b == x) = xs :=
      List.filter_eq_self.2 fun b hb => by
        have hne : b ≠ x := fun he => hx (he ▸ hb)
        rw [beq_false_of_ne hne]
        rfl
    rw [List.eraseDups_cons, hkept, ih hxs]

theorem removeAll_concat [BEq α] [LawfulBEq α] (xs ys : List α) (a : α) :
    xs.removeAll (ys ++ [a]) = (xs.removeAll ys).filter fun b => !b == a := by
  rw [List.removeAll, List.removeAll, List.filter_filter]
  refine List.filter_congr fun b _ => Bool.eq_iff_iff.2 ?_
  simp [not_or, and_comm]

/-- A value behind others is one of the different values, unless it is there. -/
theorem eraseDups_concat [BEq α] [LawfulBEq α] (as : List α) (a : α) :
    (as ++ [a]).eraseDups =
      if as.eraseDups.contains a then as.eraseDups else as.eraseDups ++ [a] := by
  have hcontains : as.eraseDups.contains a = as.contains a := by
    rw [Bool.eq_iff_iff, List.contains_iff_mem, List.contains_iff_mem, List.mem_eraseDups]
  rw [List.eraseDups_append, List.removeAll, List.filter_singleton, hcontains]
  simp only [List.elem_eq_contains]
  cases as.contains a with
  | true => rw [Bool.not_true, cond_false, List.eraseDups_nil, List.append_nil, if_pos rfl]
  | false =>
    rw [Bool.not_false, cond_true, if_neg Bool.false_ne_true, List.eraseDups_cons]
    rfl

section Sorting

variable {le : α → α → Bool}
  (trans : ∀ a b c : α, le a b = true → le b c = true → le a c = true)
  (total : ∀ a b : α, (le a b || le b a) = true)

include trans total

theorem mergeSort_cons_split (a : α) (xs : List α) :
    ∃ before after, (a :: xs).mergeSort le = before ++ a :: after ∧
      xs.mergeSort le = before ++ after ∧
      (∀ b ∈ before, (!le a b) = true) ∧ ∀ b ∈ after, (!le a b) = false := by
  obtain ⟨before, after, hsorted, hrest, hbefore⟩ := List.mergeSort_cons trans total a xs
  have hpairwise := List.pairwise_mergeSort trans total (a :: xs)
  rw [hsorted, List.pairwise_append, List.pairwise_cons] at hpairwise
  refine ⟨before, after, hsorted, hrest, hbefore, fun b hb => ?_⟩
  rw [hpairwise.2.1.1 b hb]
  rfl

/-- Sorting keeps the order of entries that are neither above nor below each other, so that it does not
    matter for them which others are there. -/
theorem mergeSort_filter (p : α → Bool) (xs : List α) :
    (xs.filter p).mergeSort le = (xs.mergeSort le).filter p := by
  induction xs with
  | nil => rw [List.filter_nil, List.mergeSort_nil, List.filter_nil]
  | cons a xs ih =>
    obtain ⟨before, after, hsorted, hrest, hbefore, hafter⟩ := mergeSort_cons_split trans total a xs
    rw [hrest, List.filter_append] at ih
    rw [hsorted, List.filter_append]
    by_cases ha : p a = true
    · obtain ⟨before', after', hsorted', hrest', hbefore', hafter'⟩ :=
        mergeSort_cons_split trans total a (xs.filter p)
      obtain ⟨hb, hc⟩ := append_inj_of_split (hrest'.symm.trans ih) (List.all_eq_true.2 hbefore')
        (fun b hb => hafter' b (List.mem_of_mem_head? hb))
        (List.all_eq_true.2 fun b hb => hbefore b (List.mem_filter.1 hb).1)
        (fun b hb => hafter b (List.mem_filter.1 (List.mem_of_mem_head? hb)).1)
      rw [List.filter_cons_of_pos ha, List.filter_cons_of_pos ha, hsorted', hb, hc]
    · rw [List.filter_cons_of_neg ha, List.filter_cons_of_neg ha, ih]

end Sorting

end List

namespace Except

variable {ε δ α β : Type}

theorem map_toOption_eq_some {x : Except ε α} {f : α → β} {b : β} :
    x.toOption.map f = some b ↔ ∃ a, x = .ok a ∧ f a = b := by
  cases x <;> simp [Except.toOption]

theorem mapError_eq_ok {f : ε → δ} {x : Except ε α} {a : α} :
    x.mapError f = .ok a ↔ x = .ok a := by
  cases x with
  | ok b => exact ⟨fun h => by cases h; rfl, fun h => by cases h; rfl⟩
  | error e => exact ⟨nofun, nofun⟩

end Except

end NativeCatalogue
