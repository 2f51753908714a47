import Mathlib.Data.List.Nodup
import NativeCatalogue.Json.Fields
import NativeCatalogue.Proofs.Basic

set_option autoImplicit false

namespace NativeCatalogue

def present {α : Type} (table : List (String × Option α)) : List (String × α) :=
  table.filterMap fun e => e.2.map (e.1, ·)

section Tables

variable {α : Type}

theorem present_cons_some (key : String) (value : α) (table : List (String × Option α)) :
    present ((key, some value) :: table) = (key, value) :: present table := rfl

theorem present_append (table more : List (String × Option α)) :
    present (table ++ more) = present table ++ present more :=
  List.filterMap_append

theorem keys_present_sublist (table : List (String × Option α)) :
    ((present table).map Prod.fst).Sublist (table.map Prod.fst) := by
  induction table with
  | nil => exact .slnil
  | cons e table ih =>
    obtain ⟨key, value⟩ := e
    cases value with
    | none => exact ih.cons key
    | some value => exact ih.cons_cons key

theorem lookup_present {table : List (String × Option α)} {key : String} {value : Option α}
    (h : (table.map Prod.fst).Nodup) (hmem : (key, value) ∈ table) :
    (present table).lookup key = value := by
  induction table with
  | nil => cases hmem
  | cons e table ih =>
    obtain ⟨first, firstValue⟩ := e
    rw [List.map_cons, List.nodup_cons] at h
    rcases List.mem_cons.1 hmem with he | hrest
    · cases he
      cases value with
      | none =>
        exact List.lookup_eq_none_of_not_mem fun hkey => h.1 ((keys_present_sublist table).subset hkey)
      | some value => rw [present_cons_some, List.lookup_cons_self]
    · have hne : key ≠ first := by
        intro hkey
        rw [← hkey] at h
        exact h.1 (List.mem_map.2 ⟨(key, value), hrest, rfl⟩)
      cases firstValue with
      | none => exact ih h.2 hrest
      | some firstValue =>
        rw [present_cons_some, List.lookup_cons, beq_false_of_ne hne]
        exact ih h.2 hrest

variable (table : List (String × Option α)) {others : List (String × α)}

theorem nodup_present_append (h : (table.map Prod.fst).Nodup) (hothers : (others.map Prod.fst).Nodup)
    (hapart : ∀ e ∈ others, e.1 ∉ table.map Prod.fst) :
    ((present table ++ others).map Prod.fst).Nodup := by
  have hkeys := keys_present_sublist table
  rw [List.map_append]
  refine List.Nodup.append (h.sublist hkeys) hothers fun key hkey hother => ?_
  obtain ⟨e, he, rfl⟩ := List.mem_map.1 hother
  exact hapart e he (hkeys.subset hkey)

theorem lookup_present_append (h : (table.map Prod.fst).Nodup)
    (hapart : ∀ e ∈ others, e.1 ∉ table.map Prod.fst) {key : String} {value : Option α}
    (hmem : (key, value) ∈ table) : (present table ++ others).lookup key = value := by
  have hkey : key ∈ table.map Prod.fst := List.mem_map.2 ⟨(key, value), hmem, rfl⟩
  have hother : others.lookup key = none := by
    refine List.lookup_eq_none_of_not_mem fun hin => ?_
    obtain ⟨e, he, rfl⟩ := List.mem_map.1 hin
    exact hapart e he hkey
  rw [List.lookup_append, lookup_present h hmem, hother, Option.or_none]

theorem lookup_present_append_other {key : String} (hkey : key ∉ table.map Prod.fst) :
    (present table ++ others).lookup key = others.lookup key := by
  have hpresent : (present table).lookup key = none :=
    List.lookup_eq_none_of_not_mem fun hin => hkey ((keys_present_sublist table).subset hin)
  rw [List.lookup_append, hpresent, Option.none_or]

theorem filter_present_append (hapart : ∀ e ∈ others, e.1 ∉ table.map Prod.fst) :
    (present table ++ others).filter (!(table.map Prod.fst).contains ·.1) = others := by
  have hpresent : (present table).filter (!(table.map Prod.fst).contains ·.1) = [] := by
    refine List.filter_eq_nil_iff.2 fun e he => ?_
    have hkey := (keys_present_sublist table).subset (List.mem_map_of_mem he)
    rw [List.contains_iff_mem.2 hkey]
    decide
  have hothers : others.filter (!(table.map Prod.fst).contains ·.1) = others := by
    refine List.filter_eq_self.2 fun e he => ?_
    rw [Bool.not_eq_true', ← Bool.not_eq_true]
    exact fun hcontains => hapart e he (List.contains_iff_mem.1 hcontains)
  rw [List.filter_append, hpresent, hothers, List.nil_append]

end Tables

namespace JsonText

def texts (members : List (String × Json)) : List (String × JsonText) :=
  members.map fun e => (e.1, ofJson e.2)

theorem keys_texts (members : List (String × Json)) :
    (texts members).map Prod.fst = members.map Prod.fst := by
  rw [texts, List.map_map]
  rfl

theorem filter_texts (members : List (String × Json)) (known : List String) :
    (texts members).filter (!known.contains ·.1) = texts (members.filter (!known.contains ·.1)) :=
  List.filter_map

theorem lookup_texts (members : List (String × Json)) (key : String) :
    (texts members).lookup key = (members.lookup key).map ofJson := by
  induction members with
  | nil => rfl
  | cons e members ih =>
    rw [texts, List.map_cons, List.lookup_cons, List.lookup_cons]
    cases key == e.1 with
    | true => rfl
    | false => exact ih

theorem members?_ofJson (members : List (String × Json)) :
    (ofJson (.object members)).members? = some (texts members) := by
  rw [ofJson, members?]
  induction members with
  | nil => rfl
  | cons e members ih =>
    rw [ofMembers, List.mapM_cons, ih]
    rfl

theorem knownOnce_of_nodup {α : Type} {members : List (String × α)}
    (h : (members.map Prod.fst).Nodup) (known : List String) : knownOnce known members = true :=
  List.all_eq_true.2 fun key _ => decide_eq_true (List.nodup_iff_count_le_one.1 h key)

theorem fields?_ofJson {members : List (String × Json)} (h : (members.map Prod.fst).Nodup)
    (known : List String) : fields? known (ofJson (.object members)) = some (texts members) := by
  have honce : knownOnce known (texts members) = true := by
    refine knownOnce_of_nodup ?_ known
    rwa [keys_texts]
  simp only [fields?, members?_ofJson, bind, Option.bind, honce, if_true]

theorem fieldOr_texts {α : Type} {members : List (String × Json)} {key : String} (default : α)
    (read : JsonText → Option α) : fieldOr (texts members) key default read =
      match members.lookup key with
      | none => some default
      | some value => read (ofJson value) := by
  rw [fieldOr, lookup_texts]
  cases members.lookup key <;> rfl

theorem fieldOr_optionalText {members : List (String × Json)} {key : String} {value : Option String}
    (h : members.lookup key = value.map Json.string) :
    fieldOr (texts members) key none optionalText? = some value := by
  rw [fieldOr_texts, h]
  cases value <;> rfl

theorem field?_texts {α : Type} {members : List (String × Json)} {key : String} {value : Json}
    (h : members.lookup key = some value) (read : JsonText → Option α) :
    field? (texts members) key read = read (ofJson value) := by
  rw [field?, lookup_texts, h]
  rfl

theorem mapM_ofItems {α : Type} {xs : List α} {write : α → Json} {read : JsonText → Option α}
    (h : ∀ x ∈ xs, read (ofJson (write x)) = some x) : (ofItems (xs.map write)).mapM read = some xs := by
  induction xs with
  | nil => rfl
  | cons x xs ih =>
    rw [List.map_cons, ofItems, List.mapM_cons, h x List.mem_cons_self,
      ih fun y hy => h y (List.mem_cons_of_mem x hy)]
    rfl

theorem mapM_texts_map {α : Type} {entries : List (String × α)} (write : α → Json)
    (read : JsonText → Option α) (h : ∀ e ∈ entries, read (ofJson (write e.2)) = some e.2) :
    (texts (entries.map fun e => (e.1, write e.2))).mapM (fun e => return (e.1, ← read e.2)) =
      some entries := by
  induction entries with
  | nil => rfl
  | cons e entries ih =>
    have hrest := ih fun d hd => h d (List.mem_cons_of_mem e hd)
    rw [texts] at hrest ⊢
    rw [List.map_cons, List.map_cons, List.mapM_cons, h e List.mem_cons_self, hrest]
    rfl

theorem mapM_texts {members : List (String × Json)} (read : JsonText → Option Json)
    (h : ∀ e ∈ members, read (ofJson e.2) = some e.2) :
    (texts members).mapM (fun e => return (e.1, ← read e.2)) = some members := by
  have hmembers := mapM_texts_map id read h
  rwa [show (members.map fun e => (e.1, id e.2)) = members from List.map_id members] at hmembers

end JsonText

end NativeCatalogue
