import Mathlib.Data.Set.Card
import NativeCatalogue.Annotation.Table
import NativeCatalogue.Proofs.SortedMap

/-!
Annotation tables as functions from symbols to sets. No change of a table leaves an empty set behind, so
that a symbol without annotations cannot be told from one that lost them: what a table gives for each
symbol determines the table, how many symbols it counts and which it lists.
-/

set_option autoImplicit false

namespace NativeCatalogue

/-- Functions in the order of their names, each before its parameters. -/
inductive Symbol.Precedes : Symbol → Symbol → Prop where
  | function {f g : String} (p q : Option String) : f < g → Precedes ⟨f, p⟩ ⟨g, q⟩
  | ownParameter (f q : String) : Precedes ⟨f, none⟩ ⟨f, some q⟩
  | parameter (f : String) {p q : String} : p < q → Precedes ⟨f, some p⟩ ⟨f, some q⟩

theorem Symbol.precedes_of_compare {a b : Symbol} (h : compare a b = .lt) : a.Precedes b := by
  obtain ⟨f, p⟩ := a
  obtain ⟨g, q⟩ := b
  have horder : (compare f g).then (compare p q) = .lt := h
  rcases Ordering.then_eq_lt.1 horder with hfunction | ⟨hsame, hparameter⟩
  · exact .function p q (compareOfLessAndEq_eq_lt.1 hfunction)
  · cases Std.LawfulEqCmp.eq_of_compare hsame
    cases p with
    | none =>
      cases q with
      | none => cases hparameter
      | some q => exact .ownParameter f q
    | some p =>
      cases q with
      | none => cases hparameter
      | some q => exact .parameter f (compareOfLessAndEq_eq_lt.1 hparameter)

namespace AnnotationSet

theorem isEmpty_insert (s : AnnotationSet) (a : Annotation) : (s.insert a).isEmpty = false := by
  unfold insert
  split
  · rename_i h
    obtain ⟨items⟩ := s
    cases items with
    | nil => cases h
    | cons => rfl
  · simp [isEmpty]

theorem isEmpty_of_has {s : AnnotationSet} {kind : AnnotationKind} (h : s.has kind = true) :
    s.isEmpty = false := by
  obtain ⟨items⟩ := s
  cases items with
  | nil => cases h
  | cons => rfl

theorem eq_empty_of_isEmpty {s : AnnotationSet} (h : s.isEmpty = true) : s = ∅ := by
  obtain ⟨items⟩ := s
  have hitems : items = [] := List.isEmpty_iff.1 h
  rw [hitems]
  rfl

end AnnotationSet

def Prototype.attachments (p : Prototype) : List (Symbol × Annotation) :=
  p.annotations.items.map (⟨p.name, none⟩, ·) ++
    p.parameters.flatMap fun q => q.annotations.items.map (⟨p.name, some q.name⟩, ·)

def Prototype.annotationsOf (p : Prototype) (symbol : Symbol) : List Annotation :=
  (p.attachments.filter (·.1 = symbol)).map Prod.snd

namespace AnnotationTable

inductive Change where
  | annotate (symbol : Symbol) (a : Annotation)
  | set (symbol : Symbol) (s : AnnotationSet)
  | merge (p : Prototype)

def Change.apply (t : AnnotationTable) : Change → AnnotationTable
  | .annotate symbol a => t.annotate symbol a
  | .set symbol s => t.set symbol s
  | .merge p => t.merge p

def ofChanges (changes : List Change) : AnnotationTable :=
  changes.foldl Change.apply ∅

def Change.applyTo (sets : Symbol → AnnotationSet) : Change → Symbol → AnnotationSet
  | .annotate symbol a => Function.update sets symbol ((sets symbol).insert a)
  | .set symbol s => Function.update sets symbol s
  | .merge p => fun symbol => (sets symbol).insertAll (p.annotationsOf symbol)

def setsAfter (changes : List Change) : Symbol → AnnotationSet :=
  changes.foldl Change.applyTo fun _ => ∅

def attachAll (t : AnnotationTable) (xs : List (Symbol × Annotation)) : AnnotationTable :=
  xs.foldl (fun t x => t.annotate x.1 x.2) t

theorem annotateAll_eq (t : AnnotationTable) (symbol : Symbol) (xs : List Annotation) :
    t.annotateAll symbol xs = t.attachAll (xs.map (symbol, ·)) := by
  rw [attachAll, List.foldl_map]
  rfl

theorem merge_eq (t : AnnotationTable) (p : Prototype) : t.merge p = t.attachAll p.attachments := by
  have hparameters : ∀ (parameters : List Parameter) (t : AnnotationTable),
      parameters.foldl (mergeParameter p.name) t = t.attachAll (parameters.flatMap fun q =>
        q.annotations.items.map (⟨p.name, some q.name⟩, ·)) := by
    intro parameters
    induction parameters with
    | nil => exact fun _ => rfl
    | cons q parameters ih =>
      intro t
      rw [List.foldl_cons, ih, mergeParameter, annotateAll_eq, List.flatMap_cons, attachAll,
        attachAll, attachAll, List.foldl_append]
  rw [merge, hparameters, annotateAll_eq, Prototype.attachments, attachAll, attachAll, attachAll,
    List.foldl_append]

theorem get_annotate (t : AnnotationTable) (symbol : Symbol) (a : Annotation) :
    (t.annotate symbol a).get = Function.update t.get symbol ((t.get symbol).insert a) := by
  funext other
  by_cases h : other = symbol
  · rw [h, Function.update_self, get, annotate, SortedMap.get?_insert_self, Option.getD_some]
  · rw [Function.update_of_ne h, get, annotate, SortedMap.get?_insert_of_ne _ _ _ h, get]

theorem get_set (t : AnnotationTable) (symbol : Symbol) (s : AnnotationSet) :
    (t.set symbol s).get = Function.update t.get symbol s := by
  funext other
  unfold set
  split
  · rename_i hempty
    by_cases h : other = symbol
    · rw [h, Function.update_self, get, SortedMap.get?_erase_self,
        AnnotationSet.eq_empty_of_isEmpty hempty, Option.getD_none]
    · rw [Function.update_of_ne h, get, SortedMap.get?_erase_of_ne _ h, get]
  · by_cases h : other = symbol
    · rw [h, Function.update_self, get, SortedMap.get?_insert_self, Option.getD_some]
    · rw [Function.update_of_ne h, get, SortedMap.get?_insert_of_ne _ _ _ h, get]

theorem get_attachAll (t : AnnotationTable) (xs : List (Symbol × Annotation)) (symbol : Symbol) :
    (t.attachAll xs).get symbol =
      (t.get symbol).insertAll ((xs.filter (·.1 = symbol)).map Prod.snd) := by
  induction xs generalizing t with
  | nil => rfl
  | cons x xs ih =>
    change ((t.annotate x.1 x.2).attachAll xs).get symbol = _
    rw [ih, get_annotate]
    by_cases h : x.1 = symbol
    · simp [h, AnnotationSet.insertAll]
    · simp [h, Function.update_of_ne (Ne.symm h)]

theorem get_apply (t : AnnotationTable) (change : Change) :
    (change.apply t).get = change.applyTo t.get := by
  cases change with
  | annotate symbol a => exact get_annotate t symbol a
  | set symbol s => exact get_set t symbol s
  | merge p =>
    funext symbol
    exact (congrArg (get · symbol) (merge_eq t p)).trans (get_attachAll t p.attachments symbol)

theorem ext_entries {t u : AnnotationTable}
    (h : ∀ symbol, t.entries.get? symbol = u.entries.get? symbol) : t = u := by
  have hentries := SortedMap.ext_get? h
  cases t
  cases u
  cases hentries
  rfl

def Compact (t : AnnotationTable) : Prop :=
  ∀ e ∈ t.entries.toList, e.2.isEmpty = false

theorem compact_empty : Compact ∅ :=
  fun _ he => absurd he List.not_mem_nil

theorem compact_annotate {t : AnnotationTable} (h : t.Compact) (symbol : Symbol) (a : Annotation) :
    (t.annotate symbol a).Compact := by
  intro e he
  rcases SortedMap.mem_place he with rfl | he
  · exact AnnotationSet.isEmpty_insert _ a
  · exact h e he

theorem compact_set {t : AnnotationTable} (h : t.Compact) (symbol : Symbol) (s : AnnotationSet) :
    (t.set symbol s).Compact := by
  unfold set
  split
  · exact fun e he => h e (List.mem_filter.1 he).1
  · rename_i hs
    intro e he
    rcases SortedMap.mem_place he with rfl | he
    · simpa using hs
    · exact h e he

theorem compact_attachAll {t : AnnotationTable} (h : t.Compact) (xs : List (Symbol × Annotation)) :
    (t.attachAll xs).Compact := by
  induction xs generalizing t with
  | nil => exact h
  | cons x xs ih => exact ih (compact_annotate h x.1 x.2)

theorem compact_apply {t : AnnotationTable} (h : t.Compact) (change : Change) :
    (change.apply t).Compact := by
  cases change with
  | annotate symbol a => exact compact_annotate h symbol a
  | set symbol s => exact compact_set h symbol s
  | merge p =>
    change (t.merge p).Compact
    rw [merge_eq]
    exact compact_attachAll h p.attachments

theorem Compact.mem_entries_iff {t : AnnotationTable} (h : t.Compact) {symbol : Symbol}
    {s : AnnotationSet} :
    (symbol, s) ∈ t.entries.toList ↔ t.get symbol = s ∧ s.isEmpty = false := by
  rw [← SortedMap.get?_eq_some_iff, get]
  constructor
  · intro hs
    refine ⟨by rw [hs, Option.getD_some], h (symbol, s) (SortedMap.mem_of_get? hs)⟩
  · rintro ⟨rfl, hs⟩
    cases hget : t.entries.get? symbol with
    | none => rw [hget] at hs; cases hs
    | some s => rfl

theorem Compact.mem_keys_iff {t : AnnotationTable} (h : t.Compact) {symbol : Symbol} :
    symbol ∈ t.entries.keys ↔ (t.get symbol).isEmpty = false := by
  constructor
  · intro hmem
    obtain ⟨⟨_, s⟩, he, rfl⟩ := List.mem_map.1 hmem
    obtain ⟨rfl, hs⟩ := h.mem_entries_iff.1 he
    exact hs
  · intro hs
    exact List.mem_map.2 ⟨(symbol, t.get symbol), h.mem_entries_iff.2 ⟨rfl, hs⟩, rfl⟩

theorem Compact.ext {t u : AnnotationTable} (ht : t.Compact) (hu : u.Compact)
    (h : ∀ symbol, t.get symbol = u.get symbol) : t = u := by
  refine ext_entries fun symbol => Option.ext fun s => ?_
  rw [SortedMap.get?_eq_some_iff, SortedMap.get?_eq_some_iff, ht.mem_entries_iff, hu.mem_entries_iff, h]

/-- A table that shows the sets of symbols: it gives each set, has no empty one among its entries, and
    counts and lists the symbols whose sets say so. -/
structure Shows (t : AnnotationTable) (sets : Symbol → AnnotationSet) : Prop where
  get : ∀ symbol, t.get symbol = sets symbol
  nonempty : ∀ e ∈ t.entries.toList, e.2.isEmpty = false
  size : (t.size : ℕ∞) = Set.encard {symbol | (sets symbol).isEmpty = false}
  isEmpty : t.isEmpty = true ↔ ∀ symbol, (sets symbol).isEmpty = true
  mem_symbolsWith : ∀ kind symbol, symbol ∈ t.symbolsWith kind ↔ (sets symbol).has kind = true
  ordered : ∀ kind, (t.symbolsWith kind).Pairwise Symbol.Precedes

theorem Compact.shows {t : AnnotationTable} (h : t.Compact) : t.Shows t.get where
  get _ := rfl
  nonempty := h
  size := by
    have hset : {symbol | (t.get symbol).isEmpty = false} = ↑t.entries.keys.toFinset := by
      ext symbol
      simp [h.mem_keys_iff]
    have hcount : t.entries.keys.toFinset.card = t.size :=
      (List.toFinset_card_of_nodup (SortedMap.nodup_keys t.entries)).trans (List.length_map _)
    rw [hset, Set.encard_coe_eq_coe_finsetCard, hcount]
  isEmpty := by
    rw [AnnotationTable.isEmpty, SortedMap.isEmpty, List.isEmpty_iff]
    constructor
    · intro hnil symbol
      by_contra hs
      have hmem := h.mem_keys_iff.2 (Bool.eq_false_of_not_eq_true hs)
      rw [SortedMap.keys, hnil] at hmem
      cases hmem
    · intro hall
      refine List.eq_nil_iff_forall_not_mem.2 fun e he => ?_
      obtain ⟨hget, hs⟩ := h.mem_entries_iff.1 he
      rw [← hget, hall] at hs
      cases hs
  mem_symbolsWith kind symbol := by
    constructor
    · intro hmem
      obtain ⟨⟨_, s⟩, he, rfl⟩ := List.mem_map.1 hmem
      obtain ⟨he, hkind⟩ := List.mem_filter.1 he
      rw [(h.mem_entries_iff.1 he).1]
      exact hkind
    · intro hkind
      have he := h.mem_entries_iff.2 ⟨rfl, AnnotationSet.isEmpty_of_has hkind⟩
      exact List.mem_map.2 ⟨_, List.mem_filter.2 ⟨he, hkind⟩, rfl⟩
  ordered kind := by
    refine List.pairwise_map.2 ?_
    exact (t.entries.filter fun _ s => s.has kind).sorted.imp Symbol.precedes_of_compare

theorem compact_foldl {t : AnnotationTable} (h : t.Compact) (changes : List Change) :
    (changes.foldl Change.apply t).Compact ∧
      (changes.foldl Change.apply t).get = changes.foldl Change.applyTo t.get := by
  induction changes generalizing t with
  | nil => exact ⟨h, rfl⟩
  | cons change changes ih =>
    rw [List.foldl_cons, List.foldl_cons, ← get_apply]
    exact ih (compact_apply h change)

/-- After any changes a table shows the sets that went through the same changes, and two tables that give
    the same sets are equal. -/
theorem shows_setsAfter :
    (∀ changes, (ofChanges changes).Shows (setsAfter changes)) ∧
      ∀ as bs, ofChanges as = ofChanges bs ↔
        ∀ symbol, (ofChanges as).get symbol = (ofChanges bs).get symbol := by
  refine ⟨fun changes => ?_, fun as bs => ⟨fun h _ => by rw [h], fun h => ?_⟩⟩
  · obtain ⟨hcompact, hget⟩ := compact_foldl compact_empty changes
    rw [setsAfter]
    exact hget ▸ hcompact.shows
  · exact (compact_foldl compact_empty as).1.ext (compact_foldl compact_empty bs).1 h

end AnnotationTable

end NativeCatalogue
