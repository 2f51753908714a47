import NativeCatalogue.Proofs.Annotation.Table
import NativeCatalogue.Proofs.Basic
import NativeCatalogue.Proofs.Prototype.WellFormed

/-!
Prototypes merged into a table. What is merged goes to symbols behind what they have, each annotation at its
first place, so that nothing is lost, moved or there twice. A prototype changes the symbols of its own function
only, and once it is merged it changes nothing more.
-/

set_option autoImplicit false

namespace NativeCatalogue

namespace AnnotationSet

theorem items_insertAll (s : AnnotationSet) (xs : List Annotation) :
    (s.insertAll xs).items = s.items ++ (xs.removeAll s.items).eraseDups := by
  induction xs generalizing s with
  | nil => rw [List.nil_removeAll, List.eraseDups_nil, List.append_nil]; rfl
  | cons a xs ih =>
    change ((s.insert a).insertAll xs).items = _
    rw [ih, List.cons_removeAll, insert, contains]
    cases s.items.contains a with
    | true => rw [if_pos rfl, if_neg (by decide)]
    | false =>
      rw [if_neg Bool.false_ne_true, if_pos rfl, List.eraseDups_cons, List.removeAll_concat,
        List.append_assoc, List.singleton_append]

theorem mem_insertAll {s : AnnotationSet} {xs : List Annotation} {a : Annotation} :
    a ∈ (s.insertAll xs).items ↔ a ∈ s.items ∨ a ∈ xs := by
  rw [items_insertAll, List.mem_append, List.mem_eraseDups, List.removeAll, List.mem_filter]
  by_cases ha : a ∈ s.items
  · exact ⟨fun _ => .inl ha, fun _ => .inl ha⟩
  · simp [ha]

theorem items_insertAll_of_nodup {s : AnnotationSet} (h : s.items.Nodup) (xs : List Annotation) :
    (s.insertAll xs).items = (s.items ++ xs).eraseDups := by
  rw [items_insertAll, List.eraseDups_append, List.eraseDups_of_nodup h]

theorem nodup_insertAll {s : AnnotationSet} (h : s.items.Nodup) (xs : List Annotation) :
    (s.insertAll xs).items.Nodup := by
  induction xs generalizing s with
  | nil => exact h
  | cons a xs ih => exact ih (nodup_insert h a)

theorem insertAll_append (s : AnnotationSet) (xs ys : List Annotation) :
    s.insertAll (xs ++ ys) = (s.insertAll xs).insertAll ys :=
  List.foldl_append

theorem find?_insert (s : AnnotationSet) (a : Annotation) (p : Annotation → Bool) :
    (s.insert a).items.find? p = (s.items ++ [a]).find? p := by
  unfold insert
  split
  · rename_i hmem
    rw [List.find?_append]
    cases hfind : s.items.find? p with
    | some b => rfl
    | none =>
      have ha := List.find?_eq_none.1 hfind a (List.contains_iff_mem.1 hmem)
      rw [List.find?_singleton, if_neg ha]
      rfl
  · rfl

/-- What is found first is found in what was there, or else in what was added. -/
theorem find?_insertAll (s : AnnotationSet) (xs : List Annotation) (p : Annotation → Bool) :
    (s.insertAll xs).items.find? p = (s.items ++ xs).find? p := by
  induction xs generalizing s with
  | nil => rw [List.append_nil]; rfl
  | cons a xs ih =>
    change ((s.insert a).insertAll xs).items.find? p = _
    rw [ih, List.find?_append, find?_insert, ← List.find?_append, List.append_assoc,
      List.singleton_append]

def earliest? (kind : AnnotationKind) (xs : List Annotation) : Option String :=
  (xs.find? fun a => a.kind = kind).bind Annotation.payload?

theorem firstPayload?_insertAll (s : AnnotationSet) (xs : List Annotation) (kind : AnnotationKind) :
    (s.insertAll xs).firstPayload? kind = earliest? kind (s.items ++ xs) := by
  rw [firstPayload?, find?_insertAll, earliest?]

theorem firstPayload?_insertAll_of_some {s : AnnotationSet} {kind : AnnotationKind} {payload : String}
    (h : s.firstPayload? kind = some payload) (xs : List Annotation) :
    (s.insertAll xs).firstPayload? kind = some payload := by
  obtain ⟨a, hfind, hpayload⟩ := Option.bind_eq_some_iff.1 h
  rw [firstPayload?_insertAll, earliest?, List.find?_append, hfind, Option.some_or, Option.bind_some, hpayload]

/-- What becomes of a set to which annotations are added: behind what it has stand the first occurrences of
    the others, and the earliest annotation of each kind answers. -/
structure Unites (before : AnnotationSet) (xs : List Annotation) (after : AnnotationSet) : Prop where
  items : after.items = before.items ++ (xs.removeAll before.items).eraseDups
  firsts : before.items.Nodup → after.items = (before.items ++ xs).eraseDups
  kept : before.items <+: after.items
  since : after.since? = earliest? .since (before.items ++ xs)
  «until» : after.until? = earliest? .until (before.items ++ xs)
  displayType : after.displayType? = earliest? .displayType (before.items ++ xs)
  since_kept : ∀ version, before.since? = some version → after.since? = some version
  until_kept : ∀ version, before.until? = some version → after.until? = some version
  displayType_kept : ∀ name, before.displayType? = some name → after.displayType? = some name

theorem unites_insertAll (s : AnnotationSet) (xs : List Annotation) : s.Unites xs (s.insertAll xs) where
  items := items_insertAll s xs
  firsts h := items_insertAll_of_nodup h xs
  kept := ⟨_, (items_insertAll s xs).symm⟩
  since := firstPayload?_insertAll s xs .since
  «until» := firstPayload?_insertAll s xs .until
  displayType := firstPayload?_insertAll s xs .displayType
  since_kept _ h := firstPayload?_insertAll_of_some h xs
  until_kept _ h := firstPayload?_insertAll_of_some h xs
  displayType_kept _ h := firstPayload?_insertAll_of_some h xs

end AnnotationSet

/-- The annotations that a prototype has for a symbol: those before its name if the symbol is the function,
    those of all its parameters of the name if it is a parameter. -/
def Prototype.declares (p : Prototype) (symbol : Symbol) : List Annotation :=
  if p.name = symbol.function then
    match symbol.parameter with
    | none => p.annotations.items
    | some name => (p.parameters.filter (·.name = name)).flatMap (·.annotations.items)
  else []

theorem Prototype.annotationsOf_eq (p : Prototype) (symbol : Symbol) :
    p.annotationsOf symbol = p.declares symbol := by
  have attached : ∀ (own : Symbol) (items : List Annotation),
      ((items.map (own, ·)).filter (·.1 = symbol)).map Prod.snd = if own = symbol then items else [] := by
    intro own items
    split <;> rename_i h <;> simp [List.filter_map, Function.comp_def, h]
  rw [annotationsOf, attachments, List.filter_append, List.map_append, attached, List.filter_flatMap,
    List.map_flatMap]
  simp only [attached]
  obtain ⟨function, parameter⟩ := symbol
  by_cases hname : p.name = function
  · cases parameter with
    | none => simp [declares, hname]
    | some name => simp [declares, hname, List.flatMap_if (fun q : Parameter => q.name = name)]
  · simp [declares, hname]

namespace AnnotationTable

def mergeAll (t : AnnotationTable) (prototypes : List Prototype) : AnnotationTable :=
  prototypes.foldl merge t

theorem get_merge (t : AnnotationTable) (p : Prototype) (symbol : Symbol) :
    (t.merge p).get symbol = (t.get symbol).insertAll (p.declares symbol) := by
  rw [← p.annotationsOf_eq]
  exact congrFun (get_apply t (.merge p)) symbol

theorem get_mergeAll (t : AnnotationTable) (prototypes : List Prototype) (symbol : Symbol) :
    (t.mergeAll prototypes).get symbol =
      (t.get symbol).insertAll (prototypes.flatMap (·.declares symbol)) := by
  induction prototypes generalizing t with
  | nil => rfl
  | cons p prototypes ih =>
    change ((t.merge p).mergeAll prototypes).get symbol = _
    rw [ih, get_merge, ← AnnotationSet.insertAll_append, List.flatMap_cons]

theorem annotate_of_mem {t : AnnotationTable} {symbol : Symbol} {a : Annotation}
    (h : a ∈ (t.get symbol).items) : t.annotate symbol a = t := by
  have hentry : t.entries.get? symbol = some (t.get symbol) := by
    rw [get] at h ⊢
    cases hget : t.entries.get? symbol with
    | none =>
      rw [hget] at h
      cases h
    | some s => rfl
  have hsame : (t.get symbol).insert a = t.get symbol :=
    if_pos (List.contains_iff_mem.2 h)
  refine ext_entries fun other => ?_
  rw [annotate, hsame]
  by_cases he : other = symbol
  · rw [he, SortedMap.get?_insert_self, hentry]
  · rw [SortedMap.get?_insert_of_ne _ _ _ he]

theorem attachAll_of_mem {t : AnnotationTable} {xs : List (Symbol × Annotation)}
    (h : ∀ x ∈ xs, x.2 ∈ (t.get x.1).items) : t.attachAll xs = t := by
  induction xs with
  | nil => rfl
  | cons x xs ih =>
    obtain ⟨hx, hxs⟩ := List.forall_mem_cons.1 h
    change (t.annotate x.1 x.2).attachAll xs = t
    rw [annotate_of_mem hx, ih hxs]

theorem mergeAll_merge {prototypes : List Prototype} {p : Prototype} (h : p ∈ prototypes)
    (t : AnnotationTable) : (t.mergeAll prototypes).merge p = t.mergeAll prototypes := by
  rw [merge_eq]
  refine attachAll_of_mem fun x hx => ?_
  have hdeclared : x.2 ∈ p.declares x.1 := by
    rw [← p.annotationsOf_eq, Prototype.annotationsOf]
    exact List.mem_map.2 ⟨x, List.mem_filter.2 ⟨hx, decide_eq_true rfl⟩, rfl⟩
  rw [get_mergeAll]
  exact AnnotationSet.mem_insertAll.2 (.inr (List.mem_flatMap.2 ⟨p, h, hdeclared⟩))

theorem get?_attachAll_of_ne {t : AnnotationTable} {xs : List (Symbol × Annotation)} {symbol : Symbol}
    (h : ∀ x ∈ xs, x.1 ≠ symbol) : (t.attachAll xs).entries.get? symbol = t.entries.get? symbol := by
  induction xs generalizing t with
  | nil => rfl
  | cons x xs ih =>
    obtain ⟨hx, hxs⟩ := List.forall_mem_cons.1 h
    change ((t.annotate x.1 x.2).attachAll xs).entries.get? symbol = _
    rw [ih hxs, annotate, SortedMap.get?_insert_of_ne _ _ _ (Ne.symm hx)]

theorem get?_attachAll_congr {t u : AnnotationTable} {symbol : Symbol}
    (h : t.entries.get? symbol = u.entries.get? symbol) (xs : List (Symbol × Annotation)) :
    (t.attachAll xs).entries.get? symbol = (u.attachAll xs).entries.get? symbol := by
  induction xs generalizing t u with
  | nil => exact h
  | cons x xs ih =>
    have hstep : (t.annotate x.1 x.2).entries.get? symbol = (u.annotate x.1 x.2).entries.get? symbol := by
      rw [annotate, annotate]
      by_cases hx : symbol = x.1
      · rw [← hx, SortedMap.get?_insert_self, SortedMap.get?_insert_self, get, get, h]
      · rw [SortedMap.get?_insert_of_ne _ _ _ hx, SortedMap.get?_insert_of_ne _ _ _ hx, h]
    exact ih hstep

theorem function_of_mem_attachments {p : Prototype} {x : Symbol × Annotation} (h : x ∈ p.attachments) :
    x.1.function = p.name := by
  rcases List.mem_append.1 h with h | h
  · obtain ⟨a, -, rfl⟩ := List.mem_map.1 h
    rfl
  · obtain ⟨q, -, h⟩ := List.mem_flatMap.1 h
    obtain ⟨a, -, rfl⟩ := List.mem_map.1 h
    rfl

theorem get?_merge_of_ne {p : Prototype} {symbol : Symbol} (h : symbol.function ≠ p.name)
    (t : AnnotationTable) : (t.merge p).entries.get? symbol = t.entries.get? symbol := by
  rw [merge_eq]
  exact get?_attachAll_of_ne fun x hx he => h (he ▸ function_of_mem_attachments hx)

theorem get?_merge_congr {t u : AnnotationTable} {symbol : Symbol}
    (h : t.entries.get? symbol = u.entries.get? symbol) (p : Prototype) :
    (t.merge p).entries.get? symbol = (u.merge p).entries.get? symbol := by
  rw [merge_eq, merge_eq]
  exact get?_attachAll_congr h p.attachments

theorem merge_comm {p q : Prototype} (h : p.name ≠ q.name) (t : AnnotationTable) :
    (t.merge p).merge q = (t.merge q).merge p := by
  refine ext_entries fun symbol => ?_
  by_cases hp : symbol.function = p.name
  · have hq : symbol.function ≠ q.name := fun hq => h (hp.symm.trans hq)
    rw [get?_merge_of_ne hq, get?_merge_congr (get?_merge_of_ne hq t)]
  · rw [get?_merge_congr (get?_merge_of_ne hp t), get?_merge_of_ne hp]

theorem nodup_applyTo {sets : Symbol → AnnotationSet} {change : Change}
    (hsets : ∀ symbol, (sets symbol).items.Nodup)
    (hset : ∀ symbol s, change = .set symbol s → s.items.Nodup) (symbol : Symbol) :
    (change.applyTo sets symbol).items.Nodup := by
  have updated : ∀ (own : Symbol) (s : AnnotationSet), s.items.Nodup →
      (Function.update sets own s symbol).items.Nodup := by
    intro own s hs
    by_cases h : symbol = own
    · rw [h, Function.update_self]
      exact hs
    · rw [Function.update_of_ne h]
      exact hsets symbol
  cases change with
  | annotate own a => exact updated own _ (AnnotationSet.nodup_insert (hsets own) a)
  | set own s => exact updated own s (hset own s rfl)
  | merge p => exact AnnotationSet.nodup_insertAll (hsets symbol) _

theorem nodup_foldl_applyTo {changes : List Change} {sets : Symbol → AnnotationSet}
    (hsets : ∀ symbol, (sets symbol).items.Nodup)
    (h : ∀ symbol s, .set symbol s ∈ changes → s.items.Nodup) (symbol : Symbol) :
    (changes.foldl Change.applyTo sets symbol).items.Nodup := by
  induction changes generalizing sets with
  | nil => exact hsets symbol
  | cons change changes ih =>
    refine ih (nodup_applyTo hsets fun own s he => h own s ?_) fun own s hmem => h own s ?_
    · rw [he]
      exact List.mem_cons_self
    · exact List.mem_cons_of_mem change hmem

theorem nodup_ofChanges {changes : List Change} (h : ∀ symbol s, .set symbol s ∈ changes → s.items.Nodup)
    (symbol : Symbol) : ((ofChanges changes).get symbol).items.Nodup := by
  rw [ofChanges, (compact_foldl compact_empty changes).2]
  exact nodup_foldl_applyTo (fun _ => List.nodup_nil) h symbol

/-- Merging prototypes adds to every symbol what they declare for it, at the first places, so that sets without
    duplicates stay so; a prototype that was merged changes nothing more, and prototypes of different functions
    can be merged in either order. -/
theorem merging_unites :
    (∀ (t : AnnotationTable) (prototypes : List Prototype) (symbol : Symbol),
      (t.get symbol).Unites (prototypes.flatMap (·.declares symbol))
        ((t.mergeAll prototypes).get symbol)) ∧
    (∀ changes : List Change, (∀ symbol s, .set symbol s ∈ changes → s.items.Nodup) →
      ∀ symbol, ((ofChanges changes).get symbol).items.Nodup) ∧
    (∀ (t : AnnotationTable) (prototypes : List Prototype), ∀ p ∈ prototypes,
      (t.mergeAll prototypes).merge p = t.mergeAll prototypes) ∧
    ∀ (t : AnnotationTable) (p q : Prototype), p.name ≠ q.name →
      (t.merge p).merge q = (t.merge q).merge p := by
  refine ⟨fun t prototypes symbol => ?_, fun _ => nodup_ofChanges, fun t _ _ hp => mergeAll_merge hp t,
    fun t _ _ h => merge_comm h t⟩
  rw [get_mergeAll]
  exact AnnotationSet.unites_insertAll _ _

def twinPrototype : Prototype where
  name := "TWIN"
  result := .named "void"
  parameters := [⟨"x", .named "int", ⟨[.split]⟩⟩, ⟨"x", .named "int", ⟨[.omitted, .split]⟩⟩]
  annotations := ⟨[.since "2.0"]⟩

theorem merging_unites_sample :
    ∃ (t : AnnotationTable) (other : Prototype), t = ofChanges [.set ⟨"TWIN", none⟩ ⟨[.since "1.0"]⟩] ∧
      (t.get ⟨"TWIN", none⟩).items.Nodup ∧
      ((t.mergeAll [twinPrototype]).get ⟨"TWIN", none⟩).items = [.since "1.0", .since "2.0"] ∧
      ((t.mergeAll [twinPrototype]).get ⟨"TWIN", none⟩).since? = some "1.0" ∧
      ((t.mergeAll [twinPrototype]).get ⟨"TWIN", some "x"⟩).items = [.split, .omitted] ∧
      (t.mergeAll [twinPrototype]).merge twinPrototype = t.mergeAll [twinPrototype] ∧
      twinPrototype.name ≠ other.name ∧
        (t.merge twinPrototype).merge other = (t.merge other).merge twinPrototype := by
  obtain ⟨hunites, hnodup, hagain, hcomm⟩ := merging_unites
  have hfunction : ((ofChanges [.set ⟨"TWIN", none⟩ ⟨[.since "1.0"]⟩]).get ⟨"TWIN", none⟩).items =
      [.since "1.0"] := rfl
  have hparameter : ((ofChanges [.set ⟨"TWIN", none⟩ ⟨[.since "1.0"]⟩]).get ⟨"TWIN", some "x"⟩).items =
      [] := rfl
  have hdistinct := hnodup [.set ⟨"TWIN", none⟩ ⟨[.since "1.0"]⟩] fun symbol s hmem => by
    cases List.mem_singleton.1 hmem
    exact List.nodup_singleton _
  have hname : twinPrototype.name ≠ ({ twinPrototype with name := "OTHER" } : Prototype).name := by decide
  refine ⟨_, { twinPrototype with name := "OTHER" }, rfl, hdistinct _, ?_,
    (hunites _ _ _).since_kept _ rfl, ?_, hagain _ _ _ List.mem_cons_self, hname, hcomm _ _ _ hname⟩
  · rw [(hunites _ _ _).firsts (hdistinct _), hfunction]
    decide
  · rw [(hunites _ _ _).firsts (hdistinct _), hparameter]
    decide

end AnnotationTable

end NativeCatalogue
