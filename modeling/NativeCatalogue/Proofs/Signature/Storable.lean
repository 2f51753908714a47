import NativeCatalogue.Proofs.Signature.Lines
import NativeCatalogue.Proofs.Signature.Table
import NativeCatalogue.Run.Signatures

/-!
Tables that a file can hold. Every table is one that starts empty and is changed by emptying groups and by
adding signatures that can be written; so is every table that a file was read into, and every table
that the signatures of natives were added to.
-/

set_option autoImplicit false

namespace NativeCatalogue

namespace SignatureTable

structure Storable (t : SignatureTable) : Prop extends t.Valid where
  writable : ∀ g ∈ t.toList, ∀ s ∈ g.2, s.IsWritable

theorem storable_empty : (∅ : SignatureTable).Storable :=
  ⟨valid_empty, fun _ hg => by cases hg⟩

theorem storable_reset {t : SignatureTable} (h : t.Storable) (hash : UInt64) :
    (t.reset hash).Storable := by
  refine ⟨valid_reset h.toValid hash, fun g hg s hs => ?_⟩
  rw [toList_reset h.toValid] at hg
  rcases SignatureGroups.mem_update h.hashes hg with hg | rfl
  · exact h.writable g hg s hs
  · cases hs

theorem storable_insert {t : SignatureTable} (h : t.Storable) (hash : UInt64) {s : Signature}
    (hs : s.IsWritable) : (t.insert hash s).1.Storable := by
  cases hhas : t.has hash s with
  | true => rw [insert, if_pos hhas]; exact h
  | false =>
    obtain ⟨u, hinsert, hu, hgroups⟩ := valid_insert_new h.toValid hhas
    rw [hinsert]
    refine ⟨hu, fun g hg r hr => ?_⟩
    rw [hgroups] at hg
    rcases SignatureGroups.mem_update h.hashes hg with hg | rfl
    · exact h.writable g hg r hr
    · rcases List.mem_append.1 hr with hr | hr
      · cases hget : SignatureGroups.get? t.toList hash with
        | none => rw [hget] at hr; cases hr
        | some signatures =>
          rw [hget] at hr
          exact h.writable _ (SignatureGroups.mem_of_get? hget) r hr
      · rw [List.mem_singleton.1 hr]
        exact hs

inductive Change where
  | reset (hash : UInt64)
  | insert (hash : UInt64) (s : Signature)

def Change.apply (t : SignatureTable) : Change → SignatureTable
  | .reset hash => t.reset hash
  | .insert hash s => (t.insert hash s).1

def ofChanges (changes : List Change) : SignatureTable :=
  changes.foldl Change.apply ∅

theorem storable_foldl {changes : List Change} {t : SignatureTable} (h : t.Storable)
    (hs : ∀ hash s, Change.insert hash s ∈ changes → s.IsWritable) :
    (changes.foldl Change.apply t).Storable := by
  induction changes generalizing t with
  | nil => exact h
  | cons change changes ih =>
    refine ih ?_ fun hash s hmem => hs hash s (List.mem_cons_of_mem change hmem)
    cases change with
    | reset hash => exact storable_reset h hash
    | insert hash s => exact storable_insert h hash (hs hash s List.mem_cons_self)

end SignatureTable

theorem typesIn_clean (search : TypeSearch) {line : List Char} (hline : '\n' ∉ line)
    (hsearch : ∀ text, search = .inside text → '"' ∉ text ∧ '\n' ∉ text) :
    ∀ t ∈ typesIn search line, '"' ∉ t.toList ∧ '\n' ∉ t.toList := by
  have outside : ∀ text, TypeSearch.outside = .inside text → '"' ∉ text ∧ '\n' ∉ text :=
    fun _ he => by cases he
  have expecting : ∀ text, TypeSearch.expecting = .inside text → '"' ∉ text ∧ '\n' ∉ text :=
    fun _ he => by cases he
  have start : ∀ text, TypeSearch.inside [] = .inside text → '"' ∉ text ∧ '\n' ∉ text := by
    intro text he
    cases he
    exact ⟨List.not_mem_nil, List.not_mem_nil⟩
  have rest_clean : ∀ {c : Char} {rest : List Char}, '\n' ∉ c :: rest → '\n' ∉ rest :=
    fun h hmem => h (List.mem_cons_of_mem _ hmem)
  fun_induction typesIn search line with
  | case1 => exact fun t ht => absurd ht List.not_mem_nil
  | case2 text rest ih =>
    intro t ht
    rcases List.mem_cons.1 ht with rfl | ht
    · simpa using hsearch text rfl
    · exact ih (rest_clean hline) outside t ht
  | case3 text c rest hc ih =>
    obtain ⟨hquote, hnewline⟩ := hsearch text rfl
    refine ih (rest_clean hline) fun text' he => ?_
    cases he
    rw [List.mem_cons, not_or] at hline
    simp [hquote, hnewline, hline.1, Ne.symm hc]
  | case4 search c rest _ _ ih => exact ih (rest_clean hline) expecting
  | case5 rest _ _ ih => exact ih (rest_clean hline) start
  | case6 c rest _ _ _ _ ih => exact ih (rest_clean hline) expecting
  | case7 c rest _ _ _ _ ih => exact ih (rest_clean hline) outside
  | case8 search c rest _ _ _ ih => exact ih (rest_clean hline) outside

namespace SignatureFile

theorem storable_readLine {r next : Reading} {number : Nat} {line : List Char}
    (h : r.file.table.Storable) (hline : '\n' ∉ line) (hread : readLine r number line = .ok next) :
    next.file.table.Storable := by
  unfold readLine at hread
  dsimp only at hread
  split at hread
  · split at hread
    · cases hread
    · cases hread
    · rename_i hne
      cases hread
      have hclean := typesIn_clean .outside hline fun _ he => by cases he
      exact SignatureTable.storable_insert h _ ⟨hne, fun t ht => (hclean t ht).1,
        fun t ht => (hclean t ht).2⟩
  · split at hread
    · cases hread
      exact SignatureTable.storable_reset h _
    · cases hread
  · cases hread; exact h
  · cases hread; exact h
  · cases hread; exact h

theorem storable_readLines {lines : List (List Char)} {r next : Reading} {number : Nat}
    (h : r.file.table.Storable) (hlines : ∀ line ∈ lines, '\n' ∉ line)
    (hread : readLines r number lines = .ok next) : next.file.table.Storable := by
  induction lines generalizing r number with
  | nil => cases hread; exact h
  | cons line lines ih =>
    rw [readLines] at hread
    split at hread
    · rename_i between hbetween
      exact ih (storable_readLine h (hlines line (by simp)) hbetween)
        (fun l hl => hlines l (List.mem_cons_of_mem line hl)) hread
    · cases hread

theorem storable_parse {text : String} {file : SignatureFile} (h : parse text = .ok file) :
    file.table.Storable := by
  unfold parse at h
  cases hread : readLines {} 1 (Text.linesOf text.toList) with
  | error e => rw [hread] at h; cases h
  | ok r =>
    rw [hread] at h
    cases h
    exact storable_readLines SignatureTable.storable_empty
      (fun line hline => Text.newline_not_mem_of_mem_linesOf hline) hread

end SignatureFile

theorem Wrapper.name_clean (w : Wrapper) : '"' ∉ w.name.toList ∧ '\n' ∉ w.name.toList := by
  cases w <;> decide

theorem Signature.isWritable_ofPrototype (p : Prototype) : (ofPrototype p).IsWritable := by
  have hclean : ∀ t ∈ (ofPrototype p).types, '"' ∉ t.toList ∧ '\n' ∉ t.toList := by
    intro t ht
    obtain ⟨w, -, rfl⟩ := List.mem_map.1 ht
    exact w.name_clean
  exact ⟨List.cons_ne_nil _ _, fun t ht => (hclean t ht).1, fun t ht => (hclean t ht).2⟩

namespace SignatureTable

theorem storable_collectNative {t u : SignatureTable} {m n : Nat} {c : CompiledNative}
    (h : t.Storable) (hcollect : collectNative (t, m) c = .ok (u, n)) : u.Storable := by
  unfold collectNative at hcollect
  split at hcollect
  · split at hcollect
    · cases hcollect
    · rename_i hash _
      cases hcollect
      exact storable_insert h hash (Signature.isWritable_ofPrototype c.prototype)
  · cases hcollect; exact h

theorem storable_foldlM {natives : List CompiledNative} {t u : SignatureTable} {m n : Nat}
    (h : t.Storable) (hcollect : natives.foldlM collectNative (t, m) = .ok (u, n)) : u.Storable := by
  induction natives generalizing t m with
  | nil => cases hcollect; exact h
  | cons c natives ih =>
    rw [List.foldlM_cons] at hcollect
    obtain ⟨⟨between, k⟩, hfirst, hrest⟩ := bind_eq_ok.1 hcollect
    exact ih (storable_collectNative h hfirst) hrest

theorem storable_collect {natives : List CompiledNative} {t u : SignatureTable} {n : Nat}
    (h : t.Storable) (hcollect : t.collect natives = .ok (u, n)) : u.Storable :=
  storable_foldlM h hcollect

end SignatureTable

end NativeCatalogue
