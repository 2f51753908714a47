import Mathlib.Data.List.Induction
import NativeCatalogue.Proofs.Record.Catalogue
import NativeCatalogue.Run.Compile

/-!
Putting together what came of documents. Every result is counted once, as a document or as a failure; the
catalogue holds at each place the last document with its namespace and hash, and every document that is
not the last of its place is counted as a duplicate.
-/

set_option autoImplicit false

namespace NativeCatalogue

def CompiledDocument.isAt (ns hash : String) (d : CompiledDocument) : Bool :=
  d.ns = ns && d.native.record.hash = hash

theorem CompiledDocument.isAt_iff {ns hash : String} {d : CompiledDocument} :
    d.isAt ns hash = true ↔ d.ns = ns ∧ d.native.record.hash = hash := by
  rw [isAt, Bool.and_eq_true, decide_eq_true_eq, decide_eq_true_eq]

namespace CompileRun

def compiledOf (results : List (Except DocumentFailure CompiledDocument)) : List CompiledDocument :=
  results.filterMap Except.toOption

def failuresOf (results : List (Except DocumentFailure CompiledDocument)) : List DocumentFailure :=
  results.filterMap fun
    | .error e => some e
    | .ok _ => none

def insertAll (c : Catalogue) (documents : List CompiledDocument) : Catalogue :=
  documents.foldl (fun c d => c.insert d.ns d.native.record) c

def Balanced (r : CompileRun) : Prop :=
  r.catalogue.size + r.duplicates = r.documents.length

theorem documents_add (r : CompileRun) (result : Except DocumentFailure CompiledDocument) :
    (r.add result).documents = r.documents ++ compiledOf [result] := by
  cases result with
  | error e => exact (List.append_nil _).symm
  | ok d => rfl

theorem catalogue_add (r : CompileRun) (result : Except DocumentFailure CompiledDocument) :
    (r.add result).catalogue = insertAll r.catalogue (compiledOf [result]) := by
  cases result <;> rfl

theorem length_add (r : CompileRun) (result : Except DocumentFailure CompiledDocument) :
    (r.add result).documents.length + (r.add result).failures.length =
      r.documents.length + r.failures.length + 1 := by
  cases result with
  | error e =>
    change r.documents.length + (r.failures ++ [e]).length = _
    rw [List.length_append, List.length_singleton, Nat.add_assoc]
  | ok d =>
    change (r.documents ++ [d]).length + r.failures.length = _
    rw [List.length_append, List.length_singleton]
    omega

/-- A record that takes the place of another is a duplicate, and any other makes the catalogue grow. -/
theorem Balanced.add {r : CompileRun} (h : r.Balanced)
    (result : Except DocumentFailure CompiledDocument) : (r.add result).Balanced := by
  cases result with
  | error e => exact h
  | ok d =>
    unfold Balanced at h ⊢
    change (r.catalogue.insert d.ns d.native.record).size +
      (if (r.catalogue.get? d.ns d.native.record.hash).isSome then r.duplicates + 1
        else r.duplicates) = (r.documents ++ [d]).length
    rw [Catalogue.size_insert, List.length_append, List.length_singleton, ← h]
    split <;> omega

theorem documents_foldl (results : List (Except DocumentFailure CompiledDocument)) (r : CompileRun) :
    (results.foldl add r).documents = r.documents ++ compiledOf results := by
  induction results generalizing r with
  | nil => exact (List.append_nil _).symm
  | cons result results ih =>
    rw [List.foldl_cons, ih, documents_add, List.append_assoc, compiledOf, compiledOf,
      ← List.filterMap_append]
    rfl

theorem catalogue_foldl (results : List (Except DocumentFailure CompiledDocument)) (r : CompileRun) :
    (results.foldl add r).catalogue = insertAll r.catalogue (compiledOf results) := by
  induction results generalizing r with
  | nil => rfl
  | cons result results ih =>
    rw [List.foldl_cons, ih, catalogue_add, insertAll, insertAll, ← List.foldl_append, compiledOf,
      compiledOf, ← List.filterMap_append]
    rfl

theorem failures_foldl (results : List (Except DocumentFailure CompiledDocument)) (r : CompileRun) :
    (results.foldl add r).failures = r.failures ++ failuresOf results := by
  induction results generalizing r with
  | nil => exact (List.append_nil _).symm
  | cons result results ih =>
    rw [List.foldl_cons, ih]
    cases result with
    | error e => exact List.append_assoc _ [e] _
    | ok d => rfl

theorem length_foldl (results : List (Except DocumentFailure CompiledDocument)) (r : CompileRun) :
    (results.foldl add r).documents.length + (results.foldl add r).failures.length =
      r.documents.length + r.failures.length + results.length := by
  induction results generalizing r with
  | nil => rfl
  | cons result results ih =>
    rw [List.foldl_cons, ih, length_add, List.length_cons]
    omega

theorem Balanced.foldl (results : List (Except DocumentFailure CompiledDocument)) {r : CompileRun}
    (h : r.Balanced) : (results.foldl CompileRun.add r).Balanced := by
  induction results generalizing r with
  | nil => exact h
  | cons result results ih => exact ih (h.add result)

section Results

variable (skipped : Nat) (results : List (Except DocumentFailure CompiledDocument))

theorem documents_ofResults : (ofResults skipped results).documents = compiledOf results :=
  documents_foldl results _

theorem catalogue_ofResults :
    (ofResults skipped results).catalogue = insertAll ∅ (compiledOf results) :=
  catalogue_foldl results _

theorem failures_ofResults : (ofResults skipped results).failures = failuresOf results :=
  failures_foldl results _

theorem length_ofResults : (ofResults skipped results).documents.length +
    (ofResults skipped results).failures.length = results.length := by
  rw [ofResults, length_foldl]
  exact Nat.zero_add _

theorem balanced_ofResults : (ofResults skipped results).Balanced :=
  Balanced.foldl results rfl

end Results

def lastRecord? (documents : List CompiledDocument) (ns hash : String) : Option NativeRecord :=
  (documents.filter (·.isAt ns hash)).getLast?.map (·.native.record)

theorem get?_insertAll (documents : List CompiledDocument) (c : Catalogue) (ns hash : String) :
    (insertAll c documents).get? ns hash =
      (lastRecord? documents ns hash).or (c.get? ns hash) := by
  induction documents using List.reverseRecOn with
  | nil => rfl
  | append_singleton documents d ih =>
    have hstep : insertAll c (documents ++ [d]) =
        (insertAll c documents).insert d.ns d.native.record := List.foldl_append
    rw [hstep, lastRecord?, List.filter_append]
    by_cases hd : d.ns = ns ∧ d.native.record.hash = hash
    · have hat : d.isAt ns hash = true := CompiledDocument.isAt_iff.2 hd
      rw [← hd.1, ← hd.2, Catalogue.get?_insert_self, hd.1, hd.2, List.filter_cons, if_pos hat,
        List.filter_nil, List.getLast?_concat]
      rfl
    · have hat : ¬ d.isAt ns hash = true := mt CompiledDocument.isAt_iff.1 hd
      rw [Catalogue.get?_insert_of_ne _ _ _ hd, ih, List.filter_cons, if_neg hat, List.filter_nil,
        List.append_nil]
      rfl

theorem document_of_get? {documents : List CompiledDocument} {ns hash : String} {r : NativeRecord}
    (h : (insertAll ∅ documents).get? ns hash = some r) :
    ∃ d ∈ documents, d.ns = ns ∧ d.native.record = r ∧ r.hash = hash := by
  rw [get?_insertAll, Option.or_eq_some_iff] at h
  rcases h with h | ⟨-, h⟩
  · obtain ⟨d, hd, rfl⟩ := Option.map_eq_some_iff.1 h
    have hmem := List.mem_of_getLast? hd
    rw [List.mem_filter, CompiledDocument.isAt_iff] at hmem
    exact ⟨d, hmem.1, hmem.2.1, rfl, hmem.2.2⟩
  · cases h

end CompileRun

end NativeCatalogue
