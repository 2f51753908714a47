import Mathlib.Data.List.TakeWhile
import NativeCatalogue.Proofs.Prototype.Reading
import NativeCatalogue.Proofs.Text.Words
import NativeCatalogue.Signature.Basic

set_option autoImplicit false

namespace NativeCatalogue

theorem isWord_of_isIdentifier {word : String} (h : isIdentifier word = true) :
    Text.IsWord word.toList := by
  unfold isIdentifier at h
  split at h
  · cases h
  · rename_i c rest hword
    rw [hword]
    rw [Bool.and_eq_true] at h
    refine ⟨List.cons_ne_nil c rest, List.forall_mem_cons.2 ⟨not_isBlank_of_isIdentStart h.1, ?_⟩⟩
    intro d hd
    have hrest := List.all_eq_true.1 h.2 d hd
    rw [isIdentRest, Char.isAlphanum, Bool.or_right_comm, Bool.or_eq_true] at hrest
    rcases hrest with hstart | hdigit
    · exact not_isBlank_of_isIdentStart hstart
    · have := Text.isDigit_iff.1 hdigit
      exact Text.not_isBlank_of_visible (by omega)

theorem Vocabulary.name_of_find? {word : String} {e : TypeEntry} (h : find? word = some e) :
    e.name = word := by
  unfold find? at h
  simpa using List.find?_some h

namespace TypeSpec

structure IsSpelled (t : TypeSpec) (before : List String) (e : TypeEntry) : Prop where
  name_eq : t.name = " ".intercalate (before ++ [e.name])
  before_mem : ∀ word ∈ before, word ∈ Vocabulary.modifiers
  find?_eq : Vocabulary.find? e.name = some e
  /-- Only a builtin word stands behind modifiers. -/
  builtin : before ≠ [] → e.category = .builtin

def isVector (t : TypeSpec) : Bool :=
  t.name = "Vector3" && !t.isPointer

end TypeSpec

theorem Wrapper.lastWord_of_not_mem {word : String} (h : ' ' ∉ word.toList) :
    lastWord word = word := by
  have htake : word.toList.reverse.takeWhile (· ≠ ' ') = word.toList.reverse := by
    refine List.takeWhile_eq_self_iff.2 fun c hc => decide_eq_true ?_
    exact fun he => h (he ▸ List.mem_reverse.1 hc)
  rw [lastWord, htake, List.reverse_reverse, String.ofList_toList]

theorem Wrapper.lastWord_append (front rest : String) :
    lastWord (front ++ " " ++ rest) = lastWord rest := by
  have htake : (rest.toList.reverse ++ ' ' :: front.toList.reverse).takeWhile (· ≠ ' ') =
      rest.toList.reverse.takeWhile (· ≠ ' ') := by
    rw [List.takeWhile_append, List.takeWhile_cons_of_neg (by simp), List.append_nil]
    split
    · rename_i hlength
      exact ((List.takeWhile_prefix _).eq_of_length hlength).symm
    · rfl
  have hreverse : (front ++ " " ++ rest).toList.reverse =
      rest.toList.reverse ++ ' ' :: front.toList.reverse := by
    simp
  rw [lastWord, hreverse, htake, lastWord]

theorem Wrapper.lastWord_intercalate (before : List String) {word : String} (h : ' ' ∉ word.toList) :
    lastWord (" ".intercalate (before ++ [word])) = word := by
  induction before with
  | nil => exact (congrArg lastWord String.intercalate_singleton).trans (lastWord_of_not_mem h)
  | cons first before ih =>
    obtain ⟨next, more, hmore⟩ := List.exists_cons_of_ne_nil
      (List.append_ne_nil_of_right_ne_nil before (List.cons_ne_nil word []))
    rw [List.cons_append, hmore, String.intercalate_cons_cons, lastWord_append, ← hmore, ih]

theorem Vocabulary.resolve?_intercalate {words : List String}
    (h : ∀ word ∈ words, Text.IsWord word.toList) :
    resolve? (" ".intercalate words) = words.getLast?.bind find? := by
  rw [resolve?, Text.words_intercalate h, List.getLast?_map, Option.bind_map]
  simp only [Function.comp_def, String.ofList_toList]

theorem Wrapper.ofName_eq_vector_iff {base : String} {isPointer : Bool} :
    ofName base isPointer = .vector ↔ base = "Vector3" ∧ isPointer = false := by
  unfold ofName
  split_ifs <;> simp_all

namespace TypeSpec.IsSpelled

variable {t : TypeSpec} {before : List String} {e : TypeEntry}

theorem isWord (h : t.IsSpelled before e) : ∀ word ∈ before ++ [e.name], Text.IsWord word.toList := by
  intro word hword
  refine isWord_of_isIdentifier (Vocabulary.word_of_find? ?_).1
  rcases List.mem_append.1 hword with hword | hword
  · exact Vocabulary.find?_of_isBuiltin
      (Vocabulary.isBuiltin_of_modifier (List.contains_iff_mem.2 (h.before_mem word hword)))
  · rw [List.mem_singleton.1 hword, h.find?_eq]
    rfl

theorem resolve?_eq (h : t.IsSpelled before e) : Vocabulary.resolve? t.name = some e := by
  rw [h.name_eq, Vocabulary.resolve?_intercalate h.isWord, List.getLast?_concat]
  exact h.find?_eq

theorem lastWord_eq (h : t.IsSpelled before e) : Wrapper.lastWord t.name = e.name := by
  rw [h.name_eq]
  refine Wrapper.lastWord_intercalate before fun hspace => ?_
  have hword := (h.isWord e.name (List.mem_append_right before (List.mem_singleton_self _))).2
  exact absurd (hword ' ' hspace) (by decide)

theorem name_eq_vector_iff (h : t.IsSpelled before e) : t.name = "Vector3" ↔ e.name = "Vector3" := by
  constructor
  · intro hname
    rw [← h.lastWord_eq, hname]
    decide
  · intro hname
    have hentry : e.category = .vector := by
      have hfind := h.find?_eq
      rw [hname] at hfind
      have hvector : (Vocabulary.find? "Vector3").map TypeEntry.category = some .vector := by
        decide +kernel
      rw [hfind] at hvector
      exact Option.some.inj hvector
    have hbefore : before = [] := by
      by_contra hne
      rw [h.builtin hne] at hentry
      cases hentry
    rw [h.name_eq, hbefore, hname]
    exact String.intercalate_singleton

theorem ofType_eq_vector_iff (h : t.IsSpelled before e) :
    Wrapper.ofType t = .vector ↔ t.isVector = true := by
  rw [Wrapper.ofType, h.lastWord_eq, Wrapper.ofName_eq_vector_iff, isVector, Bool.and_eq_true,
    decide_eq_true_eq, h.name_eq_vector_iff, Bool.not_eq_true']

end TypeSpec.IsSpelled

def Wrapper.names : List String :=
  ["void", "object", "Vector3", "string", "Vector3*", "ulong", "ulong*"]

theorem Wrapper.name_mem_names (w : Wrapper) : w.name ∈ names := by
  cases w <;> decide

theorem Wrapper.name_eq_vector_iff {w : Wrapper} : w.name = "Vector3" ↔ w = .vector := by
  cases w <;> decide

theorem Wrapper.not_vector_of_mem_ofParameter {p : Parameter} {w : Wrapper} (h : w ∈ ofParameter p) :
    w ≠ .vector := by
  unfold ofParameter at h
  split at h
  · rw [(List.mem_replicate.1 h).2]
    decide
  · rename_i hvector
    rw [List.mem_singleton.1 h]
    exact hvector

namespace Signature

structure IsShapedFor (s : Signature) (p : Prototype) : Prop where
  ne_nil : s.types ≠ []
  /-- A slot for the result and one for each parameter, two more for each vector. -/
  length_eq : s.types.length =
    1 + p.parameters.length + 2 * p.parameters.countP fun q => q.type.isVector
  isWrapper : ∀ type ∈ s.types, type ∈ Wrapper.names
  vector_first : "Vector3" ∉ s.types.tail

theorem length_slots {ps : List Parameter} (h : ∀ p ∈ ps, ∃ before e, p.type.IsSpelled before e) :
    (ps.flatMap Wrapper.ofParameter).length = ps.length + 2 * ps.countP fun p => p.type.isVector := by
  induction ps with
  | nil => rfl
  | cons p ps ih =>
    obtain ⟨⟨before, e, hp⟩, hps⟩ := List.forall_mem_cons.1 h
    rw [List.flatMap_cons, List.length_append, ih hps, List.length_cons, List.countP_cons,
      Wrapper.ofParameter]
    split
    · rename_i hvector
      rw [if_pos (hp.ofType_eq_vector_iff.1 hvector), List.length_replicate, Vector3.slotCount]
      omega
    · rename_i hvector
      rw [if_neg (mt hp.ofType_eq_vector_iff.2 hvector), List.length_singleton]
      omega

theorem isShapedFor_ofPrototype {p : Prototype}
    (h : ∀ q ∈ p.parameters, ∃ before e, q.type.IsSpelled before e) :
    (ofPrototype p).IsShapedFor p where
  ne_nil := List.cons_ne_nil _ _
  length_eq := by
    rw [ofPrototype, List.length_map, List.length_cons, length_slots h]
    omega
  isWrapper := by
    intro type htype
    obtain ⟨w, -, rfl⟩ := List.mem_map.1 htype
    exact w.name_mem_names
  vector_first := by
    intro hvector
    obtain ⟨w, hw, hname⟩ := List.mem_map.1 hvector
    obtain ⟨q, -, hq⟩ := List.mem_flatMap.1 hw
    exact Wrapper.not_vector_of_mem_ofParameter hq (Wrapper.name_eq_vector_iff.1 hname)

end Signature

end NativeCatalogue
