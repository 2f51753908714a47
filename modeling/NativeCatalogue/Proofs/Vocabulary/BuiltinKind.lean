import Mathlib.Data.List.Induction
import NativeCatalogue.Proofs.Text.Words
import NativeCatalogue.Vocabulary.Basic
import NativeCatalogue.Vocabulary.BuiltinKind

set_option autoImplicit false

namespace NativeCatalogue

namespace BaseWord

def all : List BaseWord :=
  [void, bool, char, int, float, double]

def name : BaseWord → String
  | void => "void"
  | bool => "bool"
  | char => "char"
  | int => "int"
  | float => "float"
  | double => "double"

def ofName? (word : String) : Option BaseWord :=
  all.find? (·.name = word)

theorem ofName?_name (b : BaseWord) : ofName? b.name = some b := by
  cases b <;> decide

theorem isSome_ofName?_iff {word : String} :
    (ofName? word).isSome = true ↔ word ∈ all.map name := by
  rw [ofName?, List.find?_isSome, List.mem_map]
  simp only [decide_eq_true_eq]

end BaseWord

namespace BuiltinTally

def builtinWords : List String :=
  Vocabulary.modifiers ++ BaseWord.all.map BaseWord.name

def baseWords (words : List String) : List BaseWord :=
  words.filterMap BaseWord.ofName?

structure Fit (words : List String) : Prop where
  builtin : ∀ word ∈ words, word ∈ builtinWords
  base : (baseWords words).length ≤ 1

def tallyOf (words : List String) : BuiltinTally where
  base := (baseWords words).head?
  unsigned := "unsigned" ∈ words
  signed := "signed" ∈ words
  short := "short" ∈ words
  longs := .ofNat (words.count "long")

variable {words others : List String}

theorem add_of_not_mem (t : BuiltinTally) {word : String} (h : word ∉ builtinWords) :
    t.add word = none := by
  unfold add
  split
  case h_11 => rfl
  all_goals exact absurd (by decide) h

theorem add_name (t : BuiltinTally) (b : BaseWord) : t.add b.name = t.withBase b := by
  cases b <;> rfl

theorem ofName?_of_modifier {word : String} (h : word ∈ Vocabulary.modifiers) :
    BaseWord.ofName? word = none := by
  have all : ∀ word ∈ Vocabulary.modifiers, BaseWord.ofName? word = none := by decide
  exact all word h

theorem baseWords_modifier {word : String} (h : word ∈ Vocabulary.modifiers) :
    baseWords (words ++ [word]) = baseWords words := by
  rw [baseWords, List.filterMap_append, List.filterMap_cons_none (ofName?_of_modifier h)]
  exact List.append_nil _

theorem baseWords_name (b : BaseWord) : baseWords (words ++ [b.name]) = baseWords words ++ [b] := by
  rw [baseWords, List.filterMap_append, List.filterMap_cons_some b.ofName?_name]
  rfl

theorem add_modifier {word : String} (h : word ∈ Vocabulary.modifiers) :
    (tallyOf words).add word = some (tallyOf (words ++ [word])) := by
  have hbase : baseWords (words ++ [word]) = baseWords words := baseWords_modifier h
  simp only [Vocabulary.modifiers, List.mem_cons, List.not_mem_nil, or_false] at h
  rcases h with rfl | rfl | rfl | rfl
  · simp [tallyOf, add, hbase]
  · simp [tallyOf, add, hbase]
  · simp [tallyOf, add, hbase]
  · simp [tallyOf, add, hbase, List.count_append, UInt8.ofNat_add]

theorem add_base (b : BaseWord) (h : baseWords words = []) :
    (tallyOf words).add b.name = some (tallyOf (words ++ [b.name])) := by
  rw [add_name, withBase, tallyOf, tallyOf, baseWords_name, h]
  cases b <;> simp [BaseWord.name, List.count_append]

theorem add_tallyOf {word : String} {t : BuiltinTally} (h : Fit words) :
    (tallyOf words).add word = some t ↔ Fit (words ++ [word]) ∧ t = tallyOf (words ++ [word]) := by
  by_cases hword : word ∈ builtinWords
  · have hbuiltin : ∀ w ∈ words ++ [word], w ∈ builtinWords := by
      intro w hw
      rcases List.mem_append.1 hw with hw | hw
      · exact h.builtin w hw
      · rwa [List.mem_singleton.1 hw]
    rcases List.mem_append.1 hword with hmodifier | hname
    · have hfit : Fit (words ++ [word]) := ⟨hbuiltin, by rw [baseWords_modifier hmodifier]; exact h.base⟩
      rw [add_modifier hmodifier, and_iff_right hfit, Option.some_inj]
      exact eq_comm
    · obtain ⟨b, -, rfl⟩ := List.mem_map.1 hname
      cases hbase : baseWords words with
      | nil =>
        have hfit : Fit (words ++ [b.name]) := ⟨hbuiltin, by rw [baseWords_name, hbase]; exact Nat.le_refl 1⟩
        rw [add_base b hbase, and_iff_right hfit, Option.some_inj]
        exact eq_comm
      | cons first more =>
        constructor
        · intro hadd
          rw [add_name, withBase, tallyOf, hbase] at hadd
          cases hadd
        · rintro ⟨hfit, -⟩
          have hlength := hfit.base
          rw [baseWords_name, hbase, List.length_append] at hlength
          exact absurd hlength (by simp)
  · rw [add_of_not_mem _ hword]
    exact ⟨nofun, fun hfit => absurd (hfit.1.builtin word (by simp)) hword⟩

theorem Fit.of_concat {word : String} (h : Fit (words ++ [word])) : Fit words where
  builtin w hw := h.builtin w (List.mem_append_left _ hw)
  base := by
    have hlength := h.base
    rw [baseWords, List.filterMap_append, List.length_append] at hlength
    exact Nat.le_trans (Nat.le_add_right _ _) hlength

theorem ofWords?_eq_some_iff {t : BuiltinTally} :
    ofWords? words = some t ↔ Fit words ∧ t = tallyOf words := by
  induction words using List.reverseRec generalizing t with
  | nil =>
    have hfit : Fit [] := ⟨nofun, Nat.zero_le 1⟩
    rw [and_iff_right hfit, ofWords?, List.foldlM_nil]
    exact ⟨fun h => (Option.some.inj h).symm, fun h => congrArg some h.symm⟩
  | append_singleton words word ih =>
    rw [ofWords?, List.foldlM_append, ← ofWords?]
    constructor
    · intro h
      obtain ⟨u, hu, hadd⟩ := Option.bind_eq_some_iff.1 h
      obtain ⟨hfit, rfl⟩ := ih.1 hu
      exact (add_tallyOf hfit).1 (by simpa using hadd)
    · rintro ⟨hfit, rfl⟩
      refine Option.bind_eq_some_iff.2 ⟨tallyOf words, ih.2 ⟨hfit.of_concat, rfl⟩, ?_⟩
      simpa using (add_tallyOf hfit.of_concat).2 ⟨hfit, rfl⟩

theorem ofWords?_congr (hfit : Fit words ↔ Fit others) (htally : Fit words → tallyOf others = tallyOf words) :
    ofWords? others = ofWords? words := by
  refine Option.ext fun t => ?_
  rw [ofWords?_eq_some_iff, ofWords?_eq_some_iff, ← hfit]
  exact and_congr_right fun h => by rw [htally h]

theorem Fit.perm (h : Fit words) (hperm : words.Perm others) : Fit others where
  builtin w hw := h.builtin w (hperm.mem_iff.2 hw)
  base := (hperm.filterMap BaseWord.ofName?).length_eq ▸ h.base

theorem tallyOf_perm (h : Fit words) (hperm : words.Perm others) : tallyOf others = tallyOf words := by
  -- Lists of one entry at most are not reordered.
  have hbase : baseWords others = baseWords words := by
    have hbases : (baseWords words).Perm (baseWords others) := hperm.filterMap BaseWord.ofName?
    have hlength := h.base
    match hwords : baseWords words, hlength with
    | [], _ => exact (hwords ▸ hbases).nil_eq.symm
    | [b], _ => exact (hwords ▸ hbases).singleton_eq.symm
  simp only [tallyOf, hbase, hperm.mem_iff, hperm.count_eq]

theorem ofWords?_perm (hperm : words.Perm others) : ofWords? others = ofWords? words :=
  ofWords?_congr ⟨fun h => h.perm hperm, fun h => h.perm hperm.symm⟩ fun h => tallyOf_perm h hperm

def repeatableWords : List String :=
  ["unsigned", "signed", "short"]

theorem ofWords?_repeat {word : String} (hword : word ∈ repeatableWords) (hmem : word ∈ words) :
    ofWords? (word :: words) = ofWords? words := by
  have hmodifier : word ∈ Vocabulary.modifiers := by
    have all : ∀ word ∈ repeatableWords, word ∈ Vocabulary.modifiers := by decide
    exact all word hword
  have hlong : word ≠ "long" := by
    rintro rfl
    exact absurd hword (by decide)
  have hbase : baseWords (word :: words) = baseWords words :=
    List.filterMap_cons_none (ofName?_of_modifier hmodifier)
  have hmems : ∀ w, w ∈ word :: words ↔ w ∈ words := by
    intro w
    rw [List.mem_cons]
    exact ⟨fun h => h.elim (fun he => he ▸ hmem) id, .inr⟩
  refine ofWords?_congr ⟨fun h => ⟨?_, ?_⟩, fun h => ⟨?_, ?_⟩⟩ fun _ => ?_
  · exact fun w hw => h.builtin w ((hmems w).1 hw)
  · exact hbase ▸ h.base
  · exact fun w hw => h.builtin w ((hmems w).2 hw)
  · exact hbase ▸ h.base
  · simp only [tallyOf, hbase, hmems, List.count_cons_of_ne hlong]

variable {t : BuiltinTally}

theorem name?_of_signs (hunsigned : t.unsigned = true) (hsigned : t.signed = true) : t.name? = none := by
  rw [name?, hunsigned, hsigned]
  rfl

theorem integerName?_eq_none (hlongs : t.longs ≠ 0)
    (h : t.short = true ∨ (t.longs ≠ 1 ∧ t.longs ≠ 2)) : t.integerName? = none := by
  unfold integerName?
  split
  · exact absurd ‹_› hlongs
  · exact absurd ‹_› hlongs
  · rename_i hshort hone
    exact absurd hone (h.resolve_left (by rw [hshort]; exact Bool.false_ne_true)).1
  · rename_i hshort htwo
    exact absurd htwo (h.resolve_left (by rw [hshort]; exact Bool.false_ne_true)).2
  · rfl

/-- Where `long` says the size, no base word but `double` and `int` goes with it. -/
theorem name?_eq_none (hlongs : t.longs ≠ 0)
    (h : t.short = true ∨ (t.longs ≠ 1 ∧ t.longs ≠ 2)) : t.name? = none := by
  have hbare : t.isBare = false := by
    rw [isBare, beq_false_of_ne hlongs, Bool.and_false]
  unfold name?
  split
  · rfl
  · split
    · rw [hbare]; rfl
    · rw [hbare]; rfl
    · rw [hbare]; rfl
    · split
      · rfl
      · rename_i hshort
        split
        · exact absurd ‹_› hlongs
        · exact absurd ‹_› (h.resolve_left fun hs => hshort (by rw [hs, Bool.or_true])).1
        · rfl
    · rw [if_pos (by simp [hlongs])]
    · exact integerName?_eq_none hlongs h
    · rw [hbare]
      exact integerName?_eq_none hlongs h

theorem length_baseWords :
    (baseWords words).length = words.countP (· ∈ BaseWord.all.map BaseWord.name) := by
  rw [baseWords, List.length_filterMap_eq_countP]
  refine List.countP_congr fun word _ => ?_
  rw [BaseWord.isSome_ofName?_iff, decide_eq_true_eq]

theorem longs_tallyOf (h : words.count "long" < 256) :
    (tallyOf words).longs.toNat = words.count "long" :=
  UInt8.toNat_ofNat_of_lt' h

/-- Whether words are no builtin words or say what does not go together. -/
def Clash (words : List String) : Prop :=
  (∃ word ∈ words, word ∉ builtinWords) ∨
    2 ≤ words.countP (· ∈ BaseWord.all.map BaseWord.name) ∨
    ("unsigned" ∈ words ∧ "signed" ∈ words) ∨ ("short" ∈ words ∧ "long" ∈ words) ∨
    2 < words.count "long"

theorem name?_of_clash (hlong : words.count "long" < 256) (hclash : Clash words) :
    (ofWords? words).bind name? = none := by
  rw [Option.bind_eq_none_iff]
  intro t ht
  obtain ⟨hfit, rfl⟩ := ofWords?_eq_some_iff.1 ht
  have hlongs := longs_tallyOf hlong
  rcases hclash with ⟨word, hword, hother⟩ | hbase | ⟨hunsigned, hsigned⟩ | ⟨hshort, hmem⟩ | hmany
  · exact absurd (hfit.builtin word hword) hother
  · have := hfit.base
    rw [length_baseWords] at this
    omega
  · exact name?_of_signs (decide_eq_true hunsigned) (decide_eq_true hsigned)
  · refine name?_eq_none (fun hzero => ?_) (.inl (decide_eq_true hshort))
    rw [hzero] at hlongs
    exact absurd hmem (List.count_eq_zero.1 hlongs.symm)
  · have hne : ∀ n : UInt8, n.toNat ≤ 2 → (tallyOf words).longs ≠ n := by
      rintro _ hle rfl
      omega
    exact name?_eq_none (hne 0 (by decide)) (.inr ⟨hne 1 (by decide), hne 2 (by decide)⟩)

end BuiltinTally

open BuiltinTally

theorem builtinKind?_intercalate {words : List String} (h : ∀ word ∈ words, Text.IsWord word.toList) :
    builtinKind? (" ".intercalate words) = (ofWords? words).bind name? := by
  rw [builtinKind?, Text.words_intercalate h, List.map_map]
  simp only [Function.comp_def, String.ofList_toList, List.map_id']

/-- The kind of a builtin type depends on its words only: not on their order, and not on whether the words that
    can be repeated are. Words have no kind if one of them is not builtin, if there are two base words, if
    both signs are there, if there are sizes of both sorts, and if `long` is there more than twice. -/
theorem builtinKind?_of_words {words : List String} (h : ∀ word ∈ words, Text.IsWord word.toList)
    (hlong : words.count "long" < 256) :
    (∀ others, words.Perm others →
      builtinKind? (" ".intercalate others) = builtinKind? (" ".intercalate words)) ∧
    (∀ word ∈ repeatableWords, word ∈ words → ∀ others, (word :: words).Perm others →
      builtinKind? (" ".intercalate others) = builtinKind? (" ".intercalate words)) ∧
    (Clash words → builtinKind? (" ".intercalate words) = none) := by
  refine ⟨fun others hperm => ?_, fun word hword hmem others hperm => ?_, fun hclash => ?_⟩
  · rw [builtinKind?_intercalate h, builtinKind?_intercalate fun w hw => h w (hperm.mem_iff.2 hw),
      ofWords?_perm hperm]
  · have hothers : ∀ w ∈ others, Text.IsWord w.toList := by
      intro w hw
      rcases List.mem_cons.1 (hperm.mem_iff.2 hw) with rfl | hw
      · exact h w hmem
      · exact h w hw
    rw [builtinKind?_intercalate h, builtinKind?_intercalate hothers, ofWords?_perm hperm,
      ofWords?_repeat hword hmem]
  · rw [builtinKind?_intercalate h]
    exact name?_of_clash hlong hclash

theorem builtinKind?_of_words_scattered :
    builtinKind? "int long unsigned long" = some "ulonglong" ∧
      builtinKind? "long unsigned int long unsigned" = some "ulonglong" ∧
      builtinKind? "long double int" = none := by
  have hkind : builtinKind? (" ".intercalate ["unsigned", "long", "long", "int"]) = some "ulonglong" := by
    decide +kernel
  have hwords : ∀ word ∈ ["unsigned", "long", "long", "int"], Text.IsWord word.toList := by decide
  have hclashing : ∀ word ∈ ["long", "double", "int"], Text.IsWord word.toList := by decide
  obtain ⟨hperm, hrepeat, -⟩ := builtinKind?_of_words hwords (by decide)
  obtain ⟨-, -, hnone⟩ := builtinKind?_of_words hclashing (by decide)
  exact ⟨(hperm ["int", "long", "unsigned", "long"] (by decide)).trans hkind,
    (hrepeat "unsigned" (by decide) (by decide) ["long", "unsigned", "int", "long", "unsigned"]
      (by decide)).trans hkind, hnone (.inr (.inl (by decide)))⟩

end NativeCatalogue
