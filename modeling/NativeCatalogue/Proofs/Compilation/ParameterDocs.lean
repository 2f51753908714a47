import NativeCatalogue.Compilation.ParameterDocs
import NativeCatalogue.Proofs.Text.Trimming

set_option autoImplicit false

namespace NativeCatalogue

namespace ParameterDoc

/-- The name an item gives, and what stands behind it: the first strong span of its only paragraph is not
    blank, and is the name with perhaps blanks around it. -/
def Names (item : ListItem) (name rest : String) : Prop :=
  ∃ paragraph span, item.paragraphs = [paragraph] ∧ splitStrong paragraph = some (span, rest) ∧
    span.allBlank = false ∧ name = span.trimBlanks

/-- The text in what stands behind a name. One colon with a space does not belong to it. -/
def IsText (rest text : String) : Prop :=
  (∃ more, rest = ": " ++ more ∧ text = more.trimBlanks) ∨
    (∀ more, rest ≠ ": " ++ more) ∧ text = rest.trimBlanks

def Tells (item : ListItem) (name text : String) : Prop :=
  ∃ rest, Names item name rest ∧ IsText rest text ∧ text ≠ ""

def TellsLast (items : List ListItem) (name text : String) : Prop :=
  ∃ before item behind, items = before ++ item :: behind ∧ Tells item name text ∧
    ∀ i ∈ behind, ∀ t, ¬ Tells i name t

def IsNameless (item : ListItem) : Prop :=
  ∃ paragraph, item.paragraphs = [paragraph] ∧
    ∀ span rest, splitStrong paragraph = some (span, rest) → span.allBlank = true

inductive Fault (names : List String) (item : ListItem) : DocumentError → Prop
  | paragraphs : item.paragraphs.length ≠ 1 → Fault names item .parameterParagraphs
  | unnamed : IsNameless item → Fault names item .unnamedParameter
  | unknown {name rest : String} : Names item name rest → name ∉ names →
      Fault names item (.unknownParameter name)

def FirstFault (names : List String) (items : List ListItem) (e : DocumentError) : Prop :=
  ∃ before item behind, items = before ++ item :: behind ∧
    (∀ i ∈ before, ∀ f, ¬ Fault names i f) ∧ Fault names item e

/-- Parameters with the texts that items tell about them. -/
structure Described (items : List ListItem) (parameters described : List ParameterRecord) : Prop where
  length : described.length = parameters.length
  told : ∀ (k : Nat) (p : ParameterRecord) (text : String), parameters[k]? = some p →
    (parameters.map ParameterRecord.name).idxOf p.name = k → TellsLast items p.name text →
      described[k]? = some { p with description := some text }
  kept : ∀ (k : Nat) (p : ParameterRecord), parameters[k]? = some p →
    ((parameters.map ParameterRecord.name).idxOf p.name = k → ∀ text, ¬ TellsLast items p.name text) →
      described[k]? = some p

section Items

variable {item : ListItem} {name rest text : String}

theorem trimBlanks_eq_empty_iff {s : String} : s.trimBlanks = "" ↔ s.allBlank = true := by
  rw [String.trimBlanks, ← String.toList_eq_nil_iff, String.toList_ofList, Text.trim_eq_nil_iff,
    String.allBlank]

theorem Names.unique {name' rest' : String} (h : Names item name rest)
    (h' : Names item name' rest') : name' = name ∧ rest' = rest := by
  obtain ⟨paragraph, span, hitem, hspan, -, rfl⟩ := h
  obtain ⟨paragraph', span', hitem', hspan', -, rfl⟩ := h'
  rw [hitem, List.singleton_inj] at hitem'
  rw [← hitem', hspan] at hspan'
  cases hspan'
  exact ⟨rfl, rfl⟩

theorem names_or_nameless (item : ListItem) :
    item.paragraphs.length ≠ 1 ∨ IsNameless item ∨ ∃ name rest, Names item name rest := by
  by_cases hone : item.paragraphs.length = 1
  · obtain ⟨paragraph, hitem⟩ := List.length_eq_one_iff.1 hone
    refine .inr ?_
    by_cases hspan : ∃ span rest, splitStrong paragraph = some (span, rest) ∧ span.allBlank = false
    · obtain ⟨span, rest, hspan, hblank⟩ := hspan
      exact .inr ⟨span.trimBlanks, rest, paragraph, span, hitem, hspan, hblank, rfl⟩
    · refine .inl ⟨paragraph, hitem, fun span rest hsplit => ?_⟩
      rw [← Bool.not_eq_false]
      exact fun hblank => hspan ⟨span, rest, hsplit, hblank⟩
  · exact .inl hone

theorem toList_colon (more : String) : (": " ++ more).toList = ':' :: ' ' :: more.toList := by
  rw [String.toList_append]
  rfl

theorem isText_iff : IsText rest text ↔ text = descriptionOf rest := by
  by_cases h : ∃ more, rest = ": " ++ more
  · obtain ⟨more, rfl⟩ := h
    have htext : descriptionOf (": " ++ more) = more.trimBlanks := by
      rw [descriptionOf, toList_colon]
      exact congrArg String.trimBlanks String.ofList_toList
    rw [htext]
    constructor
    · rintro (⟨other, hsame, rfl⟩ | ⟨hnone, -⟩)
      · rw [(String.append_right_inj ": ").1 hsame]
      · exact absurd rfl (hnone more)
    · exact fun htext => .inl ⟨more, rfl, htext⟩
  · have hnone : ∀ more, rest ≠ ": " ++ more := fun more he => h ⟨more, he⟩
    have htext : descriptionOf rest = rest.trimBlanks := by
      rw [descriptionOf]
      split
      · rename_i more hrest
        refine absurd ?_ (hnone (.ofList more))
        rw [← String.toList_inj, toList_colon, hrest, String.toList_ofList]
      · rfl
    rw [htext]
    constructor
    · rintro (⟨more, hmore, -⟩ | ⟨-, htext⟩)
      · exact absurd hmore (hnone more)
      · exact htext
    · exact fun htext => .inr ⟨hnone, htext⟩

theorem tells_iff (hname : Names item name rest) {other : String} :
    Tells item other text ↔ other = name ∧ text = descriptionOf rest ∧ text ≠ "" := by
  rw [← isText_iff]
  constructor
  · rintro ⟨rest', hother, htold⟩
    obtain ⟨rfl, rfl⟩ := hname.unique hother
    exact ⟨rfl, htold⟩
  · rintro ⟨rfl, htold⟩
    exact ⟨rest, hname, htold⟩

theorem ofItem_of_length (h : item.paragraphs.length ≠ 1) :
    ofItem item = .error .parameterParagraphs := by
  rw [ofItem]
  split
  · rename_i paragraph hitem
    rw [hitem] at h
    exact absurd rfl h
  · rfl

theorem ofItem_of_isNameless (h : IsNameless item) : ofItem item = .error .unnamedParameter := by
  obtain ⟨paragraph, hitem, hblank⟩ := h
  rw [ofItem, hitem]
  dsimp only
  cases hspan : splitStrong paragraph with
  | none => rfl
  | some span => exact if_pos (trimBlanks_eq_empty_iff.2 (hblank span.1 span.2 hspan))

theorem ofItem_of_names (h : Names item name rest) : ofItem item = .ok ⟨name, descriptionOf rest⟩ := by
  obtain ⟨paragraph, span, hitem, hspan, hblank, rfl⟩ := h
  rw [ofItem, hitem]
  dsimp only
  rw [hspan]
  refine if_neg fun hempty => ?_
  rw [trimBlanks_eq_empty_iff.1 hempty] at hblank
  cases hblank

end Items

section Step

variable {parameters described : List ParameterRecord} {item : ListItem}

theorem length_describe {doc : ParameterDoc} (h : doc.describe parameters = some described) :
    described.length = parameters.length := by
  induction parameters generalizing described with
  | nil => cases h
  | cons p parameters ih =>
    rw [describe] at h
    split at h
    · cases h
      rfl
    · obtain ⟨rest, hrest, rfl⟩ := Option.map_eq_some_iff.1 h
      rw [List.length_cons, List.length_cons, ih hrest]

theorem describe_eq_none_iff {doc : ParameterDoc} :
    doc.describe parameters = none ↔ doc.name ∉ parameters.map ParameterRecord.name := by
  induction parameters with
  | nil => exact iff_of_true rfl List.not_mem_nil
  | cons p parameters ih =>
    rw [describe, List.map_cons, List.mem_cons, not_or]
    split
    · rename_i hname
      exact iff_of_false nofun fun h => h.1 hname.symm
    · rename_i hname
      rw [Option.map_eq_none_iff, ih]
      exact ⟨fun h => ⟨fun he => hname he.symm, h⟩, fun h => h.2⟩

theorem getElem?_describe {doc : ParameterDoc} (h : doc.describe parameters = some described) {k : Nat}
    {p : ParameterRecord} (hp : parameters[k]? = some p) :
    described[k]? = some (if (parameters.map ParameterRecord.name).idxOf p.name = k ∧
      p.name = doc.name ∧ doc.text ≠ "" then { p with description := some doc.text } else p) := by
  induction parameters generalizing described k with
  | nil => cases h
  | cons q parameters ih =>
    rw [describe] at h
    split at h
    · rename_i hname
      cases h
      cases k with
      | zero =>
        rw [List.getElem?_cons_zero, Option.some_inj] at hp
        subst hp
        rw [List.getElem?_cons_zero, List.map_cons, List.idxOf_cons_self]
        by_cases htext : doc.text = "" <;> simp [htext, hname]
      | succ k =>
        rw [List.getElem?_cons_succ] at hp ⊢
        rw [if_neg, hp]
        rintro ⟨hfirst, hp, -⟩
        rw [List.map_cons, hp, hname, List.idxOf_cons_self] at hfirst
        cases hfirst
    · rename_i hname
      obtain ⟨rest, hrest, rfl⟩ := Option.map_eq_some_iff.1 h
      cases k with
      | zero =>
        rw [List.getElem?_cons_zero, Option.some_inj] at hp
        subst hp
        rw [List.getElem?_cons_zero, if_neg fun hdoc => hname hdoc.2.1]
      | succ k =>
        rw [List.getElem?_cons_succ] at hp ⊢
        rw [ih hrest hp]
        by_cases hdoc : p.name = doc.name ∧ doc.text ≠ ""
        · have hne : q.name ≠ p.name := fun he => hname (he.trans hdoc.1)
          rw [List.map_cons, List.idxOf_cons_ne _ hne]
          simp [hdoc]
        · rw [if_neg fun h => hdoc h.2, if_neg fun h => hdoc h.2]

theorem apply_of_describe {name rest : String} (h : Names item name rest)
    (hdescribed : describe ⟨name, descriptionOf rest⟩ parameters = some described) :
    apply parameters item = .ok described := by
  simp only [apply, ofItem_of_names h, hdescribed]

theorem apply_of_unknown {name rest : String} (h : Names item name rest)
    (hnone : describe ⟨name, descriptionOf rest⟩ parameters = none) :
    apply parameters item = .error (.unknownParameter name) := by
  simp only [apply, ofItem_of_names h, hnone]

theorem apply_of_fault {e : DocumentError} (h : Fault (parameters.map ParameterRecord.name) item e) :
    apply parameters item = .error e := by
  cases h with
  | paragraphs hlength => rw [apply, ofItem_of_length hlength]
  | unnamed hnameless => rw [apply, ofItem_of_isNameless hnameless]
  | unknown hname hnot => exact apply_of_unknown hname (describe_eq_none_iff.2 hnot)

theorem tellsLast_singleton {name text : String} : TellsLast [item] name text ↔ Tells item name text := by
  constructor
  · rintro ⟨before, last, behind, hitems, htold, -⟩
    rcases List.singleton_eq_append_iff.1 hitems with ⟨-, hlast⟩ | ⟨-, hnil⟩
    · rw [← (List.cons.inj hlast).1]
      exact htold
    · cases hnil
  · exact fun h => ⟨[], item, [], rfl, h, fun i hi => absurd hi List.not_mem_nil⟩

theorem apply_cases (parameters : List ParameterRecord) (item : ListItem) :
    (∃ e, Fault (parameters.map ParameterRecord.name) item e ∧ apply parameters item = .error e) ∨
      ∃ described, apply parameters item = .ok described ∧
        Described [item] parameters described := by
  have hfault : ∀ e, Fault (parameters.map ParameterRecord.name) item e →
      ∃ e, Fault (parameters.map ParameterRecord.name) item e ∧ apply parameters item = .error e :=
    fun e he => ⟨e, he, apply_of_fault he⟩
  rcases names_or_nameless item with hlength | hnameless | ⟨name, rest, hname⟩
  · exact .inl (hfault _ (.paragraphs hlength))
  · exact .inl (hfault _ (.unnamed hnameless))
  · cases hdescribed : describe ⟨name, descriptionOf rest⟩ parameters with
    | none => exact .inl (hfault _ (.unknown hname (describe_eq_none_iff.1 hdescribed)))
    | some described =>
      refine .inr ⟨described, apply_of_describe hname hdescribed, length_describe hdescribed, ?_, ?_⟩
      · intro k p text hp hfirst htold
        obtain ⟨hsame, rfl, hnonempty⟩ := (tells_iff hname).1 (tellsLast_singleton.1 htold)
        rw [getElem?_describe hdescribed hp, if_pos ⟨hfirst, hsame, hnonempty⟩]
      · intro k p hp hnot
        rw [getElem?_describe hdescribed hp, if_neg]
        rintro ⟨hfirst, hsame, hnonempty⟩
        exact hnot hfirst _ (tellsLast_singleton.2 ((tells_iff hname).2 ⟨hsame, rfl, hnonempty⟩))

end Step

section Run

variable {parameters described : List ParameterRecord} {item : ListItem} {items : List ListItem}

theorem firstFault_cons {names : List String} {e : DocumentError} :
    FirstFault names (item :: items) e ↔
      Fault names item e ∨ (∀ f, ¬ Fault names item f) ∧ FirstFault names items e := by
  constructor
  · rintro ⟨before, faulty, behind, hitems, hbefore, he⟩
    cases before with
    | nil =>
      cases hitems
      exact .inl he
    | cons first before =>
      cases hitems
      obtain ⟨hfirst, hbefore⟩ := List.forall_mem_cons.1 hbefore
      exact .inr ⟨hfirst, before, faulty, behind, rfl, hbefore, he⟩
  · rintro (he | ⟨hitem, before, faulty, behind, rfl, hbefore, he⟩)
    · exact ⟨[], item, items, rfl, fun i hi => absurd hi List.not_mem_nil, he⟩
    · exact ⟨item :: before, faulty, behind, rfl, List.forall_mem_cons.2 ⟨hitem, hbefore⟩, he⟩

theorem tellsLast_cons {name text : String} :
    TellsLast (item :: items) name text ↔
      TellsLast items name text ∨ Tells item name text ∧ ∀ i ∈ items, ∀ t, ¬ Tells i name t := by
  constructor
  · rintro ⟨before, last, behind, hitems, htold, hbehind⟩
    cases before with
    | nil =>
      cases hitems
      exact .inr ⟨htold, hbehind⟩
    | cons first before =>
      cases hitems
      exact .inl ⟨before, last, behind, rfl, htold, hbehind⟩
  · rintro (⟨before, last, behind, rfl, htold, hbehind⟩ | ⟨htold, hitems⟩)
    · exact ⟨item :: before, last, behind, rfl, htold, hbehind⟩
    · exact ⟨[], item, items, rfl, htold, hitems⟩

theorem exists_tellsLast {name : String} (h : ∃ i ∈ items, ∃ t, Tells i name t) :
    ∃ text, TellsLast items name text := by
  induction items with
  | nil =>
    obtain ⟨i, hi, -⟩ := h
    cases hi
  | cons first items ih =>
    by_cases hbehind : ∃ i ∈ items, ∃ t, Tells i name t
    · obtain ⟨text, htext⟩ := ih hbehind
      exact ⟨text, tellsLast_cons.2 (.inl htext)⟩
    · obtain ⟨i, hi, t, ht⟩ := h
      have hnone : ∀ i ∈ items, ∀ t, ¬ Tells i name t := fun i hi t ht => hbehind ⟨i, hi, t, ht⟩
      rcases List.mem_cons.1 hi with rfl | hi
      · exact ⟨t, tellsLast_cons.2 (.inr ⟨ht, hnone⟩)⟩
      · exact absurd ht (hnone i hi t)

theorem not_tellsLast_nil {name text : String} : ¬ TellsLast [] name text := by
  rintro ⟨before, item, behind, hitems, -⟩
  cases before <;> cases hitems

theorem described_nil (parameters : List ParameterRecord) : Described [] parameters parameters where
  length := rfl
  told _ _ _ _ _ htold := absurd htold not_tellsLast_nil
  kept _ _ hp _ := hp

namespace Described

theorem getElem? (h : Described items parameters described) {k : Nat} {p : ParameterRecord}
    (hp : parameters[k]? = some p) :
    ∃ description, described[k]? = some { p with description := description } := by
  by_cases htold : (parameters.map ParameterRecord.name).idxOf p.name = k ∧
      ∃ text, TellsLast items p.name text
  · obtain ⟨hfirst, text, htext⟩ := htold
    exact ⟨some text, h.told k p text hp hfirst htext⟩
  · exact ⟨p.description, h.kept k p hp fun hfirst text htext => htold ⟨hfirst, text, htext⟩⟩

theorem map_name (h : Described items parameters described) :
    described.map ParameterRecord.name = parameters.map ParameterRecord.name := by
  refine List.ext_getElem? fun k => ?_
  rw [List.getElem?_map, List.getElem?_map]
  cases hp : parameters[k]? with
  | none =>
    rw [List.getElem?_eq_none_iff, ← h.length, ← List.getElem?_eq_none_iff] at hp
    rw [hp]
  | some p =>
    obtain ⟨description, hdescribed⟩ := h.getElem? hp
    rw [hdescribed]
    rfl

/-- What later items tell stands, and what the first tells only where they tell nothing. -/
theorem cons {next : List ParameterRecord} (hfirst : Described [item] parameters next)
    (hrest : Described items next described) : Described (item :: items) parameters described where
  length := hrest.length.trans hfirst.length
  told k p text hp hplace htold := by
    rcases tellsLast_cons.1 htold with htold | ⟨htold, hnone⟩
    · obtain ⟨description, hnext⟩ := hfirst.getElem? hp
      have hlast := hrest.told k _ text hnext (by rw [hfirst.map_name]; exact hplace) htold
      exact hlast
    · have hnext := hfirst.told k p text hp hplace (tellsLast_singleton.2 htold)
      refine hrest.kept k _ hnext fun _ t ht => ?_
      obtain ⟨before, last, behind, rfl, ht, -⟩ := ht
      exact hnone last (by simp) t ht
  kept k p hp hnot := by
    have hnext := hfirst.kept k p hp fun hplace text htext => by
      obtain ⟨last, hlast⟩ := exists_tellsLast
        ⟨item, List.mem_cons_self, text, tellsLast_singleton.1 htext⟩
      exact hnot hplace last hlast
    refine hrest.kept k p hnext fun hplace text htext => ?_
    rw [hfirst.map_name] at hplace
    exact hnot hplace text (tellsLast_cons.2 (.inl htext))

theorem find?_of_idxOf {name : String} {p : ParameterRecord}
    (h : parameters[(parameters.map ParameterRecord.name).idxOf name]? = some p) :
    parameters.find? (·.name = name) = some p := by
  induction parameters with
  | nil => cases h
  | cons q parameters ih =>
    by_cases hname : q.name = name
    · rw [List.map_cons, hname, List.idxOf_cons_self] at h
      rw [List.find?_cons_of_pos (by simpa using hname), ← h, List.getElem?_cons_zero]
    · rw [List.map_cons, List.idxOf_cons_ne _ hname, List.getElem?_cons_succ] at h
      rw [List.find?_cons_of_neg (by simpa using hname)]
      exact ih h

theorem find? (h : Described items parameters described) {name text : String}
    (hname : name ∈ parameters.map ParameterRecord.name) (htold : TellsLast items name text) :
    ∃ p, described.find? (·.name = name) = some p ∧ p.description = some text := by
  have hplace := List.getElem?_idxOf hname
  rw [List.getElem?_map, Option.map_eq_some_iff] at hplace
  obtain ⟨p, hp, rfl⟩ := hplace
  refine ⟨{ p with description := some text }, find?_of_idxOf ?_, rfl⟩
  rw [h.map_name]
  exact h.told _ p text hp rfl htold

end Described

theorem foldlM_apply_eq_error_iff {e : DocumentError} :
    items.foldlM apply parameters = .error e ↔
      FirstFault (parameters.map ParameterRecord.name) items e := by
  induction items generalizing parameters with
  | nil =>
    refine iff_of_false nofun ?_
    rintro ⟨before, item, behind, hitems, -⟩
    cases before <;> cases hitems
  | cons item items ih =>
    rw [List.foldlM_cons, firstFault_cons]
    rcases apply_cases parameters item with ⟨f, hfault, hstop⟩ | ⟨next, hnext, hdescribed⟩
    · rw [hstop]
      constructor
      · intro he
        cases he
        exact .inl hfault
      · rintro (he | ⟨hnone, -⟩)
        · rw [← hstop, apply_of_fault he]
          rfl
        · exact absurd hfault (hnone f)
    · have hnone : ∀ f, ¬ Fault (parameters.map ParameterRecord.name) item f := by
        intro f hf
        rw [apply_of_fault hf] at hnext
        cases hnext
      rw [hnext, ← hdescribed.map_name, ← ih, hdescribed.map_name]
      constructor
      · exact fun he => .inr ⟨hnone, he⟩
      · rintro (he | ⟨-, he⟩)
        · exact absurd he (hnone e)
        · exact he

theorem described_of_foldlM (h : items.foldlM apply parameters = .ok described) :
    Described items parameters described := by
  induction items generalizing parameters with
  | nil =>
    cases h
    exact described_nil described
  | cons item items ih =>
    rw [List.foldlM_cons] at h
    rcases apply_cases parameters item with ⟨f, -, hstop⟩ | ⟨next, hnext, hdescribed⟩
    · rw [hstop] at h
      cases h
    · rw [hnext] at h
      exact hdescribed.cons (ih h)

end Run

end ParameterDoc

def FirstList (blocks : List Block) (items : List ListItem) : Prop :=
  ∃ before behind, blocks = before ++ .list items :: behind ∧ ∀ others, Block.list others ∉ before

theorem firstList?_eq_some_iff {blocks : List Block} {items : List ListItem} :
    firstList? blocks = some items ↔ FirstList blocks items := by
  rw [firstList?, List.findSome?_eq_some_iff]
  constructor
  · rintro ⟨before, block, behind, rfl, hblock, hbefore⟩
    cases block with
    | list others =>
      cases hblock
      exact ⟨before, behind, rfl, fun others hmem => nomatch hbefore _ hmem⟩
    | _ => cases hblock
  · rintro ⟨before, behind, rfl, hbefore⟩
    refine ⟨before, .list items, behind, rfl, rfl, fun block hmem => ?_⟩
    cases block with
    | list others => exact absurd hmem (hbefore others)
    | _ => rfl

theorem firstList?_eq_none_iff {blocks : List Block} :
    firstList? blocks = none ↔ ∀ items, Block.list items ∉ blocks := by
  rw [firstList?, List.findSome?_eq_none_iff]
  constructor
  · exact fun h items hmem => nomatch h _ hmem
  · intro h block hmem
    cases block with
    | list items => exact absurd hmem (h items)
    | _ => rfl

open ParameterDoc

section Section

variable {r : NativeRecord} {blocks : List Block}

theorem documentParameters_of_none (h : firstList? blocks = none) :
    r.documentParameters blocks = .error .noParameterList := by
  rw [NativeRecord.documentParameters, h]

theorem documentParameters_of_error {items : List ListItem} {e : DocumentError}
    (h : firstList? blocks = some items) (hrun : items.foldlM apply r.parameters = .error e) :
    r.documentParameters blocks = .error e := by
  rw [NativeRecord.documentParameters, h]
  dsimp only
  rw [hrun]
  rfl

theorem documentParameters_of_ok {items : List ListItem} {parameters : List ParameterRecord}
    (h : firstList? blocks = some items) (hrun : items.foldlM apply r.parameters = .ok parameters) :
    r.documentParameters blocks = .ok { r with parameters := parameters } := by
  rw [NativeRecord.documentParameters, h]
  dsimp only
  rw [hrun]
  rfl

end Section

/-- A parameter section without a list fails, and so does one with an item at fault in its first list, for
    the fault of the first such item. Any other gives the record back with what the items of its first list
    tell about the parameters. -/
theorem documentParameters_fails_or_describes (r : NativeRecord) (blocks : List Block) :
    (∀ e, r.documentParameters blocks = .error e ↔
      (∀ items, Block.list items ∉ blocks) ∧ e = .noParameterList ∨
        ∃ items, FirstList blocks items ∧
          FirstFault (r.parameters.map ParameterRecord.name) items e) ∧
    ∀ described, r.documentParameters blocks = .ok described →
      described = { r with parameters := described.parameters } ∧
        ∃ items, FirstList blocks items ∧
          Described items r.parameters described.parameters := by
  simp only [← firstList?_eq_some_iff, ← firstList?_eq_none_iff, ← foldlM_apply_eq_error_iff]
  cases hfirst : firstList? blocks with
  | none =>
    rw [documentParameters_of_none hfirst]
    simp [eq_comm]
  | some items =>
    cases hrun : items.foldlM apply r.parameters with
    | error f =>
      rw [documentParameters_of_error hfirst hrun]
      simp [hrun]
    | ok parameters =>
      rw [documentParameters_of_ok hfirst hrun]
      refine ⟨fun e => by simp [hrun], fun described h => ?_⟩
      cases h
      exact ⟨rfl, items, rfl, described_of_foldlM hrun⟩

end NativeCatalogue
