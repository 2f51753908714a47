import Mathlib.Data.List.TakeWhile
import NativeCatalogue.Proofs.Signature.Changes
import NativeCatalogue.Proofs.Signature.Searching

set_option autoImplicit false

namespace NativeCatalogue

namespace SignatureGroups

theorem get?_insert_self {groups : SignatureGroups} {hash : UInt64} {signatures : List Signature}
    (h : get? groups hash = some signatures) (s : Signature) : get? (insert groups hash s).1 hash =
      some (if signatures.contains s then signatures else signatures ++ [s]) := by
  rw [insert, h, Option.getD_some]
  split
  · exact h
  · rw [get?_update_self, h, Option.getD_some]

theorem get?_insert_of_ne {groups : SignatureGroups} {hash other : UInt64} (h : other ≠ hash)
    (s : Signature) : get? (insert groups hash s).1 other = get? groups other := by
  rw [insert]
  split
  · rfl
  · exact get?_update_of_ne h _

end SignatureGroups

namespace SignatureFile

section IsLast

variable {p : List Char → Bool} {lines behind : List (List Char)} {line l : List Char}

theorem isLast_concat : IsLast p (lines ++ [l]) line behind ↔
    (p l = true ∧ line = l ∧ behind = []) ∨
      (p l = false ∧ ∃ more, behind = more ++ [l] ∧ IsLast p lines line more) := by
  constructor
  · rintro ⟨before, hlines, hp, hbehind⟩
    rcases List.eq_nil_or_concat behind with rfl | ⟨more, last, rfl⟩
    · obtain ⟨rfl, hl⟩ := List.append_inj' hlines rfl
      cases hl
      exact .inl ⟨hp, rfl, rfl⟩
    · rw [List.concat_eq_append] at hlines hbehind ⊢
      rw [← List.cons_append, ← List.append_assoc] at hlines
      obtain ⟨rfl, hl⟩ := List.append_inj' hlines rfl
      cases hl
      rw [List.forall_mem_append] at hbehind
      exact .inr ⟨hbehind.2 l (by simp), more, rfl, before, rfl, hp, hbehind.1⟩
  · rintro (⟨hp, rfl, rfl⟩ | ⟨hp, more, rfl, before, rfl, hline, hmore⟩)
    · exact ⟨lines, rfl, hp, by simp⟩
    · refine ⟨before, by simp, hline, ?_⟩
      rw [List.forall_mem_append]
      exact ⟨hmore, by simpa using hp⟩

theorem isLast_concat_of_not (h : p l = false) :
    IsLast p (lines ++ [l]) line behind ↔ ∃ more, behind = more ++ [l] ∧ IsLast p lines line more := by
  rw [isLast_concat, h]
  simp

theorem IsLast.mem (h : IsLast p lines line behind) : line ∈ lines ∧ p line = true := by
  obtain ⟨before, rfl, hline, -⟩ := h
  exact ⟨by simp, hline⟩

theorem IsLast.of_subset {q : List Char → Bool} (h : IsLast p lines line behind)
    (hline : q line = true) (hq : ∀ l, q l = true → p l = true) : IsLast q lines line behind := by
  obtain ⟨before, hlines, -, hbehind⟩ := h
  refine ⟨before, hlines, hline, fun b hb => ?_⟩
  rw [← Bool.not_eq_true]
  intro hqb
  have hpb := hq b hqb
  rw [hbehind b hb] at hpb
  cases hpb

theorem IsLast.unique {line' : List Char} {behind' : List (List Char)} (h : IsLast p lines line behind)
    (h' : IsLast p lines line' behind') : line = line' ∧ behind = behind' := by
  induction lines using List.reverseRecOn generalizing behind behind' with
  | nil => exact absurd h.mem.1 List.not_mem_nil
  | append_singleton lines l ih =>
    rcases isLast_concat.1 h with ⟨hl, rfl, rfl⟩ | ⟨hl, more, rfl, hmore⟩
    · rcases isLast_concat.1 h' with ⟨-, rfl, rfl⟩ | ⟨hl', -⟩
      · exact ⟨rfl, rfl⟩
      · rw [hl] at hl'
        cases hl'
    · obtain ⟨more', rfl, hmore'⟩ := (isLast_concat_of_not hl).1 h'
      obtain ⟨rfl, rfl⟩ := ih hmore hmore'
      exact ⟨rfl, rfl⟩

end IsLast

theorem not_isSignature_of_isBoundary {line : List Char} (h : isBoundary line = true) :
    isSignature line = false := by
  rw [isBoundary] at h
  rw [isSignature, decide_eq_false_iff_not]
  intro he
  rw [he] at h
  cases h

theorem kind_of_opens {hash : UInt64} {line : List Char} (h : opens hash line = true) :
    SignatureLine.ofChars line = .opening := by
  rw [opens, decide_eq_true_eq, openedHash?] at h
  split at h
  · assumption
  · cases h

theorem isBoundary_of_opens {hash : UInt64} {line : List Char} (h : opens hash line = true) :
    isBoundary line = true := by
  rw [isBoundary, kind_of_opens h]
  rfl

theorem signaturesBehind_concat_of_not {l : List Char} (h : isSignature l = false)
    (lines : List (List Char)) : signaturesBehind (lines ++ [l]) = signaturesBehind lines := by
  have hfilter : ((lines ++ [l]).takeWhile (!isBoundary ·)).filter isSignature =
      (lines.takeWhile (!isBoundary ·)).filter isSignature := by
    have hlast : ([l].takeWhile (!isBoundary ·)).filter isSignature = [] := by
      refine List.filter_eq_nil_iff.2 fun a ha => ?_
      rw [List.mem_singleton.1 ((List.takeWhile_sublist _).mem ha), h]
      exact Bool.false_ne_true
    rw [List.takeWhile_append]
    split
    · rename_i hall
      rw [(List.takeWhile_prefix _).eq_of_length hall, List.filter_append, hlast, List.append_nil]
    · rfl
  rw [signaturesBehind, hfilter, signaturesBehind]

theorem signaturesBehind_concat_of_boundary {lines : List (List Char)} {b : List Char} (hb : b ∈ lines)
    (hboundary : isBoundary b = true) (l : List Char) :
    signaturesBehind (lines ++ [l]) = signaturesBehind lines := by
  have htake : (lines ++ [l]).takeWhile (!isBoundary ·) = lines.takeWhile (!isBoundary ·) := by
    rw [List.takeWhile_append, if_neg]
    intro hall
    rw [← (List.takeWhile_prefix _).eq_of_length hall] at hb
    have := List.all_eq_true.1 List.all_takeWhile b hb
    rw [hboundary] at this
    cases this
  rw [signaturesBehind, htake, signaturesBehind]

theorem signaturesBehind_concat {lines : List (List Char)} {l : List Char}
    (hlines : ∀ b ∈ lines, isBoundary b = false) (hl : isSignature l = true) :
    signaturesBehind (lines ++ [l]) =
      if (signaturesBehind lines).contains ⟨typesIn .outside l⟩ then signaturesBehind lines
      else signaturesBehind lines ++ [⟨typesIn .outside l⟩] := by
  have hboundary : isBoundary l = false := by
    rw [← Bool.not_eq_true]
    intro hb
    rw [not_isSignature_of_isBoundary hb] at hl
    cases hl
  have hall : ∀ as : List (List Char), (∀ b ∈ as, isBoundary b = false) →
      as.takeWhile (!isBoundary ·) = as := by
    intro as has
    rw [List.takeWhile_eq_self_iff]
    exact fun b hb => by rw [has b hb]; rfl
  have hconcat : ∀ b ∈ lines ++ [l], isBoundary b = false := by
    rw [List.forall_mem_append]
    exact ⟨hlines, by simpa using hboundary⟩
  simp only [signaturesBehind, hall _ hlines, hall _ hconcat, List.filter_append, List.map_append,
    List.filter_singleton, hl, cond_true, List.map_singleton, List.eraseDups_concat]

structure Reads (lines : List (List Char)) (r : Reading) : Prop where
  valid : r.file.table.Valid
  describes : Describes lines r.file
  /-- The open group is that of the last line that opens or closes one. -/
  opened : ∀ hash, r.current = some hash →
    ∃ line behind, IsLast isBoundary lines line behind ∧ opens hash line = true
  closed : r.current = none → ¬ InGroup lines

theorem describes_nil : Describes [] {} where
  hashes := rfl
  listed hash := SignatureTable.get?_eq SignatureTable.valid_empty hash
  groups _ _ _ h := absurd h.mem.1 List.not_mem_nil
  signatures := rfl
  version _ _ h := absurd h.mem.1 List.not_mem_nil
  noVersion _ := rfl

theorem reads_nil : Reads [] {} where
  valid := SignatureTable.valid_empty
  describes := describes_nil
  opened := nofun
  closed _ := by
    rintro ⟨line, behind, h, -⟩
    exact absurd h.mem.1 List.not_mem_nil

section Concat

variable {lines : List (List Char)} {file : SignatureFile} {l : List Char}

theorem Describes.version_concat (h : Describes lines file) (hl : isVersion l = false) :
    (∀ line behind, IsLast isVersion (lines ++ [l]) line behind → file.version = Version.ofLine line) ∧
      ((∀ line ∈ lines ++ [l], isVersion line = false) → file.version = {}) := by
  refine ⟨fun line behind hlast => ?_, fun hnone => ?_⟩
  · obtain ⟨more, -, hmore⟩ := (isLast_concat_of_not hl).1 hlast
    exact h.version line more hmore
  · exact h.noVersion fun line hline => hnone line (List.mem_append_left _ hline)

theorem Describes.groups_concat (h : Describes lines file) (hl : isSignature l = false)
    (hopen : openedHash? l = none) (hash : UInt64) (line : List Char) (behind : List (List Char))
    (hlast : IsLast (opens hash) (lines ++ [l]) line behind) :
    file.table.get? hash = some (signaturesBehind behind) := by
  have hnot : opens hash l = false := by
    rw [opens, hopen]
    rfl
  obtain ⟨more, rfl, hmore⟩ := (isLast_concat_of_not hnot).1 hlast
  rw [signaturesBehind_concat_of_not hl]
  exact h.groups hash line more hmore

theorem filterMap_concat_of_none (hopen : openedHash? l = none) :
    (lines ++ [l]).filterMap openedHash? = lines.filterMap openedHash? := by
  rw [List.filterMap_append, List.filterMap_cons_none hopen, List.filterMap_nil, List.append_nil]

theorem countP_concat_of_not (hl : isSignature l = false) :
    (lines ++ [l]).countP isSignature = lines.countP isSignature := by
  rw [List.countP_append, List.countP_singleton, hl]
  rfl

theorem describes_idle (h : Describes lines file) (hl : isSignature l = false)
    (hopen : openedHash? l = none) (hversion : isVersion l = false) :
    Describes (lines ++ [l]) file where
  hashes := by rw [h.hashes, filterMap_concat_of_none hopen]
  listed := h.listed
  groups := h.groups_concat hl hopen
  signatures := by rw [h.signatures, countP_concat_of_not hl]
  version := (h.version_concat hversion).1
  noVersion := (h.version_concat hversion).2

theorem describes_version (h : Describes lines file) (hl : isSignature l = false)
    (hopen : openedHash? l = none) (hversion : isVersion l = true) :
    Describes (lines ++ [l]) { file with version := Version.ofLine l } where
  hashes := by rw [h.hashes, filterMap_concat_of_none hopen]
  listed := h.listed
  groups := h.groups_concat hl hopen
  signatures := by rw [h.signatures, countP_concat_of_not hl]
  version line behind hlast := by
    rcases isLast_concat.1 hlast with ⟨-, rfl, -⟩ | ⟨hnot, -⟩
    · rfl
    · rw [hversion] at hnot
      cases hnot
  noVersion hnone := by
    have := hnone l (by simp)
    rw [hversion] at this
    cases this

theorem describes_opening (h : Describes lines file) (hvalid : file.table.Valid) {hash : UInt64}
    (hl : openedHash? l = some hash) (hversion : isVersion l = false) :
    Describes (lines ++ [l]) { file with table := file.table.reset hash } := by
  have hopens : opens hash l = true := decide_eq_true hl
  have hsignature : isSignature l = false := not_isSignature_of_isBoundary (isBoundary_of_opens hopens)
  have hreset := SignatureTable.valid_reset hvalid hash
  have hlisted := SignatureTable.get?_eq hreset
  refine ⟨?_, hlisted, fun other line behind hlast => ?_, ?_, (h.version_concat hversion).1,
    (h.version_concat hversion).2⟩
  · rw [List.filterMap_append, List.filterMap_cons_some hl, List.filterMap_nil, List.eraseDups_concat,
      ← h.hashes, SignatureTable.toList_reset hvalid]
    exact SignatureGroups.hashes_update hash _ file.table.toList
  · rw [hlisted, SignatureTable.toList_reset hvalid, SignatureGroups.reset]
    rcases isLast_concat.1 hlast with ⟨hother, rfl, rfl⟩ | ⟨hother, more, rfl, hmore⟩
    · have hsame : some hash = some other := hl.symm.trans (of_decide_eq_true hother)
      rw [← Option.some.inj hsame, SignatureGroups.get?_update_self]
      rfl
    · have hne : other ≠ hash := by
        rintro rfl
        rw [hopens] at hother
        cases hother
      rw [SignatureGroups.get?_update_of_ne hne, ← h.listed, signaturesBehind_concat_of_not hsignature]
      exact h.groups other line more hmore
  · rw [countP_concat_of_not hsignature]
    exact h.signatures

/-- A signature goes to the group that is open, and to no other: where another hash was opened last,
    the opening of this group stands behind it. -/
theorem describes_signature (h : Describes lines file) (hvalid : file.table.Valid) {hash : UInt64}
    {opening : List Char} {inside : List (List Char)} (hopening : IsLast isBoundary lines opening inside)
    (hopens : opens hash opening = true) (hl : isSignature l = true) (hversion : isVersion l = false) :
    Describes (lines ++ [l]) { file with
      table := (file.table.insert hash ⟨typesIn .outside l⟩).1
      signatures := file.signatures + 1 } := by
  have hnone : openedHash? l = none := by
    rw [openedHash?, of_decide_eq_true hl]
  have hnot : ∀ other, opens other l = false := fun other => by rw [opens, hnone]; rfl
  have hinsert := SignatureTable.valid_insert hvalid hash ⟨typesIn .outside l⟩
  have hlisted := SignatureTable.get?_eq hinsert
  have htable : (file.table.insert hash ⟨typesIn .outside l⟩).1.toList =
      (SignatureGroups.insert file.table.toList hash ⟨typesIn .outside l⟩).1 :=
    congrArg Prod.fst (SignatureTable.toList_insert hvalid hash _)
  have hlast : IsLast (opens hash) lines opening inside :=
    hopening.of_subset hopens fun _ => isBoundary_of_opens
  have hgroup := h.groups hash opening inside hlast
  rw [h.listed] at hgroup
  refine ⟨?_, hlisted, fun other line behind hother => ?_, ?_, (h.version_concat hversion).1,
    (h.version_concat hversion).2⟩
  · have hmem : (SignatureGroups.hashes file.table.toList).contains hash = true :=
      List.contains_iff_mem.2 (List.mem_map_of_mem (SignatureGroups.mem_of_get? hgroup))
    rw [htable, filterMap_concat_of_none hnone, ← h.hashes]
    exact (SignatureGroups.hashes_applyChange _ (.insert hash _)).trans (if_pos hmem)
  · obtain ⟨more, rfl, hmore⟩ := (isLast_concat_of_not (hnot other)).1 hother
    rw [hlisted, htable]
    by_cases he : other = hash
    · subst he
      obtain ⟨-, rfl⟩ := hmore.unique hlast
      obtain ⟨before, -, -, hinside⟩ := hopening
      rw [SignatureGroups.get?_insert_self hgroup, signaturesBehind_concat hinside hl]
    · have hbetween : ∃ b ∈ more, isBoundary b = true := by
        by_contra hnone
        obtain ⟨before, hlines, hline, -⟩ := hmore
        have hboundary : IsLast isBoundary lines line more :=
          ⟨before, hlines, isBoundary_of_opens hline, by simpa using hnone⟩
        obtain ⟨rfl, -⟩ := hboundary.unique hopening
        have hsame : some other = some hash :=
          (of_decide_eq_true hline).symm.trans (of_decide_eq_true hopens)
        exact he (Option.some.inj hsame)
      obtain ⟨b, hb, hboundary⟩ := hbetween
      rw [SignatureGroups.get?_insert_of_ne he, ← h.listed,
        signaturesBehind_concat_of_boundary hb hboundary]
      exact h.groups other line more hmore
  · rw [List.countP_append, List.countP_singleton, hl, h.signatures]
    rfl

theorem inGroup_concat (hl : isBoundary l = false) : InGroup (lines ++ [l]) ↔ InGroup lines := by
  constructor
  · rintro ⟨line, behind, hlast, hline⟩
    obtain ⟨more, -, hmore⟩ := (isLast_concat_of_not hl).1 hlast
    exact ⟨line, more, hmore, hline⟩
  · rintro ⟨line, behind, hlast, hline⟩
    exact ⟨line, behind ++ [l], (isLast_concat_of_not hl).2 ⟨behind, rfl, hlast⟩, hline⟩

/-- Where a line neither opens nor closes a group, the open group stays open. -/
theorem Reads.concat {r : Reading} (h : Reads lines r) (hl : isBoundary l = false)
    (hvalid : file.table.Valid) (hfile : Describes (lines ++ [l]) file) :
    Reads (lines ++ [l]) ⟨file, r.current⟩ where
  valid := hvalid
  describes := hfile
  opened hash hcurrent := by
    obtain ⟨line, behind, hlast, hline⟩ := h.opened hash hcurrent
    exact ⟨line, behind ++ [l], (isLast_concat_of_not hl).2 ⟨behind, rfl, hlast⟩, hline⟩
  closed hcurrent := by
    rw [inGroup_concat hl]
    exact h.closed hcurrent

end Concat

section Step

variable {lines : List (List Char)} {r : Reading} {l : List Char}

theorem Reads.opening (h : Reads lines r) (hkind : SignatureLine.ofChars l = .opening)
    {hash : UInt64} (hhash : (hexDigitsIn? l).bind Hash.word? = some hash) (number : Nat) :
    ∃ next, readLine r number l = .ok next ∧ Reads (lines ++ [l]) next := by
  have hopened : openedHash? l = some hash := by rw [openedHash?, hkind]; exact hhash
  have hversion : isVersion l = false := by rw [isVersion, hkind]; rfl
  refine ⟨⟨{ r.file with table := r.file.table.reset hash }, some hash⟩, ?_,
    SignatureTable.valid_reset h.valid hash, describes_opening h.describes h.valid hopened hversion,
    fun other hother => ?_, nofun⟩
  · rw [readLine, hkind]
    simp only [hhash]
  · cases hother
    have hopens : opens hash l = true := decide_eq_true hopened
    exact ⟨l, [], isLast_concat.2 (.inl ⟨isBoundary_of_opens hopens, rfl, rfl⟩), hopens⟩

theorem Reads.closing (h : Reads lines r) (hkind : SignatureLine.ofChars l = .closing) (number : Nat) :
    ∃ next, readLine r number l = .ok next ∧ Reads (lines ++ [l]) next := by
  have hboundary : isBoundary l = true := by rw [isBoundary, hkind]; rfl
  have hopened : openedHash? l = none := by rw [openedHash?, hkind]
  have hversion : isVersion l = false := by rw [isVersion, hkind]; rfl
  refine ⟨{ r with current := none }, readLine_closing hkind r number, h.valid,
    describes_idle h.describes (not_isSignature_of_isBoundary hboundary) hopened hversion, nofun, ?_⟩
  rintro - ⟨line, behind, hlast, hline⟩
  rcases isLast_concat.1 hlast with ⟨-, rfl, -⟩ | ⟨hnot, -⟩
  · rw [hkind] at hline
    cases hline
  · rw [hboundary] at hnot
    cases hnot

theorem Reads.signature (h : Reads lines r) (hkind : SignatureLine.ofChars l = .signature)
    (hinside : InGroup lines) (htypes : HasType l) (number : Nat) :
    ∃ next, readLine r number l = .ok next ∧ Reads (lines ++ [l]) next := by
  have hsignature : isSignature l = true := decide_eq_true hkind
  have hboundary : isBoundary l = false := by rw [isBoundary, hkind]; rfl
  have hversion : isVersion l = false := by rw [isVersion, hkind]; rfl
  have htypes : typesIn .outside l ≠ [] := typesIn_ne_nil_iff.2 htypes
  cases hcurrent : r.current with
  | none => exact absurd hinside (h.closed hcurrent)
  | some hash =>
    obtain ⟨opening, inside, hopening, hopens⟩ := h.opened hash hcurrent
    have hnext := h.concat hboundary (SignatureTable.valid_insert h.valid hash _)
      (describes_signature h.describes h.valid hopening hopens hsignature hversion)
    rw [hcurrent] at hnext
    exact ⟨_, by rw [readLine_typed hkind htypes hcurrent, hcurrent], hnext⟩

theorem Reads.version (h : Reads lines r) (hkind : SignatureLine.ofChars l = .version) (number : Nat) :
    ∃ next, readLine r number l = .ok next ∧ Reads (lines ++ [l]) next := by
  have hsignature : isSignature l = false := by rw [isSignature, hkind]; rfl
  have hboundary : isBoundary l = false := by rw [isBoundary, hkind]; rfl
  have hopened : openedHash? l = none := by rw [openedHash?, hkind]
  refine ⟨⟨{ r.file with version := Version.ofLine l }, r.current⟩, by rw [readLine, hkind], ?_⟩
  exact h.concat hboundary h.valid
    (describes_version h.describes hsignature hopened (decide_eq_true hkind))

theorem Reads.other (h : Reads lines r) (hkind : SignatureLine.ofChars l = .other) (number : Nat) :
    ∃ next, readLine r number l = .ok next ∧ Reads (lines ++ [l]) next := by
  have hsignature : isSignature l = false := by rw [isSignature, hkind]; rfl
  have hboundary : isBoundary l = false := by rw [isBoundary, hkind]; rfl
  have hopened : openedHash? l = none := by rw [openedHash?, hkind]
  have hversion : isVersion l = false := by rw [isVersion, hkind]; rfl
  exact ⟨r, readLine_other hkind r number,
    h.concat hboundary h.valid (describes_idle h.describes hsignature hopened hversion)⟩

theorem Reads.step (h : Reads lines r) (hfault : ∀ e, ¬ Fault lines l e) (number : Nat) :
    ∃ next, readLine r number l = .ok next ∧ Reads (lines ++ [l]) next := by
  cases hkind : SignatureLine.ofChars l with
  | opening =>
    cases hhash : (hexDigitsIn? l).bind Hash.word? with
    | none =>
      refine absurd (Fault.unhashed hkind fun hash hhas => ?_) (hfault _)
      rw [← hash_eq_some_iff, hhash] at hhas
      cases hhas
    | some hash => exact h.opening hkind hhash number
  | signature =>
    by_cases hinside : InGroup lines
    · by_cases htypes : HasType l
      · exact h.signature hkind hinside htypes number
      · exact absurd (.untyped hkind hinside htypes) (hfault _)
    · exact absurd (.orphan hkind hinside) (hfault _)
  | closing => exact h.closing hkind number
  | version => exact h.version hkind number
  | other => exact h.other hkind number

theorem Reads.fault (h : Reads lines r) {e : SignatureFileError} (hfault : Fault lines l e) :
    readLine r (lines.length + 1) l = .error e := by
  cases hfault with
  | orphan hkind houtside =>
    have hcurrent : r.current = none := by
      rw [Option.eq_none_iff_forall_ne_some]
      intro hash hcurrent
      obtain ⟨line, behind, hlast, hopens⟩ := h.opened hash hcurrent
      exact houtside ⟨line, behind, hlast, kind_of_opens hopens⟩
    rw [readLine, hkind]
    dsimp only
    rw [hcurrent]
  | untyped hkind hinside htypes =>
    have htypes : typesIn .outside l = [] := by
      by_contra hne
      exact htypes (typesIn_ne_nil_iff.1 hne)
    cases hcurrent : r.current with
    | none => exact absurd hinside (h.closed hcurrent)
    | some hash =>
      rw [readLine, hkind]
      dsimp only
      rw [hcurrent, htypes]
  | unhashed hkind hnone =>
    have hhash : (hexDigitsIn? l).bind Hash.word? = none := by
      rw [Option.eq_none_iff_forall_ne_some]
      intro hash hhas
      exact hnone hash (hash_eq_some_iff.1 hhas)
    rw [readLine, hkind]
    simp only [hhash]

end Step

theorem readLines_append (r : Reading) (number : Nat) (lines more : List (List Char)) :
    readLines r number (lines ++ more) =
      (readLines r number lines).bind fun next => readLines next (number + lines.length) more := by
  induction lines generalizing r number with
  | nil => rfl
  | cons line lines ih =>
    rw [List.cons_append, readLines, readLines]
    cases readLine r number line with
    | error e => rfl
    | ok next =>
      dsimp only
      rw [ih, List.length_cons, Nat.add_right_comm, Nat.add_assoc]

theorem Faultless.of_append {lines more : List (List Char)} (h : Faultless (lines ++ more)) :
    Faultless lines := by
  rintro before line after rfl e
  exact h before line (after ++ more) (by simp) e

theorem reads_of_faultless {lines : List (List Char)} (h : Faultless lines) :
    ∃ r, readLines {} 1 lines = .ok r ∧ Reads lines r := by
  induction lines using List.reverseRecOn with
  | nil => exact ⟨{}, rfl, reads_nil⟩
  | append_singleton lines l ih =>
    obtain ⟨r, hread, hr⟩ := ih h.of_append
    obtain ⟨next, hline, hnext⟩ := hr.step (h lines l [] rfl) (1 + lines.length)
    refine ⟨next, ?_, hnext⟩
    rw [readLines_append, hread]
    change readLines r (1 + lines.length) [l] = _
    rw [readLines, hline]
    rfl

theorem readLines_of_firstFault {lines : List (List Char)} {e : SignatureFileError}
    (h : FirstFault lines e) : readLines {} 1 lines = .error e := by
  obtain ⟨before, line, after, rfl, hbefore, hfault⟩ := h
  obtain ⟨r, hread, hr⟩ := reads_of_faultless hbefore
  rw [readLines_append, hread]
  change readLines r (1 + before.length) (line :: after) = _
  rw [readLines, Nat.add_comm, hr.fault hfault]

theorem faultless_or_firstFault (lines : List (List Char)) :
    Faultless lines ∨ ∃ e, FirstFault lines e := by
  induction lines using List.reverseRecOn with
  | nil => exact .inl fun before line after h => absurd h (by simp)
  | append_singleton lines l ih =>
    rcases ih with h | ⟨e, before, line, after, rfl, hbefore, hfault⟩
    · by_cases hl : ∃ e, Fault lines l e
      · obtain ⟨e, he⟩ := hl
        exact .inr ⟨e, lines, l, [], rfl, h, he⟩
      · refine .inl fun before line after hlines e hfault => ?_
        rcases List.eq_nil_or_concat after with rfl | ⟨more, last, rfl⟩
        · obtain ⟨rfl, hlast⟩ := List.append_inj' hlines rfl
          cases hlast
          exact hl ⟨e, hfault⟩
        · rw [List.concat_eq_append, ← List.cons_append, ← List.append_assoc] at hlines
          exact h before line more (List.append_inj' hlines rfl).1 e hfault
    · exact .inr ⟨e, before, line, after ++ [l], by simp, hbefore, hfault⟩

/-- A text is read if nothing is wrong in its lines, and then holds what they say; otherwise reading it
fails with the first thing that is wrong. -/
theorem parse_describes (text : String) :
    (Faultless (Text.linesOf text.toList) ↔
      ∃ file, parse text = .ok file ∧ Describes (Text.linesOf text.toList) file) ∧
    ∀ e, parse text = .error e ↔ FirstFault (Text.linesOf text.toList) e := by
  have hok : Faultless (Text.linesOf text.toList) →
      ∃ file, parse text = .ok file ∧ Describes (Text.linesOf text.toList) file := by
    intro h
    obtain ⟨r, hread, hr⟩ := reads_of_faultless h
    exact ⟨r.file, by rw [parse, hread]; rfl, hr.describes⟩
  have herror : ∀ e, FirstFault (Text.linesOf text.toList) e → parse text = .error e := by
    intro e h
    rw [parse, readLines_of_firstFault h]
    rfl
  refine ⟨⟨hok, ?_⟩, fun e => ⟨fun hparse => ?_, herror e⟩⟩
  · rintro ⟨file, hparse, -⟩
    refine (faultless_or_firstFault _).resolve_right ?_
    rintro ⟨e, he⟩
    rw [herror e he] at hparse
    cases hparse
  · rcases faultless_or_firstFault (Text.linesOf text.toList) with h | ⟨e', he⟩
    · obtain ⟨file, hfile, -⟩ := hok h
      rw [hparse] at hfile
      cases hfile
    · have hsame := herror e' he
      rw [hparse] at hsame
      cases hsame
      exact he

end SignatureFile

end NativeCatalogue
