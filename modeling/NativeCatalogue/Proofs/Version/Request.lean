import Mathlib.Data.List.Induction
import Mathlib.Data.Nat.Digits.Defs
import NativeCatalogue.Proofs.Basic
import NativeCatalogue.Proofs.Text.Runs
import NativeCatalogue.Version.Basic

set_option autoImplicit false

namespace NativeCatalogue

namespace Version

open Binary

def Denotes (digits : List Char) (n : Nat) : Prop :=
  ∃ values : List Nat, (∀ k ∈ values, k < 10) ∧ digits = values.map Nat.digitChar ∧
    Nat.ofDigits 10 values.reverse = n

theorem toNat_digitChar {k : Nat} (h : k < 10) : (Nat.digitChar k).toNat = 48 + k := by
  have all : ∀ k : Fin 10, (Nat.digitChar k).toNat = 48 + k.val := by decide
  exact all ⟨k, h⟩

theorem digitValue_digitChar {k : Nat} (h : k < 10) : digitValue (Nat.digitChar k) = k := by
  rw [digitValue, toNat_digitChar h]
  exact Nat.add_sub_cancel_left 48 k

theorem digitChar_digitValue {c : Char} (h : c.isDigit = true) :
    digitValue c < 10 ∧ Nat.digitChar (digitValue c) = c := by
  have hrange := Text.isDigit_iff.1 h
  have hvalue : digitValue c = c.toNat - 48 := rfl
  have hlt : digitValue c < 10 := by omega
  refine ⟨hlt, Char.toNat_inj.1 ?_⟩
  rw [toNat_digitChar hlt]
  omega

theorem naturalOf_map_digitChar {values : List Nat} (h : ∀ k ∈ values, k < 10) :
    naturalOf (values.map Nat.digitChar) = Nat.ofDigits 10 values.reverse := by
  induction values using List.reverseRecOn with
  | nil => rfl
  | append_singleton values k ih =>
    have hk : k < 10 := h k (List.mem_append_right values (List.mem_singleton_self k))
    rw [naturalOf, List.map_append, List.foldl_append, ← naturalOf,
      ih fun j hj => h j (List.mem_append_left [k] hj), List.reverse_concat, Nat.ofDigits_cons]
    change Nat.ofDigits 10 values.reverse * 10 + digitValue (Nat.digitChar k) = _
    rw [digitValue_digitChar hk, Nat.mul_comm, Nat.add_comm]

theorem numberOf?_eq_some_iff {digits : List Char} {n : Nat} :
    numberOf? digits = some n ↔ Denotes digits n := by
  rw [numberOf?]
  constructor
  · intro h
    split at h
    · rename_i hdigits
      have hdigits := List.all_eq_true.1 hdigits
      have hvalues : digits = (digits.map digitValue).map Nat.digitChar := by
        rw [List.map_map]
        exact (List.map_congr_left fun c hc => (digitChar_digitValue (hdigits c hc)).2).trans
          (List.map_id digits) |>.symm
      have hlt : ∀ k ∈ digits.map digitValue, k < 10 := by
        intro k hk
        obtain ⟨c, hc, rfl⟩ := List.mem_map.1 hk
        exact (digitChar_digitValue (hdigits c hc)).1
      refine ⟨digits.map digitValue, hlt, hvalues, ?_⟩
      rw [← naturalOf_map_digitChar hlt, ← hvalues]
      exact Option.some.inj h
    · cases h
  · rintro ⟨values, hlt, rfl, rfl⟩
    rw [if_pos, naturalOf_map_digitChar hlt]
    refine List.all_eq_true.2 fun c hc => ?_
    obtain ⟨k, hk, rfl⟩ := List.mem_map.1 hc
    have := hlt k hk
    rw [Text.isDigit_iff, toNat_digitChar this]
    omega

end Version

namespace VersionRequest

open Version

def numbers : VersionRequest → List UInt32
  | dated major minor => [major, minor]
  | pinned v => v.toList

def HasCount {α : Type} (numbers : List α) : Prop :=
  numbers.length = 2 ∨ numbers.length = 4

theorem inRange?_eq_some_iff {digits : List Char} {word : UInt32} :
    inRange? digits = some word ↔ Denotes digits word.toNat ∧ word.toNat < limit := by
  rw [← numberOf?_eq_some_iff, inRange?]
  constructor
  · intro h
    split at h
    · rename_i n hn
      split at h
      · rename_i hlt
        have hword : word.toNat = n := by
          rw [← Option.some.inj h]
          exact UInt32.toNat_ofNat_of_lt' (Nat.lt_trans hlt (by decide))
        rw [hn, hword]
        exact ⟨rfl, hlt⟩
      · cases h
    · cases h
  · rintro ⟨hn, hlt⟩
    rw [hn]
    exact (if_pos hlt).trans (congrArg some UInt32.ofNat_toNat)

theorem inRange?_eq_none_iff {digits : List Char} :
    inRange? digits = none ↔ ¬ ∃ n < limit, Denotes digits n := by
  rw [Option.eq_none_iff_forall_ne_some]
  constructor
  · rintro h ⟨n, hlt, hn⟩
    have hword : (UInt32.ofNat n).toNat = n :=
      UInt32.toNat_ofNat_of_lt' (Nat.lt_trans hlt (by decide))
    exact h (.ofNat n) (inRange?_eq_some_iff.2 (by rw [hword]; exact ⟨hn, hlt⟩))
  · intro h word hword
    obtain ⟨hn, hlt⟩ := inRange?_eq_some_iff.1 hword
    exact h ⟨word.toNat, hlt, hn⟩

theorem hasCount_numbers (request : VersionRequest) : HasCount request.numbers := by
  cases request with
  | dated major minor => exact .inl rfl
  | pinned v => exact .inr rfl

theorem exists_numbers_eq {words : List UInt32} (h : HasCount words) :
    ∃ request, numbers request = words := by
  match words, h with
  | [major, minor], .inl _ => exact ⟨.dated major minor, rfl⟩
  | [a, b, c, d], .inr _ => exact ⟨.pinned ⟨a, b, c, d⟩, rfl⟩

section Parse

variable {text : String} {runs : List (List Char)}

theorem hasCount_iff {α : Type} {xs : List α} :
    HasCount xs ↔ (xs.length ≠ 2 && xs.length ≠ 4) = false := by
  rw [HasCount, Bool.and_eq_false_iff, decide_eq_false_iff_not, decide_eq_false_iff_not,
    Decidable.not_not, Decidable.not_not]

theorem parse_of_count (hruns : Text.digitRuns text.toList = runs) (h : ¬ HasCount runs) :
    parse text = .error (.wrongCount text) := by
  rw [parse, hruns]
  exact if_pos (Bool.of_not_eq_false (mt hasCount_iff.2 h))

theorem parse_of_mapM_eq_some (hruns : Text.digitRuns text.toList = runs) {request : VersionRequest}
    (h : runs.mapM inRange? = some request.numbers) : parse text = .ok request := by
  have hcount : HasCount runs := by
    have hlength := (List.mapM_eq_some_iff_forall₂.1 h).length_eq
    have hnumbers := hasCount_numbers request
    rwa [HasCount, ← hlength] at hnumbers
  rw [parse, hruns]
  refine (if_neg (Bool.not_eq_true _ ▸ hasCount_iff.1 hcount)).trans ?_
  rw [h]
  cases request <;> rfl

theorem parse_of_mapM_eq_none (hruns : Text.digitRuns text.toList = runs) (hcount : HasCount runs)
    (h : runs.mapM inRange? = none) : parse text = .error (.outOfRange text) := by
  rw [parse, hruns]
  refine (if_neg (Bool.not_eq_true _ ▸ hasCount_iff.1 hcount)).trans ?_
  rw [h]

theorem parse_cases (hruns : Text.digitRuns text.toList = runs) :
    (¬ HasCount runs ∧ parse text = .error (.wrongCount text)) ∨
      (HasCount runs ∧ runs.mapM inRange? = none ∧ parse text = .error (.outOfRange text)) ∨
      ∃ request, HasCount runs ∧ runs.mapM inRange? = some (numbers request) ∧
        parse text = .ok request := by
  by_cases hcount : HasCount runs
  · cases hwords : runs.mapM inRange? with
    | none => exact .inr (.inl ⟨hcount, rfl, parse_of_mapM_eq_none hruns hcount hwords⟩)
    | some words =>
      have hlength := (List.mapM_eq_some_iff_forall₂.1 hwords).length_eq
      have hwordCount : HasCount words := by rwa [HasCount, ← hlength]
      obtain ⟨request, rfl⟩ := exists_numbers_eq hwordCount
      exact .inr (.inr ⟨request, hcount, rfl, parse_of_mapM_eq_some hruns hwords⟩)
  · exact .inl ⟨hcount, parse_of_count hruns hcount⟩

theorem mapM_of_parse (hruns : Text.digitRuns text.toList = runs) {request : VersionRequest}
    (h : parse text = .ok request) : HasCount runs ∧ runs.mapM inRange? = some request.numbers := by
  rcases parse_cases hruns with ⟨-, hparse⟩ | ⟨-, -, hparse⟩ | ⟨other, hcount, hwords, hparse⟩
  · rw [hparse] at h
    cases h
  · rw [hparse] at h
    cases h
  · rw [hparse] at h
    cases h
    exact ⟨hcount, hwords⟩

theorem exists_parse_iff (hruns : Text.digitRuns text.toList = runs) :
    (∃ request, parse text = .ok request) ↔
      HasCount runs ∧ ∀ run ∈ runs, ∃ n < limit, Denotes run n := by
  constructor
  · rintro ⟨request, h⟩
    obtain ⟨hcount, hwords⟩ := mapM_of_parse hruns h
    refine ⟨hcount, fun run hrun => not_not.1 fun hrange => ?_⟩
    rw [List.mapM_eq_none_iff.2 ⟨run, hrun, inRange?_eq_none_iff.2 hrange⟩] at hwords
    cases hwords
  · rintro ⟨hcount, hrange⟩
    rcases parse_cases hruns with ⟨hwrong, -⟩ | ⟨-, hnone, -⟩ | ⟨request, -, -, h⟩
    · exact absurd hcount hwrong
    · obtain ⟨run, hrun, hout⟩ := List.mapM_eq_none_iff.1 hnone
      exact absurd (hrange run hrun) (inRange?_eq_none_iff.1 hout)
    · exact ⟨request, h⟩

theorem parse_eq_wrongCount_iff (hruns : Text.digitRuns text.toList = runs) :
    parse text = .error (.wrongCount text) ↔ ¬ HasCount runs := by
  constructor
  · intro h hcount
    rcases parse_cases hruns with ⟨hwrong, -⟩ | ⟨-, -, hparse⟩ | ⟨request, -, -, hparse⟩
    · exact hwrong hcount
    · rw [hparse] at h
      cases h
    · rw [hparse] at h
      cases h
  · exact parse_of_count hruns

theorem parse_eq_outOfRange_iff (hruns : Text.digitRuns text.toList = runs) :
    parse text = .error (.outOfRange text) ↔
      HasCount runs ∧ ∃ run ∈ runs, ¬ ∃ n < limit, Denotes run n := by
  have hnone : runs.mapM inRange? = none ↔ ∃ run ∈ runs, ¬ ∃ n < limit, Denotes run n := by
    simp only [List.mapM_eq_none_iff, inRange?_eq_none_iff]
  rw [← hnone]
  constructor
  · intro h
    rcases parse_cases hruns with ⟨-, hparse⟩ | ⟨hcount, hwords, -⟩ | ⟨request, -, -, hparse⟩
    · rw [hparse] at h
      cases h
    · exact ⟨hcount, hwords⟩
    · rw [hparse] at h
      cases h
  · rintro ⟨hcount, hwords⟩
    exact parse_of_mapM_eq_none hruns hcount hwords

theorem denotes_of_parse (hruns : Text.digitRuns text.toList = runs) {request : VersionRequest}
    (h : parse text = .ok request) :
    List.Forall₂ Denotes runs (request.numbers.map UInt32.toNat) ∧
      ∀ n ∈ request.numbers, n.toNat < limit := by
  have hwords : List.Forall₂ (fun word run => word.toNat < limit ∧ Denotes run word.toNat)
      request.numbers runs :=
    (List.mapM_eq_some_iff_forall₂.1 (mapM_of_parse hruns h).2).flip.imp
      fun _ _ hword => (inRange?_eq_some_iff.1 hword).symm
  obtain ⟨hlt, hdenotes⟩ := (List.forall₂_and_left _ _).1 hwords
  exact ⟨List.forall₂_map_right_iff.2 hdenotes.flip, hlt⟩

end Parse

/-- The version that follows a previous one so many days after the first, in numbers without bounds: the
    days are cut off at both ends, the revisions at the upper one. -/
structure IsDerived (major minor : UInt32) (previous : Version) (days : Int) (v : Version) : Prop where
  major : v.major = major
  minor : v.minor = minor
  build : (v.build.toNat : Int) = max 0 (min days 65534)
  counted : v.build = previous.build → v.revision.toNat = min (previous.revision.toNat + 1) 65534
  reset : v.build ≠ previous.build → v.revision = 0

variable {major minor : UInt32} {previous : Version} {days : Int}

theorem toNat_build_next :
    ((dated major minor).next previous days).build.toNat = min days.toNat (limit - 1) := by
  have hlt : min days.toNat (limit - 1) < UInt32.size := by
    unfold limit UInt32.size
    omega
  exact UInt32.toNat_ofNat_of_lt' hlt

theorem revision_next_of_ne (h : ((dated major minor).next previous days).build ≠ previous.build) :
    ((dated major minor).next previous days).revision = 0 :=
  if_neg h

theorem revision_next_of_eq (h : ((dated major minor).next previous days).build = previous.build) :
    ((dated major minor).next previous days).revision.toNat =
      min (previous.revision.toNat + 1) 65534 := by
  have hrevision : ((dated major minor).next previous days).revision =
      .ofNat (min (previous.revision.toNat + 1) (limit - 1)) := if_pos h
  have hlt : min (previous.revision.toNat + 1) (limit - 1) < UInt32.size := by
    unfold limit UInt32.size
    omega
  rw [hrevision, UInt32.toNat_ofNat_of_lt' hlt]
  rfl

theorem isDerived_next (major minor : UInt32) (previous : Version) (days : Int) :
    IsDerived major minor previous days ((dated major minor).next previous days) where
  major := rfl
  minor := rfl
  build := by
    rw [toNat_build_next]
    unfold limit
    omega
  counted := revision_next_of_eq
  reset := revision_next_of_ne

theorem IsDerived.lt_limit {v : Version} (h : IsDerived major minor previous days v)
    (hmajor : major.toNat < limit) (hminor : minor.toNat < limit) :
    ∀ n ∈ v.toList, n.toNat < limit := by
  have hbuild : v.build.toNat < limit := by
    have := h.build
    unfold limit
    omega
  have hrevision : v.revision.toNat < limit := by
    by_cases he : v.build = previous.build
    · have := h.counted he
      unfold limit
      omega
    · rw [h.reset he]
      decide
  intro n hn
  simp only [toList, List.mem_cons, List.not_mem_nil, or_false] at hn
  rcases hn with rfl | rfl | rfl | rfl
  · rwa [h.major]
  · rwa [h.minor]
  · exact hbuild
  · exact hrevision

theorem next_lt_limit {request : VersionRequest} (h : ∀ n ∈ request.numbers, n.toNat < limit)
    (previous : Version) (days : Int) : ∀ n ∈ (request.next previous days).toList, n.toNat < limit := by
  cases request with
  | pinned v => exact h
  | dated major minor =>
    exact (isDerived_next major minor previous days).lt_limit (h major (by simp [numbers]))
      (h minor (by simp [numbers]))

/-- A text has one row of runs of digits. It is a request exactly if these are two or four and each denotes a
    number below the limit; a wrong count is found first. The numbers of a request are those of the text, and
    the version that follows any other by it has the numbers of unbounded arithmetic, all of them below the
    limit. -/
theorem parse_next_in_range (text : String) :
    ∃ runs, Text.AreDigitRuns text.toList runs ∧
      (∀ others, Text.AreDigitRuns text.toList others → others = runs) ∧
      ((∃ request, parse text = .ok request) ↔
        HasCount runs ∧ ∀ run ∈ runs, ∃ n < limit, Denotes run n) ∧
      (parse text = .error (.wrongCount text) ↔ ¬ HasCount runs) ∧
      (parse text = .error (.outOfRange text) ↔
        HasCount runs ∧ ∃ run ∈ runs, ¬ ∃ n < limit, Denotes run n) ∧
      ∀ request, parse text = .ok request →
        List.Forall₂ Denotes runs (request.numbers.map UInt32.toNat) ∧
        ∀ (previous : Version) (days : Int),
          (∀ n ∈ (request.next previous days).toList, n.toNat < limit) ∧
          (∀ v, request = .pinned v → request.next previous days = v) ∧
          ∀ major minor, request = .dated major minor →
            IsDerived major minor previous days (request.next previous days) := by
  have hruns : Text.digitRuns text.toList = Text.digitRuns text.toList := rfl
  refine ⟨Text.digitRuns text.toList, Text.areDigitRuns_digitRuns _, fun _ h => h.eq_digitRuns,
    exists_parse_iff hruns, parse_eq_wrongCount_iff hruns, parse_eq_outOfRange_iff hruns,
    fun request h => ?_⟩
  obtain ⟨hnumbers, hlt⟩ := denotes_of_parse hruns h
  refine ⟨hnumbers, fun previous days => ⟨next_lt_limit hlt previous days, ?_, ?_⟩⟩
  · rintro v rfl
    rfl
  · rintro major minor rfl
    exact isDerived_next major minor previous days

theorem parse_next_in_range_saturated :
    parse "2.00065534" = .ok (.dated 2 65534) ∧
      (∀ n ∈ ((dated 2 65534).next ⟨9, 9, 0, 4294967295⟩ (-5)).toList, n.toNat < limit) ∧
      ((dated 2 65534).next ⟨9, 9, 0, 4294967295⟩ (-5)).revision.toNat = 65534 := by
  have hparse : parse "2.00065534" = .ok (.dated 2 65534) := by decide +kernel
  obtain ⟨runs, -, -, -, -, -, hrequest⟩ := parse_next_in_range "2.00065534"
  obtain ⟨hlt, -, hderived⟩ := (hrequest _ hparse).2 ⟨9, 9, 0, 4294967295⟩ (-5)
  exact ⟨hparse, hlt, (hderived 2 65534 rfl).counted (by decide)⟩

example : parse "2.٣" = .error (.outOfRange "2.٣") := by decide +kernel

end VersionRequest

end NativeCatalogue
