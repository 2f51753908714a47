import Mathlib.Data.List.Chain
import NativeCatalogue.Proofs.Run.Regeneration
import NativeCatalogue.Proofs.Version.Request

set_option autoImplicit false

namespace NativeCatalogue

namespace Version

theorem toList_lt_iff {v w : Version} : v.toList < w.toList ↔
    v.major < w.major ∨ v.major = w.major ∧ (v.minor < w.minor ∨ v.minor = w.minor ∧
      (v.build < w.build ∨ v.build = w.build ∧ v.revision < w.revision)) := by
  simp [toList, List.cons_lt_cons_iff]

structure IsDated (major minor : UInt32) (day : Int) (v : Version) : Prop where
  major : v.major = major
  minor : v.minor = minor
  build : (v.build.toNat : Int) = day
  revision : v.revision.toNat ≤ 65534

/-- How the version of a file follows that of the file before, which was made on this day or an earlier
    one. -/
structure Follows (before day : Int) (v w : Version) : Prop where
  build : (w.build.toNat : Int) = day
  reset : day ≠ before → w.revision = 0
  counted : day = before → v.revision.toNat < 65534 → w.revision.toNat = v.revision.toNat + 1
  bounded : v.revision.toNat ≤ 65534
  exhausted : day = before → v.revision.toNat = 65534 → w = v
  ascending : ¬ (day = before ∧ v.revision.toNat = 65534) → v.toList < w.toList

end Version

namespace VersionRequest

open Version

variable {major minor : UInt32} {before day : Int}

theorem build_next (previous : Version) (hpos : 0 ≤ day) (hday : day ≤ 65534) :
    (((dated major minor).next previous day).build.toNat : Int) = day := by
  rw [(isDerived_next major minor previous day).build]
  omega

theorem isDated_next (previous : Version) (hpos : 0 ≤ day) (hday : day ≤ 65534) :
    IsDated major minor day ((dated major minor).next previous day) where
  major := rfl
  minor := rfl
  build := build_next previous hpos hday
  revision := by
    by_cases h : ((dated major minor).next previous day).build = previous.build
    · rw [revision_next_of_eq h]
      exact Nat.min_le_right _ _
    · rw [revision_next_of_ne h]
      decide

theorem follows_next {v : Version} (hv : IsDated major minor before v) (hascending : before ≤ day)
    (hpos : 0 ≤ day) (hday : day ≤ 65534) :
    Follows before day v ((dated major minor).next v day) := by
  have hbuild : (((dated major minor).next v day).build.toNat : Int) = day :=
    build_next v hpos hday
  have hsame : ((dated major minor).next v day).build = v.build ↔ day = before := by
    rw [← UInt32.toNat_inj]
    have := hv.build
    omega
  have hlower : v.major = ((dated major minor).next v day).major ∧
      v.minor = ((dated major minor).next v day).minor := ⟨hv.major, hv.minor⟩
  have hcounted : day = before → v.revision.toNat < 65534 →
      ((dated major minor).next v day).revision.toNat = v.revision.toNat + 1 := by
    intro hd hlt
    rw [revision_next_of_eq (hsame.2 hd)]
    omega
  refine ⟨hbuild, fun hd => revision_next_of_ne fun he => hd (hsame.1 he), hcounted, hv.revision,
    fun hd hmax => ?_, fun hfree => ?_⟩
  · have hrevision : ((dated major minor).next v day).revision = v.revision := by
      rw [← UInt32.toNat_inj, revision_next_of_eq (hsame.2 hd)]
      omega
    obtain ⟨a, b, c, d⟩ := v
    exact Version.mk.injEq .. ▸ ⟨hv.major.symm, hv.minor.symm, hsame.2 hd, hrevision⟩
  · refine toList_lt_iff.2 (.inr ⟨hlower.1, .inr ⟨hlower.2, ?_⟩⟩)
    by_cases hd : day = before
    · refine .inr ⟨(hsame.2 hd).symm, ?_⟩
      rw [UInt32.lt_iff_toNat_lt, hcounted hd (by have := hv.revision; omega)]
      exact Nat.lt_succ_self _
    · refine .inl ?_
      rw [UInt32.lt_iff_toNat_lt]
      have := hv.build
      omega

end VersionRequest

def UpdateOptions.day (o : UpdateOptions) : Int :=
  o.start.daysSince o.today

namespace SignatureUpdate

/-- Updates one after the other, each with its day: every one but the first reads the text that the one
    before it wrote. -/
def updatesFrom (file : SignatureFile) : List (UpdateOptions × List CompiledNative) →
    Except RunError (List (Int × SignatureUpdate))
  | [] => .ok []
  | (o, natives) :: rest => do
    let u ← ofFile o file natives
    let next ← (SignatureFile.parse u.text).mapError .badSignatureFile
    return (o.day, u) :: (← updatesFrom next rest)

theorem ofFile_of_collect {file : SignatureFile} {natives : List CompiledNative}
    {table : SignatureTable} {changes : Nat} (o : UpdateOptions)
    (h : file.table.collect natives = .ok (table, changes)) :
    ∃ u, ofFile o file natives = .ok u ∧ u.table = table ∧
      u.version = o.version.next file.version o.day :=
  ⟨_, bind_eq_ok.2 ⟨_, Except.mapError_eq_ok.2 h, rfl⟩, rfl, rfl⟩

section Chain

variable {major minor : UInt32} {steps : List (UpdateOptions × List CompiledNative)}

theorem updatesFrom_dated {file : SignatureFile} (hfile : file.table.Storable)
    (hversion : ∀ s ∈ steps, s.1.version = .dated major minor)
    (hnatives : ∀ s ∈ steps, ∀ c ∈ s.2, c.HasHash)
    (hdays : ∀ s ∈ steps, 0 ≤ s.1.day ∧ s.1.day ≤ 65534)
    (hascending : (steps.map fun s => s.1.day).Pairwise (· ≤ ·)) :
    ∃ updates, updatesFrom file steps = .ok updates ∧
      updates.map Prod.fst = steps.map (fun s => s.1.day) ∧
      (∀ e ∈ updates.head?, e.2.version = (VersionRequest.dated major minor).next file.version e.1) ∧
      (∀ e ∈ updates, Version.IsDated major minor e.1 e.2.version ∧
        SignatureFile.parse e.2.text = .ok ⟨e.2.table, e.2.version, e.2.table.signatureCount⟩) ∧
      updates.IsChain fun a b => Version.Follows a.1 b.1 a.2.version b.2.version := by
  induction steps generalizing file with
  | nil => exact ⟨[], rfl, rfl, nofun, nofun, .nil⟩
  | cons s steps ih =>
    obtain ⟨o, natives⟩ := s
    rw [List.map_cons, List.pairwise_cons] at hascending
    obtain ⟨hpos, hday⟩ := hdays (o, natives) List.mem_cons_self
    have hcollect := SignatureTable.collect_eq (t := file.table) (hnatives (o, natives) List.mem_cons_self)
    obtain ⟨u, hu, htable, hnext⟩ := ofFile_of_collect o hcollect
    rw [hversion (o, natives) List.mem_cons_self] at hnext
    have hdated : Version.IsDated major minor o.day u.version :=
      hnext ▸ VersionRequest.isDated_next file.version hpos hday
    have hstorable : u.table.Storable := htable ▸ SignatureTable.storable_collect hfile hcollect
    have hread : (SignatureFile.mk u.table u.version u.table.signatureCount).table.Storable :=
      hstorable
    have hparse := SignatureFile.parse_render_of_storable hstorable u.version
    obtain ⟨updates, hupdates, hmap, hhead, hall, hchain⟩ :=
      ih hread
        (fun s hs => hversion s (List.mem_cons_of_mem _ hs))
        (fun s hs => hnatives s (List.mem_cons_of_mem _ hs))
        (fun s hs => hdays s (List.mem_cons_of_mem _ hs)) hascending.2
    refine ⟨(o.day, u) :: updates, ?_, ?_, ?_, ?_, List.isChain_cons.2 ⟨?_, hchain⟩⟩
    · exact bind_eq_ok.2 ⟨u, hu, bind_eq_ok.2 ⟨_, Except.mapError_eq_ok.2 hparse,
        bind_eq_ok.2 ⟨updates, hupdates, rfl⟩⟩⟩
    · rw [List.map_cons, List.map_cons, hmap]
    · intro e he
      cases he
      exact hnext
    · intro e he
      rcases List.mem_cons.1 he with rfl | he
      · exact ⟨hdated, hparse⟩
      · exact hall e he
    · intro e he
      have hmem : e.1 ∈ steps.map fun s => s.1.day := by
        rw [← hmap]
        exact List.mem_map_of_mem (List.mem_of_mem_head? he)
      obtain ⟨t, ht, hlater⟩ := List.mem_map.1 hmem
      obtain ⟨hlaterPos, hlaterDay⟩ := hdays t (List.mem_cons_of_mem _ ht)
      rw [hhead e he]
      rw [hlater] at hlaterPos hlaterDay
      exact VersionRequest.follows_next hdated (hascending.1 e.1 hmem) hlaterPos hlaterDay

/-- In a row of updates on days that never go back, whatever file it starts from, each text is read back and
    each version follows that of the update before. -/
theorem versions_follow {file : SignatureFile} (hfile : file.table.Storable)
    (hversion : ∀ s ∈ steps, s.1.version = .dated major minor)
    (hnatives : ∀ s ∈ steps, ∀ c ∈ s.2, c.HasHash)
    (hdays : ∀ s ∈ steps, 0 ≤ s.1.day ∧ s.1.day ≤ 65534)
    (hascending : (steps.map fun s => s.1.day).Pairwise (· ≤ ·)) :
    ∃ updates, updatesFrom file steps = .ok updates ∧
      updates.map Prod.fst = steps.map (fun s => s.1.day) ∧
      (∀ e ∈ updates, Version.IsDated major minor e.1 e.2.version ∧
        SignatureFile.parse e.2.text = .ok ⟨e.2.table, e.2.version, e.2.table.signatureCount⟩) ∧
      updates.IsChain fun a b => Version.Follows a.1 b.1 a.2.version b.2.version := by
  obtain ⟨updates, hupdates, hmap, -, hall, hchain⟩ :=
    updatesFrom_dated hfile hversion hnatives hdays hascending
  exact ⟨updates, hupdates, hmap, hall, hchain⟩

end Chain

def januaryOptions (day : Nat) : UpdateOptions where
  input := none
  output := none
  version := .dated 2 0
  start := ⟨2023, 1, 1⟩
  today := ⟨2023, 1, day⟩

def januarySteps : List (UpdateOptions × List CompiledNative) :=
  [(januaryOptions 11, [SignatureFile.sampleNative]), (januaryOptions 11, []), (januaryOptions 12, [])]

theorem versions_follow_january :
    (∀ s ∈ januarySteps, s.1.version = .dated 2 0) ∧
      (∀ s ∈ januarySteps, 0 ≤ s.1.day ∧ s.1.day ≤ 65534) ∧
      (januarySteps.map fun s => s.1.day) = [10, 10, 11] ∧
      ∃ a b c, updatesFrom { version := ⟨1, 9, 10, 7⟩ } januarySteps =
          .ok [(10, a), (10, b), (11, c)] ∧
        Version.Follows 10 10 a.version b.version ∧ Version.Follows 10 11 b.version c.version := by
  have hversion : ∀ s ∈ januarySteps, s.1.version = .dated 2 0 := by
    simp [januarySteps, januaryOptions]
  have hdays : (januarySteps.map fun s => s.1.day) = [10, 10, 11] := by decide +kernel
  have hbounds : ∀ s ∈ januarySteps, 0 ≤ s.1.day ∧ s.1.day ≤ 65534 := by
    intro s hs
    have hmem : s.1.day ∈ januarySteps.map fun s => s.1.day := List.mem_map_of_mem hs
    rw [hdays] at hmem
    simp only [List.mem_cons, List.not_mem_nil, or_false] at hmem
    omega
  have hnatives : ∀ s ∈ januarySteps, ∀ c ∈ s.2, c.HasHash := by
    intro s hs c hc
    simp only [januarySteps, List.mem_cons, List.not_mem_nil, or_false] at hs
    rcases hs with rfl | rfl | rfl
    · rw [List.mem_singleton.1 hc]
      exact fun _ => ⟨2, rfl⟩
    · cases hc
    · cases hc
  have hstart : ({ version := ⟨1, 9, 10, 7⟩ } : SignatureFile).table.Storable :=
    SignatureTable.storable_empty
  obtain ⟨updates, hupdates, hmap, -, hchain⟩ :=
    versions_follow hstart hversion hnatives hbounds (by rw [hdays]; decide)
  rw [hdays] at hmap
  obtain ⟨⟨_, a⟩, _, rfl, rfl, hlater⟩ := List.map_eq_cons_iff.1 hmap
  obtain ⟨⟨_, b⟩, _, rfl, rfl, hlast⟩ := List.map_eq_cons_iff.1 hlater
  obtain ⟨⟨_, c⟩, _, rfl, rfl, hnone⟩ := List.map_eq_cons_iff.1 hlast
  cases List.map_eq_nil_iff.1 hnone
  rw [List.isChain_cons_cons, List.isChain_cons_cons] at hchain
  exact ⟨hversion, hbounds, hdays, a, b, c, hupdates, hchain.1, hchain.2.1⟩

end SignatureUpdate

end NativeCatalogue
