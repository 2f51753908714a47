import NativeCatalogue.Proofs.Signature.Storable

set_option autoImplicit false

namespace NativeCatalogue

open SignatureTable

namespace SignatureGroups

theorem insert_last {groups : SignatureGroups} {hash : UInt64} {done : List Signature}
    {s : Signature} (hhash : hash ∉ hashes groups) (hs : s ∉ done) :
    insert (groups ++ [(hash, done)]) hash s = (groups ++ [(hash, done ++ [s])], true) := by
  have hopened : groups ++ [(hash, done)] = update hash (fun _ => done) groups :=
    (update_of_not_mem (f := fun _ => done) hhash).symm
  rw [hopened, insert, get?_update_self, Option.getD_some, if_neg (by simpa using hs), update_update,
    update_of_not_mem hhash]

end SignatureGroups

namespace SignatureFile

theorem readLines_cons {r next : Reading} {number : Nat} {line : List Char}
    (h : readLine r number line = .ok next) (rest : List (List Char)) :
    readLines r number (line :: rest) = readLines next (number + 1) rest := by
  rw [readLines, h]

theorem readLines_signatures (file : SignatureFile) {signatures done : List Signature}
    {groups : SignatureGroups} {hash : UInt64} (h : file.table.Valid)
    (hgroups : file.table.toList = groups ++ [(hash, done)])
    (hhash : hash ∉ SignatureGroups.hashes groups) (hnodup : (done ++ signatures).Nodup)
    (hwritable : ∀ s ∈ signatures, s.IsWritable) (number : Nat) (rest : List (List Char)) :
    ∃ table next, table.Valid ∧ table.toList = groups ++ [(hash, done ++ signatures)] ∧
      readLines ⟨file, some hash⟩ number
          (signatures.map (fun s => '\t' :: s.textChars ++ [',']) ++ rest) =
        readLines ⟨⟨table, file.version, file.signatures + signatures.length⟩, some hash⟩ next rest := by
  induction signatures generalizing done file number with
  | nil =>
    rw [List.append_nil]
    exact ⟨file.table, number, h, hgroups, rfl⟩
  | cons s signatures ih =>
    have hs : s ∉ done := fun hmem =>
      (List.nodup_append.1 hnodup).2.2 s hmem s (by simp) rfl
    have hinsert := toList_insert h hash s
    rw [hgroups, SignatureGroups.insert_last hhash hs] at hinsert
    have hnodup : (done ++ [s] ++ signatures).Nodup := by
      rw [List.append_assoc]
      exact hnodup
    obtain ⟨table, next, hvalid, htable, hread⟩ :=
      ih ⟨(file.table.insert hash s).1, file.version, file.signatures + 1⟩
        (valid_insert h hash s) (congrArg Prod.fst hinsert) hnodup
        (fun r hr => hwritable r (List.mem_cons_of_mem s hr)) (number + 1)
    refine ⟨table, next, hvalid, by rw [htable, List.append_assoc]; rfl, ?_⟩
    rw [List.map_cons, List.cons_append, readLines_cons (readLine_signature (hwritable s (by simp)) ..),
      List.length_cons, Nat.add_comm signatures.length 1, ← Nat.add_assoc]
    exact hread

theorem readLines_group {hash : UInt64} {signatures : List Signature} {file : SignatureFile}
    (h : file.table.Valid) (hhash : hash ∉ SignatureGroups.hashes file.table.toList)
    (hnodup : signatures.Nodup) (hwritable : ∀ s ∈ signatures, s.IsWritable)
    (current : Option UInt64) (number : Nat) (rest : List (List Char)) :
    ∃ table next, table.Valid ∧ table.toList = file.table.toList ++ [(hash, signatures)] ∧
      readLines ⟨file, current⟩ number (groupLines hash signatures ++ rest) =
        readLines ⟨⟨table, file.version, file.signatures + signatures.length⟩, none⟩ next rest := by
  have hopened : (file.table.reset hash).toList = file.table.toList ++ [(hash, [])] := by
    rw [toList_reset h]
    exact SignatureGroups.update_of_not_mem hhash
  obtain ⟨table, next, hvalid, htable, hread⟩ := readLines_signatures
    { file with table := file.table.reset hash } (valid_reset h hash) hopened hhash
    hnodup hwritable (number + 1) ("\x7d,".toList :: rest)
  refine ⟨table, next + 1, hvalid, htable, ?_⟩
  rw [groupLines, List.cons_append, List.cons_append, readLines_cons (readLine_opening ..),
    List.append_assoc]
  exact hread.trans (readLines_cons (readLine_closing rfl ..) rest)

theorem readLines_groups (file : SignatureFile) {groups : SignatureGroups} (h : file.table.Valid)
    (hhashes : (SignatureGroups.hashes (file.table.toList ++ groups)).Nodup)
    (hnodup : ∀ g ∈ groups, g.2.Nodup) (hwritable : ∀ g ∈ groups, ∀ s ∈ g.2, s.IsWritable)
    (number : Nat) (rest : List (List Char)) :
    ∃ table next, table.Valid ∧ table.toList = file.table.toList ++ groups ∧
      readLines ⟨file, none⟩ number
          (groups.flatMap (fun (hash, signatures) => groupLines hash signatures) ++ rest) =
        readLines ⟨⟨table, file.version,
          file.signatures + SignatureGroups.signatureCount groups⟩, none⟩ next rest := by
  induction groups generalizing file number with
  | nil => exact ⟨file.table, number, h, by rw [List.append_nil], rfl⟩
  | cons g groups ih =>
    obtain ⟨hash, signatures⟩ := g
    have hhash : hash ∉ SignatureGroups.hashes file.table.toList := by
      rw [SignatureGroups.hashes_append] at hhashes
      exact fun hmem => (List.nodup_append.1 hhashes).2.2 hash hmem hash (by simp) rfl
    obtain ⟨between, middle, hbetween, hgroups, hread⟩ := readLines_group h hhash
      (hnodup _ List.mem_cons_self) (hwritable _ List.mem_cons_self) none number
      (groups.flatMap (fun (hash, signatures) => groupLines hash signatures) ++ rest)
    obtain ⟨table, next, hvalid, htable, hmore⟩ :=
      ih ⟨between, file.version, file.signatures + signatures.length⟩ hbetween
        (by rw [hgroups, List.append_assoc]; exact hhashes)
        (fun g hg => hnodup g (List.mem_cons_of_mem _ hg))
        (fun g hg => hwritable g (List.mem_cons_of_mem _ hg)) middle
    refine ⟨table, next, hvalid, by rw [htable, hgroups, List.append_assoc]; rfl, ?_⟩
    rw [List.flatMap_cons, List.append_assoc]
    refine hread.trans (hmore.trans ?_)
    rw [Nat.add_assoc]
    rfl

theorem parse_render_of_storable {table : SignatureTable} (h : table.Storable) (v : Version) :
    parse (render table v) = .ok ⟨table, v, table.signatureCount⟩ := by
  have hheader : ∀ rest, readLines {} 1 (header.map String.toList ++ rest) = readLines {} 4 rest := by
    intro rest
    have hother : ∀ line ∈ header.map String.toList, SignatureLine.ofChars line = .other := by
      decide +kernel
    simp only [header, List.map_cons, List.map_nil, List.cons_append, List.nil_append] at hother ⊢
    rw [readLines_cons (readLine_other (hother _ (by simp)) ..),
      readLines_cons (readLine_other (hother _ (by simp)) ..),
      readLines_cons (readLine_other (hother _ (by simp)) ..)]
  obtain ⟨read, next, hvalid, hgroups, hread⟩ := readLines_groups { version := v } valid_empty
    h.hashes h.signatures h.writable 6 ["\x7d".toList]
  have hsame : read = table := hvalid.ext h.toValid hgroups
  have hlines : readLines {} 1 (linesOf table v) =
      .ok ⟨⟨table, v, table.signatureCount⟩, none⟩ := by
    rw [linesOf, List.append_assoc, List.append_assoc, hheader, List.cons_append,
      readLines_cons (readLine_version ..), List.cons_append, readLines_cons (readLine_other rfl ..)]
    refine hread.trans ?_
    rw [hsame, readLines_cons (readLine_closing rfl ..), readLines, Nat.zero_add]
    rfl
  rw [parse, linesOf_render h.writable, hlines]
  rfl

/-- What is written is read back: every table that changes lead to, and in particular every table that
was read and then had the signatures of natives added to it. -/
theorem parse_render :
    (∀ (changes : List Change) (v : Version),
      (∀ hash s, Change.insert hash s ∈ changes → s.IsWritable) →
        parse (render (ofChanges changes) v) =
          .ok ⟨ofChanges changes, v, (ofChanges changes).signatureCount⟩) ∧
    ∀ (text : String) (file : SignatureFile) (natives : List CompiledNative)
      (table : SignatureTable) (added : Nat) (v : Version), parse text = .ok file →
        file.table.collect natives = .ok (table, added) →
          parse (render table v) = .ok ⟨table, v, table.signatureCount⟩ := by
  refine ⟨fun changes v h => ?_, fun text file natives table added v hparse hcollect => ?_⟩
  · exact parse_render_of_storable (storable_foldl storable_empty h) v
  · exact parse_render_of_storable (storable_collect (storable_parse hparse) hcollect) v

def sampleChanges : List Change :=
  [.insert 5 ⟨["void"]⟩, .reset 5, .reset 1, .insert 5 ⟨["\x7d, [0x1", "version"]⟩]

def sampleNative : CompiledNative :=
  ⟨{ parameters := [], results := "void", description := "", examples := [], hash := "0x2",
     manualHash := true }, ⟨"WAIT", .named "void", [], ∅⟩⟩

theorem parse_render_sample :
    let v : Version := ⟨2, 0, 4294967295, 3⟩
    let table := (((∅ : SignatureTable).reset 1).insert 2 ⟨["void"]⟩).1
    parse (render (ofChanges sampleChanges) v) =
        .ok ⟨ofChanges sampleChanges, v, (ofChanges sampleChanges).signatureCount⟩ ∧
      parse "[0x1] = \x7b" = .ok ⟨(∅ : SignatureTable).reset 1, {}, 0⟩ ∧
      ((∅ : SignatureTable).reset 1).collect [sampleNative] = .ok (table, 1) ∧
      parse (render table v) = .ok ⟨table, v, table.signatureCount⟩ := by
  have hwritable : ∀ hash s, Change.insert hash s ∈ sampleChanges → s.IsWritable := by
    intro hash s hmem
    have hs : s = ⟨["void"]⟩ ∨ s = ⟨["\x7d, [0x1", "version"]⟩ := by
      simp only [sampleChanges, List.mem_cons, Change.insert.injEq, reduceCtorEq, List.not_mem_nil,
        or_false, false_or] at hmem
      exact hmem.imp And.right And.right
    rcases hs with rfl | rfl
    · exact ⟨by decide, by decide, by decide⟩
    · exact ⟨by decide, by decide, by decide⟩
  have hparse : parse "[0x1] = \x7b" = .ok ⟨(∅ : SignatureTable).reset 1, {}, 0⟩ := rfl
  have hadded : (((∅ : SignatureTable).reset 1).insert 2 ⟨["void"]⟩).2 = true := by
    have hinsert := toList_insert (valid_reset valid_empty 1) 2 ⟨["void"]⟩
    rw [toList_reset valid_empty] at hinsert
    exact congrArg Prod.snd hinsert
  have hcollect : ((∅ : SignatureTable).reset 1).collect [sampleNative] =
      .ok ((((∅ : SignatureTable).reset 1).insert 2 ⟨["void"]⟩).1, 1) := by
    change Except.ok (_, if (((∅ : SignatureTable).reset 1).insert 2 ⟨["void"]⟩).2 then 1 else 0) = _
    rw [hadded]
    rfl
  exact ⟨parse_render.1 sampleChanges _ hwritable, hparse, hcollect,
    parse_render.2 _ _ [sampleNative] _ 1 _ hparse hcollect⟩

end SignatureFile

end NativeCatalogue
