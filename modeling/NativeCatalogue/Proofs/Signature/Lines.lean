import NativeCatalogue.Proofs.Text.Digits
import NativeCatalogue.Proofs.Text.Lines
import NativeCatalogue.Proofs.Text.Runs
import NativeCatalogue.Signature.File

set_option autoImplicit false

namespace NativeCatalogue

namespace Version

theorem wordOf_toDigits (n : UInt32) : wordOf (Nat.toDigits 10 n.toNat) = n := by
  have hdigits : (Nat.toDigits 10 n.toNat).all Char.isDigit = true :=
    List.all_eq_true.2 fun c hc => Text.isDigit_of_mem_toDigits hc
  rw [wordOf, numberOf?, if_pos hdigits, Binary.naturalOf_toDigits]
  exact (if_pos n.toNat_lt).trans UInt32.ofNat_toNat

theorem textChars_eq (v : Version) : v.textChars =
    Nat.toDigits 10 v.major.toNat ++ ',' :: ' ' :: (Nat.toDigits 10 v.minor.toNat ++ ',' :: ' ' ::
      (Nat.toDigits 10 v.build.toNat ++ ',' :: ' ' :: Nat.toDigits 10 v.revision.toNat)) := by
  simp [textChars, toList, List.intercalate]

theorem digitRuns_toDigits (n : Nat) {c : Char} (hc : Text.isDecimalDigit c = false)
    (cs : List Char) :
    Text.digitRuns (Nat.toDigits 10 n ++ c :: cs) = Nat.toDigits 10 n :: Text.digitRuns cs :=
  Text.digitRuns_run (fun _ hd => Text.isDecimalDigit_of_isDigit (Text.isDigit_of_mem_toDigits hd))
    Nat.toDigits_ne_nil hc cs

theorem ofLine_textChars (v : Version) :
    ofLine ("version = \x7b ".toList ++ v.textChars ++ " \x7d".toList) = v := by
  have hruns : Text.digitRuns ("version = \x7b ".toList ++ v.textChars ++ " \x7d".toList) =
      v.toList.map fun n => Nat.toDigits 10 n.toNat := by
    have hcomma : Text.isDecimalDigit ',' = false := by decide
    have hspace : Text.isDecimalDigit ' ' = false := by decide
    have hkey : ∀ c ∈ "version = \x7b ".toList, Text.isDecimalDigit c = false := by
      have hall : "version = \x7b ".toList.all (!Text.isDecimalDigit ·) = true := by decide
      intro c hc
      simpa using List.all_eq_true.1 hall c hc
    rw [List.append_assoc, Text.digitRuns_gap hkey, textChars_eq]
    simp only [List.append_assoc, List.cons_append]
    rw [digitRuns_toDigits _ hcomma, Text.digitRuns_cons hspace, digitRuns_toDigits _ hcomma,
      Text.digitRuns_cons hspace, digitRuns_toDigits _ hcomma, Text.digitRuns_cons hspace]
    exact congrArg _ (congrArg _ (congrArg _ (digitRuns_toDigits _ hspace _)))
  rw [ofLine, hruns, List.map_map]
  simp only [toList, List.map_cons, Function.comp, wordOf_toDigits]
  rfl

end Version

theorem hexDigitsIn?_opening (hash : UInt64) : hexDigitsIn?
    ("[0x".toList ++ Hash.lowerHex hash.toNat ++ "] = \x7b".toList) =
      some (Hash.lowerHex hash.toNat) := by
  have hdigits : ∀ c ∈ Hash.lowerHex hash.toNat, Hash.isDigit c = true :=
    fun c hc => Hash.isDigit_of_mem_lowerHex hc
  have hne : Hash.lowerHex hash.toNat ≠ [] := Nat.toDigits_ne_nil
  generalize Hash.lowerHex hash.toNat = digits at hdigits hne
  cases digits with
  | nil => exact absurd rfl hne
  | cons c digits =>
    have hbracket : ∀ d ∈ "] = \x7b".toList.head?, Hash.isDigit d = false := by
      intro d hd
      cases hd
      rfl
    have htake : (c :: digits ++ "] = \x7b".toList).takeWhile Hash.isDigit = c :: digits :=
      (List.takeWhile_append_of_head (List.all_eq_true.2 hdigits) hbracket).1
    have hhead : (c :: digits ++ "] = \x7b".toList).head?.any Hash.isDigit = true :=
      hdigits c (by simp)
    change hexDigitsIn? ('[' :: '0' :: 'x' :: (c :: digits ++ "] = \x7b".toList)) = _
    rw [hexDigitsIn?, hexDigitsIn?, if_pos (by rw [hhead]; rfl), htake]
    exact fun _ _ he => absurd he (by decide)

/-- Signatures that can be written: there are types, which fit between quotes on a line. -/
structure Signature.IsWritable (s : Signature) : Prop where
  types : s.types ≠ []
  quote : ∀ t ∈ s.types, '"' ∉ t.toList
  newline : ∀ t ∈ s.types, '\n' ∉ t.toList

theorem typesIn_inside {text : List Char} (h : '"' ∉ text) (before rest : List Char) :
    typesIn (.inside before) (text ++ '"' :: rest) =
      .ofList (before.reverse ++ text) :: typesIn .outside rest := by
  induction text generalizing before with
  | nil => rw [List.nil_append, typesIn, if_pos rfl, List.append_nil]
  | cons c text ih =>
    rw [List.mem_cons, not_or] at h
    rw [List.cons_append, typesIn, if_neg fun he => h.1 he.symm, ih h.2, List.reverse_cons,
      List.append_assoc]
    rfl

theorem typesIn_quoted {t : String} (h : '"' ∉ t.toList) (rest : List Char) :
    typesIn .expecting ('"' :: (t.toList ++ '"' :: rest)) = t :: typesIn .outside rest := by
  have hinside := typesIn_inside h [] rest
  rw [List.reverse_nil, List.nil_append, String.ofList_toList] at hinside
  rw [← hinside]
  rfl

theorem typesIn_join {types : List String} (h : ∀ t ∈ types, '"' ∉ t.toList) (hne : types ≠ [])
    (rest : List Char) :
    typesIn .expecting
        (Text.join ", ".toList (types.map fun t => '"' :: t.toList ++ ['"']) ++ rest) =
      types ++ typesIn .outside rest := by
  induction types with
  | nil => exact absurd rfl hne
  | cons t types ih =>
    cases types with
    | nil =>
      have := typesIn_quoted (h t (by simp)) rest
      simpa [Text.join] using this
    | cons u types =>
      have hrest := ih (fun w hw => h w (List.mem_cons_of_mem t hw)) (List.cons_ne_nil u types)
      rw [List.map_cons, Text.join_cons (by simp)]
      simp only [List.append_assoc, List.cons_append, List.nil_append]
      rw [typesIn_quoted (h t (by simp))]
      exact congrArg (t :: ·) hrest

theorem typesIn_textChars {s : Signature} (h : s.IsWritable) :
    typesIn .outside ('\t' :: s.textChars ++ [',']) = s.types := by
  have hjoin := typesIn_join h.quote h.types (" \x7d".toList ++ [','])
  rw [show typesIn .outside (" \x7d".toList ++ [',']) = [] from rfl, List.append_nil] at hjoin
  have hchars : '\t' :: s.textChars ++ [','] = '\t' :: '\x7b' :: ' ' ::
      (Text.join ", ".toList (s.types.map fun t => '"' :: t.toList ++ ['"']) ++
        (" \x7d".toList ++ [','])) := by
    simp [Signature.textChars]
  rw [hchars]
  exact hjoin

namespace SignatureFile

theorem readLine_other {line : List Char} (h : SignatureLine.ofChars line = .other) (r : Reading)
    (number : Nat) : readLine r number line = .ok r := by
  rw [readLine, h]

theorem readLine_version (v : Version) (r : Reading) (number : Nat) :
    readLine r number ("version = \x7b ".toList ++ v.textChars ++ " \x7d".toList) =
      .ok { r with file := { r.file with version := v } } := by
  have hkind : SignatureLine.ofChars ("version = \x7b ".toList ++ v.textChars ++ " \x7d".toList) =
      .version := rfl
  rw [readLine, hkind]
  simp only [Version.ofLine_textChars]

theorem readLine_opening (hash : UInt64) (r : Reading) (number : Nat) :
    readLine r number ("[0x".toList ++ Hash.lowerHex hash.toNat ++ "] = \x7b".toList) =
      .ok { file := { r.file with table := r.file.table.reset hash }, current := some hash } := by
  have hkind : SignatureLine.ofChars
      ("[0x".toList ++ Hash.lowerHex hash.toNat ++ "] = \x7b".toList) = .opening := rfl
  rw [readLine, hkind]
  simp only [hexDigitsIn?_opening, Option.bind_some, Hash.word?_lowerHex]

theorem readLine_typed {line : List Char} (h : SignatureLine.ofChars line = .signature)
    (htypes : typesIn .outside line ≠ []) {r : Reading} {hash : UInt64} (hcurrent : r.current = some hash)
    (number : Nat) :
    readLine r number line =
      .ok { r with file := { r.file with
        table := (r.file.table.insert hash ⟨typesIn .outside line⟩).1
        signatures := r.file.signatures + 1 } } := by
  rw [readLine, h]
  dsimp only
  rw [hcurrent]
  split
  · rename_i he
    cases he
  · rename_i he
    exact absurd he htypes
  · rename_i he _
    cases he
    rfl

theorem readLine_signature {s : Signature} (h : s.IsWritable) (hash : UInt64)
    (file : SignatureFile) (number : Nat) :
    readLine ⟨file, some hash⟩ number ('\t' :: s.textChars ++ [',']) =
      .ok ⟨{ file with
        table := (file.table.insert hash s).1, signatures := file.signatures + 1 }, some hash⟩ := by
  have htypes : typesIn .outside ('\t' :: s.textChars ++ [',']) ≠ [] := by
    rw [typesIn_textChars h]
    exact h.types
  rw [readLine_typed rfl htypes rfl, typesIn_textChars h]

theorem readLine_closing {line : List Char} (h : SignatureLine.ofChars line = .closing) (r : Reading)
    (number : Nat) : readLine r number line = .ok { r with current := none } := by
  rw [readLine, h]

end SignatureFile

theorem isLine_concat (line : List Char) {c : Char} (h : '\n' ∉ line)
    (hc : c ≠ '\n' ∧ c ≠ '\r') : Text.IsLine (line ++ [c]) := by
  refine ⟨?_, ?_⟩
  · simpa [h] using hc.1.symm
  · simpa using hc.2

theorem Hash.newline_not_mem_lowerHex (n : Nat) : '\n' ∉ lowerHex n :=
  fun h => absurd (isDigit_of_mem_lowerHex h) (by decide)

theorem Version.newline_not_mem_textChars (v : Version) : '\n' ∉ v.textChars := by
  have hdigits : ∀ n, '\n' ∉ Nat.toDigits 10 n :=
    fun n h => absurd (Text.isDigit_of_mem_toDigits h) (by decide)
  rw [textChars_eq]
  simp [hdigits]

theorem Text.not_mem_join {c : Char} {separator : List Char} {pieces : List (List Char)}
    (hs : c ∉ separator) (h : ∀ piece ∈ pieces, c ∉ piece) : c ∉ join separator pieces := by
  induction pieces with
  | nil => exact List.not_mem_nil
  | cons piece pieces ih =>
    have hpieces := ih fun q hq => h q (List.mem_cons_of_mem piece hq)
    cases pieces with
    | nil => exact h piece (by simp)
    | cons next pieces =>
      rw [join_cons (List.cons_ne_nil next pieces), List.mem_append, List.mem_append]
      rintro ((hc | hc) | hc)
      · exact h piece (by simp) hc
      · exact hs hc
      · exact hpieces hc

theorem Signature.newline_not_mem_textChars {s : Signature} (h : s.IsWritable) :
    '\n' ∉ s.textChars := by
  have hjoin : '\n' ∉ Text.join ", ".toList (s.types.map fun t => '"' :: t.toList ++ ['"']) := by
    refine Text.not_mem_join (by decide) fun piece hpiece => ?_
    obtain ⟨t, ht, rfl⟩ := List.mem_map.1 hpiece
    simpa using h.newline t ht
  rw [textChars, List.mem_append, List.mem_append, not_or, not_or]
  exact ⟨⟨by decide, hjoin⟩, by decide⟩

namespace SignatureFile

theorem isLine_groupLines {hash : UInt64} {signatures : List Signature}
    (h : ∀ s ∈ signatures, s.IsWritable) : ∀ line ∈ groupLines hash signatures, Text.IsLine line := by
  intro line hline
  rw [groupLines, List.cons_append, List.mem_cons, List.mem_append, List.mem_map,
    List.mem_singleton] at hline
  rcases hline with rfl | ⟨s, hs, rfl⟩ | rfl
  · have hhash : '\n' ∉ "[0x".toList ++ Hash.lowerHex hash.toNat ++ "] = ".toList := by
      simp [Hash.newline_not_mem_lowerHex]
    have hline := isLine_concat _ (c := '\x7b') hhash (by decide)
    rwa [List.append_assoc] at hline
  · have htext : '\n' ∉ '\t' :: s.textChars := by
      simp [Signature.newline_not_mem_textChars (h s hs)]
    exact isLine_concat _ htext (by decide)
  · exact isLine_concat "\x7d".toList (by decide) (by decide)

theorem isLine_linesOf {table : SignatureTable}
    (h : ∀ g ∈ table.toList, ∀ s ∈ g.2, s.IsWritable) (v : Version) :
    ∀ line ∈ linesOf table v, Text.IsLine line := by
  have hversion : Text.IsLine ("version = \x7b ".toList ++ v.textChars ++ " \x7d".toList) := by
    have hline := isLine_concat ("version = \x7b ".toList ++ v.textChars ++ " ".toList)
      (c := '\x7d') (by simp [Version.newline_not_mem_textChars]) (by decide)
    rwa [List.append_assoc] at hline
  have hheader : ∀ line ∈ header.map String.toList,
      '\n' ∉ line ∧ line.getLast? ≠ some '\r' := by
    decide +kernel
  intro line hline
  simp only [linesOf, List.mem_append, List.mem_cons, List.mem_flatMap, List.not_mem_nil,
    or_false] at hline
  rcases hline with ((hline | rfl | rfl) | ⟨g, hg, hline⟩) | rfl
  · obtain ⟨hn, hr⟩ := hheader line hline
    exact ⟨hn, hr⟩
  · exact hversion
  · exact isLine_concat "compatibility = ".toList (by decide) (by decide)
  · exact isLine_groupLines (h g hg) line hline
  · exact isLine_concat [] (by decide) (by decide)

theorem linesOf_render {table : SignatureTable}
    (h : ∀ g ∈ table.toList, ∀ s ∈ g.2, s.IsWritable) (v : Version) :
    Text.linesOf (render table v).toList = linesOf table v := by
  rw [render, String.toList_ofList]
  exact Text.linesOf_flatMap (isLine_linesOf h v)

end SignatureFile

end NativeCatalogue
