import NativeCatalogue.Proofs.Compilation.Document
import NativeCatalogue.Proofs.Compilation.ParameterDocs
import NativeCatalogue.Proofs.Document.ItemLines
import NativeCatalogue.Proofs.Document.Marks
import NativeCatalogue.Proofs.Document.Sections
import NativeCatalogue.Proofs.Document.Strong
import NativeCatalogue.Proofs.Prototype.WellFormed

/-!
Parameters described in one line of their list. The text behind the name and its colon, without the blanks
at its ends, is the description of the parameter; but where nothing stands there, the space behind the
colon is gone with the line's end, the colon is no mark any more, and it is the description itself.
-/

set_option autoImplicit false

namespace NativeCatalogue

open LineKind ParameterDoc

def parameterLine (name text : String) : String :=
  "* **" ++ name ++ "**: " ++ text

theorem toList_parameterLine (name text : String) :
    (parameterLine name text).toList =
      '*' :: ' ' :: ("**" ++ name ++ "**: " ++ text).toList := by
  simp [parameterLine, String.toList_append]

theorem ofLine_parameterLine (name text : String) :
    ofLine (parameterLine name text) = .item ("**" ++ name ++ "**: " ++ text).trimBlanks := by
  have hchars : ("**" ++ name ++ "**: " ++ text).toList =
      '*' :: '*' :: (name.toList ++ '*' :: '*' :: ':' :: ' ' :: text.toList) := by
    simp [String.toList_append]
  have hgap : (' ' :: ("**" ++ name ++ "**: " ++ text).toList).dropWhile isGap =
      ("**" ++ name ++ "**: " ++ text).toList := by
    rw [hchars]
    rfl
  rw [ofLine_of_mark (toList_parameterLine name text) (by decide)]
  have hitem : item? ('*' :: ' ' :: ("**" ++ name ++ "**: " ++ text).toList) =
      some (.item ("**" ++ name ++ "**: " ++ text).trimBlanks) := by
    have hafter : afterMarker? ('*' :: ' ' :: ("**" ++ name ++ "**: " ++ text).toList) =
        some (' ' :: ("**" ++ name ++ "**: " ++ text).toList) := rfl
    rw [item?, hafter, Option.bind_eq_bind, Option.bind_some, if_pos (by rfl), hgap]
    rfl
  rw [hitem]
  rfl

def behindName (text : String) : String :=
  if text.allBlank then ":" else ": " ++ .ofList (Text.trimEnd text.toList)

theorem trimBlanks_parameterText (name text : String) :
    ("**" ++ name ++ "**: " ++ text).trimBlanks = "**" ++ name ++ "**" ++ behindName text := by
  apply String.toList_inj.1
  have hchars : ("**" ++ name ++ "**: " ++ text).toList =
      ('*' :: '*' :: name.toList ++ ['*', '*']) ++ [':'] ++ ' ' :: text.toList := by
    simp [String.toList_append]
  have hstart : Text.trimStart ("**" ++ name ++ "**: " ++ text).toList =
      ("**" ++ name ++ "**: " ++ text).toList := by
    refine Text.trimStart_of_head ?_
    rw [hchars]
    rintro c hc
    cases hc
    decide
  rw [String.trimBlanks, String.toList_ofList, Text.trim, hstart, hchars, behindName]
  split
  · rename_i hblank
    have hblank : (' ' :: text.toList).all Text.isBlank = true := hblank
    rw [Text.trimEnd_append_blanks _ hblank, Text.trimEnd_of_last]
    · simp [String.toList_append]
    · rw [List.getLast?_concat]
      rintro c hc
      cases hc
      decide
  · rename_i hblank
    have hblank : text.toList.all Text.isBlank = false := Bool.not_eq_true _ ▸ hblank
    rw [List.append_cons, Text.trimEnd_append _ hblank]
    simp [String.toList_append]

theorem descriptionOf_behindName (text : String) :
    descriptionOf (behindName text) = if text.allBlank then ":" else text.trimBlanks := by
  rw [behindName]
  cases hblank : text.allBlank with
  | true =>
    rw [if_pos rfl, if_pos rfl]
    decide
  | false =>
    rw [if_neg Bool.false_ne_true, if_neg Bool.false_ne_true, ← isText_iff.1 (.inl ⟨_, rfl, rfl⟩),
      String.trimBlanks, String.toList_ofList, Text.trim_trimEnd hblank]
    rfl

theorem splitStrong_of_free {name : String} (hne : name ≠ "")
    (h : ∀ c ∈ name.toList, c ≠ '\n' ∧ c ≠ '*') (rest : String) :
    splitStrong ("**" ++ name ++ "**" ++ rest) = some (name, rest) := by
  have hchars : ("**" ++ name ++ "**" ++ rest).toList =
      '*' :: '*' :: (name.toList ++ '*' :: '*' :: rest.toList) := by
    simp [String.toList_append]
  have hcloses : ClosesSpan '*' (name.toList ++ '*' :: '*' :: rest.toList) name.toList rest.toList :=
    ⟨mt String.toList_eq_nil_iff.1 hne, fun hline => (h _ hline).1 rfl, rfl⟩
  have hinner := hcloses.strongInner_of_not_mem fun hstar => (h _ hstar).2 rfl
  rw [splitStrong, hchars, splitStrongChars_cons, spanAt?_marks (.inl rfl), hinner]
  simp

theorem star_not_mem_of_isIdentifier {word : String} (h : isIdentifier word = true) :
    ∀ c ∈ word.toList, c ≠ '*' := by
  unfold isIdentifier at h
  split at h
  · cases h
  · rename_i first rest hword
    rw [Bool.and_eq_true, List.all_eq_true] at h
    rw [hword]
    exact List.forall_mem_cons.2
      ⟨Text.ne_of_class h.1 (by decide), fun c hc => Text.ne_of_class (h.2 c hc) (by decide)⟩

theorem names_of_parameterLine {name : String} (h : isIdentifier name = true) (text : String) :
    Names ⟨[("**" ++ name ++ "**: " ++ text).trimBlanks]⟩ name (behindName text) := by
  obtain ⟨hne, hvisible⟩ := isWord_of_isIdentifier h
  have hfree : ∀ c ∈ name.toList, c ≠ '\n' ∧ c ≠ '*' := fun c hc =>
    ⟨(Text.ne_of_class (p := Text.isBlank) rfl (hvisible c hc)).symm, star_not_mem_of_isIdentifier h c hc⟩
  have hblank : name.allBlank = false := by
    obtain ⟨c, cs, hname⟩ := List.exists_cons_of_ne_nil hne
    rw [String.allBlank, hname, List.all_cons, hvisible c (hname ▸ List.mem_cons_self), Bool.false_and]
  have htrim : name.trimBlanks = name := trimBlanks_eq_of_isTrimmed
    ⟨fun c hc => hvisible c (List.mem_of_mem_head? hc), fun c hc => hvisible c (List.mem_of_getLast? hc)⟩
  refine ⟨_, name, rfl, ?_, hblank, htrim.symm⟩
  rw [trimBlanks_parameterText]
  exact splitStrong_of_free (mt String.toList_eq_nil_iff.2 hne) hfree (behindName text)

namespace Document

def bodyLines (source : String) : List String :=
  let lines := Text.lines (dropMarks source)
  lines.drop (splitFrontMatter lines).2

/-- What stands in a document before a line of its parameter list: some lines, the first heading of the
    parameters, and lines of their section, of which only the last can belong to a list. -/
structure LeadsToList (before : List String) (heading : String) (inside : List String) : Prop where
  outside : openFence? before = none
  first : ∀ depth title, Block.heading depth title ∈ parseBlocks before →
    sameIgnoringCase title "parameters" = false
  heading : ∃ depth title, ofLine heading = .heading depth title ∧
    sameIgnoringCase title "parameters" = true ∧
    ∀ d t, Block.heading d t ∈ parseBlocks inside → depth < d
  unfenced : openFence? inside = none
  list : ∀ items, Block.list items ∉ (parseBlocks inside).dropLast

theorem LeadsToList.sectionOf? {before inside : List String} {heading : String}
    (h : LeadsToList before heading inside) {line text : String} (hline : ofLine line = .item text)
    {doc : Document} {behind : List String}
    (hdoc : doc.blocks = parseBlocks (before ++ heading :: (inside ++ line :: behind))) :
    ∃ blocks, doc.sectionOf? "parameters" = some blocks ∧
      FirstList blocks ((lastItems (parseBlocks inside)).2 ++ (listItems text behind).1) := by
  obtain ⟨depth, title, hheading, htitle, hdeeper⟩ := h.heading
  have hbelow : ∀ block ∈ (lastItems (parseBlocks inside)).1, isBelow depth block = true := by
    intro block hblock
    have hmem := mem_of_mem_lastItems hblock
    cases block with
    | heading d t => exact decide_eq_true (hdeeper d t hmem)
    | _ => rfl
  have hlist : ∀ items, isBelow depth (.list items) = true := fun _ => rfl
  obtain ⟨frontMatter, blocks⟩ := doc
  dsimp only at hdoc
  rw [hdoc, parseBlocks_append_cut (by rw [hheading]; rfl) _ h.outside, parseBlocks_heading hheading,
    sectionOf?_of_heading htitle h.first, parseBlocks_append_item hline behind h.unfenced,
    List.takeWhile_append_of_pos hbelow, List.takeWhile_cons_of_pos (hlist _)]
  exact ⟨_, rfl, _, _, rfl, list_not_mem_lastItems h.list⟩

end Document

def Document.NamesOnce (doc : Document) (name : String) : Prop :=
  ∀ blocks items, doc.sectionOf? "parameters" = some blocks → FirstList blocks items →
    items.Pairwise fun a b => ∀ r r', Names a name r → ¬ Names b name r'

namespace CompiledNative

open Document

theorem described_of_ofText {source : String} {c : CompiledNative} (h : ofText source = .ok c)
    {blocks : List Block} {items : List ListItem}
    (hblocks : (Document.parse source).sectionOf? "parameters" = some blocks)
    (hitems : FirstList blocks items) :
    Described items (recordOf c.prototype {}).parameters c.record.parameters := by
  obtain ⟨m, code, parameters, -, -, -, hparameters, hrecord⟩ := ofDocument_eq_ok h
  simp only [parametersOf, hblocks, firstList?_eq_some_iff.2 hitems] at hparameters
  rw [hrecord]
  exact described_of_foldlM hparameters

theorem isIdentifier_of_ofText {source : String} {c : CompiledNative} (h : ofText source = .ok c)
    {name : String} (hne : name ≠ "") (hname : name ∈ c.prototype.parameters.map Parameter.name) :
    isIdentifier name = true := by
  obtain ⟨m, code, parameters, -, -, hp, -, -⟩ := ofDocument_eq_ok h
  obtain ⟨q, hq, rfl⟩ := List.mem_map.1 hname
  have hdeclarable := ((Prototype.isWellFormed_of_parse hp).parameters q hq).name hne
  exact (Bool.and_eq_true_iff.1 hdeclarable).1

/-- A parameter that only one item of the parameter list names, in one line and with nothing behind it,
    gets the text of that line for its description, without the blanks at its ends; if there is no text, it
    gets the colon. -/
theorem description_of_parameterLine {source name text heading : String} {c : CompiledNative}
    {before inside behind : List String} (hc : ofText source = .ok c)
    (hbody : bodyLines source = before ++ heading :: (inside ++ parameterLine name text :: behind))
    (hlist : LeadsToList before heading inside) (hone : continuesItem behind = false)
    (hne : name ≠ "") (hname : name ∈ c.prototype.parameters.map Parameter.name)
    (honce : (Document.parse source).NamesOnce name) :
    ∃ p, c.record.parameters.find? (·.name = name) = some p ∧
      p.description = some (if text.allBlank then ":" else text.trimBlanks) := by
  have hdoc : (Document.parse source).blocks =
      parseBlocks (before ++ heading :: (inside ++ parameterLine name text :: behind)) := by
    rw [← hbody, Document.parse, Document.ofLines, bodyLines]
  obtain ⟨blocks, hblocks, hitems⟩ := hlist.sectionOf? (ofLine_parameterLine name text) hdoc
  rw [listItems_eq, itemParagraphs_of_not_continuesItem hone] at hitems
  have hnames := names_of_parameterLine (isIdentifier_of_ofText hc hne hname) text
  have hdescribed := described_of_ofText hc hblocks hitems
  refine hdescribed.find? ?_ ⟨_, _, _, rfl, (tells_iff hnames).2 ⟨rfl, ?_, ?_⟩, ?_⟩
  · rw [recordOf, List.map_map]
    exact hname
  · exact (descriptionOf_behindName text).symm
  · split
    · decide
    · rename_i hblank
      exact fun hempty => hblank (trimBlanks_eq_empty_iff.1 hempty)
  · -- An item behind the line that told something would name the parameter as well.
    rintro item hitem told ⟨rest, hother, -⟩
    have hbehind := (List.pairwise_append.1 (honce blocks _ hblocks hitems)).2.1
    exact (List.pairwise_cons.1 hbehind).1 item hitem _ rest hnames hother

def parameterSample : String :=
  "---\na: b\n---\n## A\n```c\nvoid A(int x, int y);\n```\n## Parameters\nIn order:\n\n" ++
    "* **x**: 1\n  2\n* **y**:  __a__: b \n\n## Examples\n"

def parameterSampleLines : List String :=
  ["---", "a: b", "---", "## A", "```c", "void A(int x, int y);", "```", "## Parameters", "In order:", "",
    "* **x**: 1", "  2", parameterLine "y" " __a__: b ", "", "## Examples"]

theorem description_of_parameterLine_sample :
    ∃ c p, ofText parameterSample = .ok c ∧ c.record.parameters.find? (·.name = "y") = some p ∧
      p.description = some "__a__: b" := by
  have hlines : Text.lines (dropMarks parameterSample) = parameterSampleLines := by decide +kernel
  have hparse : Document.parse parameterSample = .ofLines parameterSampleLines := by
    rw [Document.parse, hlines]
  have hcompiled : (ofDocument (.ofLines parameterSampleLines)).toOption.map
      (·.prototype.parameters.map Parameter.name) = some ["x", "y"] := by decide +kernel
  obtain ⟨c, hc, hnames⟩ := Except.map_toOption_eq_some.1 hcompiled
  rw [← hparse] at hc
  have hbody : bodyLines parameterSample =
      ["## A", "```c", "void A(int x, int y);", "```"] ++ "## Parameters" ::
        (["In order:", "", "* **x**: 1", "  2"] ++
          parameterLine "y" " __a__: b " :: ["", "## Examples"]) := by
    rw [bodyLines, hlines]
    decide +kernel
  have hbefore : parseBlocks ["## A", "```c", "void A(int x, int y);", "```"] =
      [.heading 2 "A", .code (some "c") "void A(int x, int y);"] := by decide +kernel
  have hinside : parseBlocks ["In order:", "", "* **x**: 1", "  2"] =
      [.paragraph "In order:", .list [⟨["**x**: 1\n2"]⟩]] := by decide +kernel
  have hlist : LeadsToList ["## A", "```c", "void A(int x, int y);", "```"] "## Parameters"
      ["In order:", "", "* **x**: 1", "  2"] := by
    refine ⟨by decide +kernel, ?_, ⟨2, "Parameters", by decide, by decide, ?_⟩, by decide +kernel, ?_⟩
    · intro depth title h
      rw [hbefore] at h
      simp at h
      rw [h.2]
      decide
    · simp [hinside]
    · simp [hinside]
  have hsection : ((Document.ofLines parameterSampleLines).sectionOf? "parameters").bind firstList? =
      some [⟨["**x**: 1\n2"]⟩, ⟨["**y**:  __a__: b"]⟩] := by decide +kernel
  have honce : (Document.parse parameterSample).NamesOnce "y" := by
    intro blocks items hblocks hitems
    rw [← hparse, hblocks, Option.bind_some, firstList?_eq_some_iff.2 hitems,
      Option.some_inj] at hsection
    rw [hsection]
    refine List.pairwise_pair.2 fun rest _ h _ => ?_
    have hx : (ofItem ⟨["**x**: 1\n2"]⟩).toOption.map ParameterDoc.name = some "y" := by
      rw [ofItem_of_names h]
      rfl
    revert hx
    decide +kernel
  obtain ⟨p, hp, htext⟩ := description_of_parameterLine hc hbody hlist (by decide) (by decide)
    (hnames ▸ by decide) honce
  exact ⟨c, p, hc, hp, htext.trans (by decide)⟩

def blankParameterSample : String :=
  "## A\n```c\nvoid A(int x);\n```\n## Parameters\n* **x**: \n"

theorem description_of_blank_parameterLine :
    ∃ c, ofText blankParameterSample = .ok c ∧
      bodyLines blankParameterSample =
        ["## A", "```c", "void A(int x);", "```", "## Parameters", parameterLine "x" ""] ∧
      (Document.parse blankParameterSample).sectionOf? "parameters" = some [.list [⟨["**x**:"]⟩]] ∧
      c.record.parameters.map (fun p => (p.name, p.description)) = [("x", some ":")] := by
  have hlines : Text.lines (dropMarks blankParameterSample) =
      ["## A", "```c", "void A(int x);", "```", "## Parameters", parameterLine "x" ""] := by
    decide +kernel
  have hcompiled : (ofDocument (.ofLines
      ["## A", "```c", "void A(int x);", "```", "## Parameters", parameterLine "x" ""])).toOption.map
        (·.record.parameters.map fun p => (p.name, p.description)) = some [("x", some ":")] := by
    decide +kernel
  obtain ⟨c, hc, hdescription⟩ := Except.map_toOption_eq_some.1 hcompiled
  rw [ofText, Document.parse, bodyLines, hlines]
  exact ⟨c, hc, by decide +kernel, by decide +kernel, hdescription⟩

end CompiledNative

end NativeCatalogue
