import NativeCatalogue.Proofs.FileTree.Write
import NativeCatalogue.Proofs.Json.RoundTrip
import NativeCatalogue.Proofs.Record.RoundTrip
import NativeCatalogue.Run.Compile

/-!
Catalogues in files. A catalogue that was built by inserting records is read back from its text, whichever
layout the text has, so that both layouts stand for one catalogue. The digits of floats are left aside.
-/

set_option autoImplicit false

namespace NativeCatalogue

open Json (FloatFree)

theorem FrontMatter.floatFree_textMember (key : String) (value : Option String) :
    ∀ e ∈ textMember key value, FloatFree e.2 :=
  List.forall_mem_map.2 fun s _ => .string s

theorem Annotation.floatFree_toJson (a : Annotation) : FloatFree a.toJson := by
  unfold toJson
  cases a.payload? with
  | none => exact .object _ (List.forall_mem_cons.2 ⟨.string _, List.forall_mem_nil _⟩)
  | some payload =>
    exact .object _ (List.forall_mem_cons.2 ⟨.string _, List.forall_mem_cons.2 ⟨.string _, List.forall_mem_nil _⟩⟩)

theorem AnnotationSet.floatFree_toMember (s : AnnotationSet) : ∀ e ∈ s.toMember, FloatFree e.2 := by
  unfold toMember
  split
  · exact List.forall_mem_nil _
  · exact List.forall_mem_cons.2 ⟨.array_map Annotation.floatFree_toJson _, List.forall_mem_nil _⟩

theorem ParameterRecord.floatFree_toJson (p : ParameterRecord) : FloatFree p.toJson := by
  refine .object _ ?_
  simp only [List.forall_mem_append, List.forall_mem_cons]
  exact ⟨⟨⟨.string _, .string _, List.forall_mem_nil _⟩, FrontMatter.floatFree_textMember _ _⟩,
    p.annotations.floatFree_toMember⟩

theorem ExampleRecord.floatFree_toJson (e : ExampleRecord) : FloatFree e.toJson := by
  refine .object _ (List.forall_mem_cons.2 ⟨?_, List.forall_mem_cons.2 ⟨.string _, List.forall_mem_nil _⟩⟩)
  cases e.language with
  | none => exact .null
  | some language => exact .string language

theorem FrontMatter.floatFree_toMembers {m : FrontMatter} (h : ∀ e ∈ m.extra.toList, FloatFree e.2) :
    ∀ e ∈ m.toMembers, FloatFree e.2 := by
  have haliases : ∀ e ∈ if m.aliases = [] then [] else [("aliases", Json.array (m.aliases.map .string))],
      FloatFree e.2 := by
    split
    · exact List.forall_mem_nil _
    · exact List.forall_mem_cons.2 ⟨.array_map .string _, List.forall_mem_nil _⟩
  simp only [toMembers, List.forall_mem_append]
  exact ⟨⟨⟨⟨floatFree_textMember _ _, floatFree_textMember _ _⟩, floatFree_textMember _ _⟩, haliases⟩, h⟩

theorem NativeRecord.floatFree_toOwnMembers (r : NativeRecord) : ∀ e ∈ r.toOwnMembers, FloatFree e.2 := by
  have hmanual : ∀ e ∈ if r.manualHash then [("manualHash", Json.bool true)] else [], FloatFree e.2 := by
    split
    · exact List.forall_mem_cons.2 ⟨.bool true, List.forall_mem_nil _⟩
    · exact List.forall_mem_nil _
  have hrequired : ∀ e ∈ [("params", .array (r.parameters.map ParameterRecord.toJson)),
      ("results", .string r.results), ("description", .string r.description),
      ("examples", .array (r.examples.map ExampleRecord.toJson)), ("hash", .string r.hash)],
      FloatFree e.2 := by
    simp only [List.forall_mem_cons]
    exact ⟨.array_map ParameterRecord.floatFree_toJson _, .string _, .string _,
      .array_map ExampleRecord.floatFree_toJson _, .string _, List.forall_mem_nil _⟩
  simp only [toOwnMembers, List.forall_mem_append]
  exact ⟨⟨⟨⟨⟨FrontMatter.floatFree_textMember _ _, hrequired⟩, FrontMatter.floatFree_textMember _ _⟩, hmanual⟩,
    FrontMatter.floatFree_textMember _ _⟩, r.annotations.floatFree_toMember⟩

/-- What holds of records that a catalogue brings back: no other key of the front matter is reserved or
    known, and the values there are values of JSON (integers of 64 bits, ascending keys) without floats. -/
structure NativeRecord.Storable (r : NativeRecord) : Prop where
  separate : r.Separate
  floatFree : ∀ e ∈ r.frontMatter.extra.toList, FloatFree e.2

theorem NativeRecord.Storable.floatFree_toJson {r : NativeRecord} (h : r.Storable) : FloatFree r.toJson :=
  .object _ (List.forall_mem_append.2
    ⟨r.floatFree_toOwnMembers, FrontMatter.floatFree_toMembers h.floatFree⟩)

namespace Catalogue

/-- Catalogues that are built by inserting records with a property, one after the other. -/
inductive BuiltFrom (p : NativeRecord → Prop) : Catalogue → Prop
  | empty : BuiltFrom p ∅
  | insert {c : Catalogue} {r : NativeRecord} (ns : String) (h : BuiltFrom p c) (hr : p r) :
    BuiltFrom p (c.insert ns r)

def All (p : NativeRecord → Prop) (c : Catalogue) : Prop :=
  ∀ e ∈ c.namespaces.toList, ∀ x ∈ e.2.toList, p x.2

variable {p : NativeRecord → Prop} {c : Catalogue}

theorem All.inNamespace (h : c.All p) (ns : String) : ∀ x ∈ (c.inNamespace ns).toList, p x.2 := by
  rw [Catalogue.inNamespace]
  cases hget : c.namespaces.get? ns with
  | none => exact fun x hx => absurd hx List.not_mem_nil
  | some records => exact h _ (SortedMap.mem_of_get? hget)

theorem All.insert (h : c.All p) (ns : String) {r : NativeRecord} (hr : p r) : (c.insert ns r).All p := by
  intro e he x hx
  rcases SortedMap.mem_place he with rfl | he
  · rcases SortedMap.mem_place hx with rfl | hx
    · exact hr
    · exact h.inNamespace ns x hx
  · exact h e he x hx

theorem BuiltFrom.all (h : c.BuiltFrom p) : c.All p := by
  induction h with
  | empty => exact fun e he => absurd he List.not_mem_nil
  | insert ns _ hr ih => exact ih.insert ns hr

theorem entries_ofJson {α : Type} {entries : List (String × α)} (write : α → Json)
    (read : Nat → JsonText → Option α) {limit : Nat}
    (hlimit : (Json.object (entries.map fun e => (e.1, write e.2))).depth ≤ limit)
    (h : ∀ e ∈ entries, (write e.2).depth ≤ limit - 1 → read (limit - 1) (.ofJson (write e.2)) = some e.2) :
    (JsonText.ofJson (.object (entries.map fun e => (e.1, write e.2)))).members?.bind
      (fun members => members.mapM fun e => return (e.1, ← read (limit - 1) e.2)) = some entries := by
  rw [JsonText.members?_ofJson, Option.bind_some]
  refine JsonText.mapM_texts_map write (read (limit - 1)) fun e he => h e he ?_
  have hmem : (e.1, write e.2) ∈ entries.map fun e => (e.1, write e.2) := List.mem_map.2 ⟨e, he, rfl⟩
  have hdepth : (write e.2).depth ≤ _ := JsonText.depth_le_depthOfMembers hmem
  rw [Json.depth] at hlimit
  omega

def recordsToJson (records : SortedMap String NativeRecord) : Json :=
  .object (records.toList.map fun e => (e.1, e.2.toJson))

theorem toJson_eq (c : Catalogue) :
    c.toJson = .object (c.namespaces.toList.map fun e => (e.1, recordsToJson e.2)) := rfl

theorem recordsOfJson?_recordsToJson {records : SortedMap String NativeRecord} {limit : Nat}
    (h : ∀ x ∈ records.toList, x.2.Separate) (hlimit : (recordsToJson records).depth ≤ limit) :
    recordsOfJson? limit (.ofJson (recordsToJson records)) = some records := by
  have hentries := entries_ofJson NativeRecord.toJson NativeRecord.ofJson? hlimit
    fun x hx hdepth => (h x hx).ofJson?_toJson hdepth
  have hread := (Option.bind_assoc _ _ _).symm.trans
    (congrArg (Option.bind · fun entries => some (SortedMap.ofList entries)) hentries)
  exact hread.trans (congrArg some records.ofList_toList)

theorem ofJson?_toJson (h : c.All NativeRecord.Separate) {limit : Nat} (hlimit : c.toJson.depth ≤ limit) :
    ofJson? limit (.ofJson c.toJson) = some c := by
  rw [toJson_eq] at hlimit ⊢
  have hentries := entries_ofJson recordsToJson recordsOfJson? hlimit
    fun e he hdepth => recordsOfJson?_recordsToJson (h e he) hdepth
  have hread := (Option.bind_assoc _ _ _).symm.trans
    (congrArg (Option.bind · fun entries => some (Catalogue.mk (.ofList entries))) hentries)
  exact hread.trans (congrArg (fun m => some (Catalogue.mk m)) c.namespaces.ofList_toList)

theorem floatFree_toJson (h : c.All NativeRecord.Storable) : FloatFree c.toJson := by
  refine .object _ (List.forall_mem_map.2 fun e he => .object _ (List.forall_mem_map.2 fun x hx => ?_))
  exact (h e he x hx).floatFree_toJson

theorem ofBytes?_write (hc : c.BuiltFrom NativeRecord.Storable) (hdepth : c.toJson.depth ≤ JsonText.nestingLimit)
    (layout : JsonText.Layout) : ofBytes? (c.write layout).toUTF8 = some c := by
  have hstorable := hc.all
  have hseparate : c.All NativeRecord.Separate := fun e he x hx => (hstorable e he x hx).separate
  rw [ofBytes?, write, JsonText.ofBytes?_write layout (floatFree_toJson hstorable), Option.bind_eq_bind,
    Option.bind_some, ofJson?_toJson hseparate hdepth]

/-- A catalogue that was built by inserting records is what both of its texts are read as: they stand for one
    JSON value, and a file that one of them is written to holds the catalogue. -/
theorem read_write {c : Catalogue} (hc : c.BuiltFrom NativeRecord.Storable)
    (hdepth : c.toJson.depth ≤ JsonText.nestingLimit) :
    (∀ layout, ofBytes? (c.write layout).toUTF8 = some c) ∧
      (∀ layout (t u : FileTree) (path : Path) (now : Calendar.Instant),
        t.write path (c.write layout) now = .ok u → u.readCatalogue path = some c) ∧
      ∃ value, ∀ layout, JsonText.ofBytes? (c.write layout).toUTF8 = some value := by
  refine ⟨ofBytes?_write hc hdepth, fun layout t u path now hwrite => ?_, .ofJson c.toJson, fun layout => ?_⟩
  · rw [FileTree.readCatalogue, FileTree.readBytes_write hwrite]
    exact ofBytes?_write hc hdepth layout
  · rw [write, JsonText.ofBytes?_write layout (floatFree_toJson hc.all)]

def awkwardValue : Json :=
  .object [("a", .array [.int (-3), .null, .string "\n"]), ("b", .bool true)]

def awkwardRecord (hash : String) : NativeRecord where
  name := some "A\"B\\"
  parameters := [⟨"x", "int", some "\x08\x0c\n\r\t\x01\x7f", ∅⟩]
  results := "void"
  description := "é😀"
  examples := [⟨none, "\\u0041/"⟩]
  hash := hash
  frontMatter := { ns := some "CFX", extra := .ofList [("\"key\"", awkwardValue)] }

def awkwardCatalogue : Catalogue :=
  ((∅ : Catalogue).insert "CFX" (awkwardRecord "0x1")).insert "CFX" (awkwardRecord "0x2")

theorem readable_awkwardValue : awkwardValue.Readable := by
  refine .object _ rfl ?_
  simp only [List.forall_mem_cons]
  refine ⟨.array _ ?_, .bool true, List.forall_mem_nil _⟩
  simp only [List.forall_mem_cons]
  exact ⟨.int _ (by decide) (by decide), .null, .string _, List.forall_mem_nil _⟩

theorem floatFree_awkwardValue : FloatFree awkwardValue := by
  refine .object _ ?_
  simp only [List.forall_mem_cons]
  refine ⟨.array _ ?_, .bool true, List.forall_mem_nil _⟩
  simp only [List.forall_mem_cons]
  exact ⟨.int _, .null, .string _, List.forall_mem_nil _⟩

theorem storable_awkwardRecord (hash : String) : (awkwardRecord hash).Storable := by
  have hextra : (awkwardRecord hash).frontMatter.extra.toList = [("\"key\"", awkwardValue)] := rfl
  refine ⟨⟨⟨?_, ?_⟩, ?_⟩, ?_⟩
  all_goals rw [hextra, List.forall_mem_singleton]
  · decide
  · exact readable_awkwardValue
  · decide
  · exact floatFree_awkwardValue

theorem read_write_awkward :
    awkwardCatalogue.BuiltFrom NativeRecord.Storable ∧
      awkwardCatalogue.toJson.depth ≤ JsonText.nestingLimit ∧
      (∀ layout, ofBytes? (awkwardCatalogue.write layout).toUTF8 = some awkwardCatalogue) ∧
      (∀ layout (t u : FileTree) (path : Path) (now : Calendar.Instant),
        t.write path (awkwardCatalogue.write layout) now = .ok u → u.readCatalogue path = some awkwardCatalogue) ∧
      ∃ value, ∀ layout, JsonText.ofBytes? (awkwardCatalogue.write layout).toUTF8 = some value := by
  have hbuilt : awkwardCatalogue.BuiltFrom NativeRecord.Storable :=
    .insert _ (.insert _ .empty (storable_awkwardRecord _)) (storable_awkwardRecord _)
  have hdepth : awkwardCatalogue.toJson.depth ≤ JsonText.nestingLimit := by
    decide +kernel
  exact ⟨hbuilt, hdepth, read_write hbuilt hdepth⟩

end Catalogue

end NativeCatalogue
