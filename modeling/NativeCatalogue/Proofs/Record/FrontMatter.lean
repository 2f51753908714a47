import NativeCatalogue.Compilation.Basic
import NativeCatalogue.Proofs.Json.Fields
import NativeCatalogue.Proofs.Yaml.Value

set_option autoImplicit false

namespace NativeCatalogue.FrontMatter

open Yaml

structure Delivered (m : FrontMatter) : Prop where
  unknown : ∀ e ∈ m.extra.toList, e.1 ∉ knownKeys
  readable : ∀ e ∈ m.extra.toList, e.2.Readable

theorem delivered_empty : Delivered {} where
  unknown := fun e he => by cases he
  readable := fun e he => by cases he

theorem yields_extra (d : Yaml.Document) (members : List (String × Node))
    (ns apiset game : Option String) (aliases : List String) :
    Yields Delivered (do
      let extra ← (members.filter (!knownKeys.contains ·.1)).mapM fun (key, node) =>
        return (key, ← d.value (Yaml.nestingLimit - 1) node)
      return { ns, apiset, game, aliases, extra := .ofList extra }) := by
  refine yields_bind (p := fun extra => ∀ e ∈ extra, e.1 ∉ knownKeys ∧ e.2.Readable)
    (yields_mapM fun e he => ?_) fun extra hextra => yields_pure ?_
  · have hkey : e.1 ∉ knownKeys := by
      have hcontains := (List.mem_filter.1 he).2
      simpa using hcontains
    exact yields_bind (yields_value d _ e.2) fun v hv => yields_pure ⟨hkey, hv⟩
  · exact ⟨fun e he => (hextra e (SortedMap.mem_of_mem_ofList he)).1,
      fun e he => (hextra e (SortedMap.mem_of_mem_ofList he)).2⟩

theorem yields_ofDocument (d : Yaml.Document) : Yields Delivered (ofDocument d) := by
  unfold ofDocument
  refine yields_bind_any fun nodes => yields_bind_any fun members => ?_
  split
  · exact yields_failure
  · refine yields_bind_any fun ns => yields_bind_any fun apiset => yields_bind_any fun game => ?_
    dsimp only
    split
    · exact yields_bind_any fun aliases => yields_extra d members ns apiset game aliases
    · exact yields_bind_any fun aliases => yields_extra d members ns apiset game aliases

theorem delivered_ofYaml? {text : String} {m : FrontMatter} (h : ofYaml? text = some m) :
    m.Delivered := by
  unfold ofYaml? at h
  obtain ⟨document, -, h⟩ := Option.bind_eq_some_iff.1 h
  cases document with
  | none =>
    cases h
    exact delivered_empty
  | some d =>
    obtain ⟨⟨read, left⟩, hread, rfl⟩ := Option.map_eq_some_iff.1 h
    exact yields_ofDocument d d.aliasLimit read left hread

theorem known_unreserved : ∀ key ∈ knownKeys, key ∉ reservedKeys := by
  decide

theorem get?_withoutReserved (m : FrontMatter) {key : String} (hkey : key ∉ reservedKeys) :
    m.withoutReserved.extra.get? key = m.extra.get? key := by
  have hkept : (!reservedKeys.contains key) = true := by
    simpa using hkey
  exact m.extra.get?_filter hkept

theorem withoutReserved_unreserved (m : FrontMatter) :
    ∀ e ∈ m.withoutReserved.extra.toList, e.1 ∉ reservedKeys := by
  intro e he
  have hkept := (List.mem_filter.1 he).2
  simpa using hkept

theorem Delivered.withoutReserved {m : FrontMatter} (h : m.Delivered) :
    m.withoutReserved.Delivered where
  unknown := fun e he => h.unknown e (List.mem_of_mem_filter he)
  readable := fun e he => h.readable e (List.mem_of_mem_filter he)

def knownTable (m : FrontMatter) : List (String × Option Json) :=
  [("ns", m.ns.map .string), ("apiset", m.apiset.map .string), ("game", m.game.map .string),
    ("aliases", if m.aliases = [] then none else some (.array (m.aliases.map .string)))]

theorem nodup_knownKeys : knownKeys.Nodup := by
  decide

theorem textMember_eq (key : String) (value : Option String) :
    textMember key value = present [(key, value.map Json.string)] := by
  cases value <;> rfl

theorem toMembers_eq (m : FrontMatter) : m.toMembers = present m.knownTable ++ m.extra.toList := by
  have haliases : (if m.aliases = [] then [] else [("aliases", Json.array (m.aliases.map .string))]) =
      present [("aliases",
        if m.aliases = [] then none else some (Json.array (m.aliases.map .string)))] := by
    split <;> rfl
  rw [toMembers, haliases, textMember_eq, textMember_eq, textMember_eq, ← present_append,
    ← present_append, ← present_append]
  rfl

theorem lookup_extra (m : FrontMatter) {key : String} (hkey : key ∉ knownKeys) :
    m.toMembers.lookup key = m.extra.get? key := by
  rw [toMembers_eq, lookup_present_append_other m.knownTable hkey, SortedMap.get?, SortedMap.lookup_eq]

namespace Delivered

variable {m : FrontMatter}

theorem nodup_toMembers (h : m.Delivered) : (m.toMembers.map Prod.fst).Nodup := by
  rw [toMembers_eq]
  exact nodup_present_append m.knownTable nodup_knownKeys (SortedMap.nodup_keys m.extra) h.unknown

theorem lookup_known (h : m.Delivered) {key : String} {value : Option Json}
    (hmem : (key, value) ∈ m.knownTable) : m.toMembers.lookup key = value := by
  rw [toMembers_eq]
  exact lookup_present_append m.knownTable nodup_knownKeys h.unknown hmem

theorem filter_unknown (h : m.Delivered) :
    m.toMembers.filter (!knownKeys.contains ·.1) = m.extra.toList := by
  rw [toMembers_eq]
  exact filter_present_append m.knownTable h.unknown

theorem ofMembers?_texts (h : m.Delivered) {limit : Nat}
    (hlimit : ∀ e ∈ m.extra.toList, e.2.depth ≤ limit) :
    ofMembers? limit (JsonText.texts m.toMembers) = some m := by
  have honce : JsonText.knownOnce knownKeys (JsonText.texts m.toMembers) = true := by
    refine JsonText.knownOnce_of_nodup ?_ knownKeys
    rw [JsonText.keys_texts]
    exact h.nodup_toMembers
  have hns : m.toMembers.lookup "ns" = m.ns.map Json.string := h.lookup_known (.head _)
  have hapiset : m.toMembers.lookup "apiset" = m.apiset.map Json.string :=
    h.lookup_known (.tail _ (.head _))
  have hgame : m.toMembers.lookup "game" = m.game.map Json.string :=
    h.lookup_known (.tail _ (.tail _ (.head _)))
  have haliases : JsonText.fieldOr (JsonText.texts m.toMembers) "aliases" [] (fun value => do
      (← value.items?).mapM JsonText.text?) = some m.aliases := by
    rw [JsonText.fieldOr_texts, h.lookup_known (.tail _ (.tail _ (.tail _ (.head _))))]
    by_cases hnil : m.aliases = []
    · rw [if_pos hnil, hnil]
    · rw [if_neg hnil]
      exact JsonText.mapM_ofItems fun s _ => rfl
  have hextra : ((JsonText.texts m.toMembers).filter (!knownKeys.contains ·.1)).mapM
      (fun e => return (e.1, ← e.2.value? limit)) = some m.extra.toList := by
    rw [JsonText.filter_texts, h.filter_unknown]
    exact JsonText.mapM_texts (JsonText.value? · limit) fun e he =>
      JsonText.value?_ofJson (h.readable e he) (hlimit e he)
  unfold ofMembers?
  simp only [honce, haliases, JsonText.fieldOr_optionalText hns,
    JsonText.fieldOr_optionalText hapiset, JsonText.fieldOr_optionalText hgame]
  refine Option.bind_eq_some_iff.2 ⟨m.extra.toList, hextra, ?_⟩
  change some { m with extra := SortedMap.ofList m.extra.toList } = some m
  rw [SortedMap.ofList_toList]

end Delivered

end NativeCatalogue.FrontMatter
