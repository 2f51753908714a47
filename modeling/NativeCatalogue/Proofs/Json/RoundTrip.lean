import NativeCatalogue.Proofs.Json.Scanning
import NativeCatalogue.Proofs.Text.Symbol

/-!
JSON texts read back. A value without floats is written on one line or over many, and the machine that reads
the text ends with what the value is as a text. What the layout adds is space, which no token needs.
-/

set_option autoImplicit false

namespace NativeCatalogue

inductive Json.FloatFree : Json → Prop
  | null : FloatFree .null
  | bool (b : Bool) : FloatFree (.bool b)
  | int (i : Int) : FloatFree (.int i)
  | string (s : String) : FloatFree (.string s)
  | array (items : List Json) (h : ∀ v ∈ items, FloatFree v) : FloatFree (.array items)
  | object (members : List (String × Json)) (h : ∀ e ∈ members, FloatFree e.2) : FloatFree (.object members)

theorem Json.FloatFree.array_map {α : Type} {write : α → Json} (h : ∀ x, FloatFree (write x)) (xs : List α) :
    FloatFree (.array (xs.map write)) :=
  .array _ (List.forall_mem_map.2 fun x _ => h x)

namespace JsonText

open Text (Symbol)

theorem endsNumber_nil : EndsNumber [] := by
  intro x hx
  cases hx

theorem endsNumber_cons {c : Char} (h : c ∈ [',', ']', '\x7d', '\n']) (rest : List Symbol) :
    EndsNumber (some c :: rest) := by
  intro x hx
  cases hx
  simp only [List.mem_cons, List.not_mem_nil, or_false] at h
  rcases h with rfl | rfl | rfl | rfl <;> decide

theorem endsNumber_newline (layout : Layout) (depth : Nat) {rest : List Symbol} (h : EndsNumber rest) :
    EndsNumber ((layout.newline depth).map some ++ rest) := by
  cases layout with
  | compact => exact h
  | pretty => exact endsNumber_cons (by decide) _

def readFrom (state : State) (cs : List Symbol) : Option State :=
  (tokens? cs).bind (run state)

variable {state next : State} {stack : List Frame}

theorem readFrom_step {cs rest : List Symbol} {t : Token} (h : tokens? cs = (tokens? rest).map (t :: ·))
    (hstep : step state t = some next) : readFrom state cs = readFrom next rest := by
  rw [readFrom, readFrom, h, Option.bind_map]
  refine congrArg (tokens? rest).bind (funext fun ts => ?_)
  rw [Function.comp_apply, run, hstep, Option.bind_some]

theorem readFrom_scan {cs rest : List Symbol} {t : Token} (h : scanToken cs = some (t, rest))
    (hstep : step state t = some next) : readFrom state cs = readFrom next rest :=
  readFrom_step (tokens?_scan h) hstep

theorem readFrom_newline (layout : Layout) (depth : Nat) (rest : List Symbol) :
    readFrom state ((layout.newline depth).map some ++ rest) = readFrom state rest := by
  rw [readFrom, tokens?_newline, readFrom]

theorem readFrom_colon (layout : Layout) (members : List (Option String × JsonText)) (key : Option String)
    (rest : List Symbol) : readFrom ⟨stack, .colon members key⟩ (layout.colon.map some ++ rest) =
      readFrom ⟨.object members key :: stack, .value⟩ rest :=
  readFrom_step (tokens?_colon layout rest) rfl

variable (how : Printing)

def ReadsBack (v : Json) : Prop :=
  ∀ depth stack rest, EndsNumber rest →
    readFrom ⟨stack, .value⟩ ((print how depth (ofJson v)).map some ++ rest) =
      readFrom ⟨stack, .done (ofJson v)⟩ rest

theorem endsNumber_items (depth : Nat) (items : List JsonText) {rest : List Symbol} (h : EndsNumber rest) :
    EndsNumber ((printItems how depth items).map some ++ rest) := by
  cases items with
  | nil => exact h
  | cons item items => exact endsNumber_cons (by decide) _

theorem endsNumber_members (depth : Nat) (members : List (Option String × JsonText)) {rest : List Symbol}
    (h : EndsNumber rest) : EndsNumber ((printMembers how depth members).map some ++ rest) := by
  cases members with
  | nil => exact h
  | cons e members => exact endsNumber_cons (by decide) _

theorem readFrom_items {items : List Json} (h : ∀ v ∈ items, ReadsBack how v) (depth inner : Nat)
    (read : List JsonText) (value : JsonText) (rest : List Symbol) :
    readFrom ⟨.array read :: stack, .done value⟩ ((printItems how inner (ofItems items)).map some ++
        ((how.layout.newline depth).map some ++ some ']' :: rest)) =
      readFrom ⟨stack, .done (.array (read.reverse ++ value :: ofItems items))⟩ rest := by
  induction items generalizing read value with
  | nil =>
    rw [ofItems, printItems, List.map_nil, List.nil_append, readFrom_newline,
      readFrom_scan (t := .closeArray) rfl rfl, List.reverse_cons]
  | cons v items ih =>
    have hend := endsNumber_items how inner (ofItems items)
      (endsNumber_newline how.layout depth (endsNumber_cons (c := ']') (by decide) rest))
    rw [ofItems, printItems]
    simp only [List.map_cons, List.map_append, List.cons_append, List.append_assoc]
    rw [readFrom_scan (t := .comma) rfl rfl, readFrom_newline, h v List.mem_cons_self inner _ _ hend,
      ih (fun w hw => h w (List.mem_cons_of_mem v hw)), List.reverse_cons, List.append_assoc,
      List.singleton_append]

theorem readFrom_member {key : String} {v : Json} (h : ReadsBack how v)
    {read : List (Option String × JsonText)}
    (hkey : step state (.string (some key)) = some ⟨stack, .colon read (some key)⟩) (depth : Nat)
    {rest : List Symbol} (hrest : EndsNumber rest) :
    readFrom state ((quote key).map some ++ (how.layout.colon.map some ++
        ((print how depth (ofJson v)).map some ++ rest))) =
      readFrom ⟨.object read (some key) :: stack, .done (ofJson v)⟩ rest := by
  rw [readFrom_scan (scanToken_quote key _) hkey, readFrom_colon, h depth _ _ hrest]

theorem readFrom_members {members : List (String × Json)} (h : ∀ e ∈ members, ReadsBack how e.2)
    (depth inner : Nat) (read : List (Option String × JsonText)) (key : Option String) (value : JsonText)
    (rest : List Symbol) :
    readFrom ⟨.object read key :: stack, .done value⟩ ((printMembers how inner (ofMembers members)).map some ++
        ((how.layout.newline depth).map some ++ some '\x7d' :: rest)) =
      readFrom ⟨stack, .done (.object (read.reverse ++ (key, value) :: ofMembers members))⟩ rest := by
  induction members generalizing read key value with
  | nil =>
    rw [ofMembers, printMembers, List.map_nil, List.nil_append, readFrom_newline,
      readFrom_scan (t := .closeObject) rfl rfl, List.reverse_cons]
  | cons e members ih =>
    have hend := endsNumber_members how inner (ofMembers members)
      (endsNumber_newline how.layout depth (endsNumber_cons (c := '\x7d') (by decide) rest))
    rw [ofMembers, printMembers, quoteOptional]
    simp only [List.map_cons, List.map_append, List.cons_append, List.append_assoc]
    rw [readFrom_scan (t := .comma) rfl rfl, readFrom_newline,
      readFrom_member how (h e List.mem_cons_self) rfl inner hend,
      ih (fun d hd => h d (List.mem_cons_of_mem e hd)), List.reverse_cons, List.append_assoc,
      List.singleton_append]

theorem exists_scanToken_print {v : Json} (h : v.FloatFree) (depth : Nat) {rest : List Symbol}
    (hrest : EndsNumber rest) : ∃ t after, t ≠ .closeArray ∧
      scanToken ((print how depth (ofJson v)).map some ++ rest) = some (t, after) := by
  cases h with
  | null => exact ⟨.null, rest, by decide, rfl⟩
  | bool b =>
    refine ⟨.bool b, rest, by simp, ?_⟩
    cases b <;> rfl
  | int i => exact ⟨.number (.ofInt i), rest, by simp, scanToken_ofInt i hrest⟩
  | string s => exact ⟨.string (some s), rest, by simp, scanToken_quote s rest⟩
  | array items =>
    cases items with
    | nil => exact ⟨.openArray, _, by decide, rfl⟩
    | cons v items => exact ⟨.openArray, _, by decide, rfl⟩
  | object members =>
    cases members with
    | nil => exact ⟨.openObject, _, by decide, rfl⟩
    | cons e members => exact ⟨.openObject, _, by decide, rfl⟩

theorem readFrom_firstItem {v : Json} (h : v.FloatFree) (depth : Nat) {rest : List Symbol}
    (hrest : EndsNumber rest) :
    readFrom ⟨stack, .firstItem⟩ ((print how depth (ofJson v)).map some ++ rest) =
      readFrom ⟨.array [] :: stack, .value⟩ ((print how depth (ofJson v)).map some ++ rest) := by
  obtain ⟨t, after, hopen, hscan⟩ := exists_scanToken_print how h depth hrest
  have hstep : step ⟨stack, .firstItem⟩ t = step ⟨.array [] :: stack, .value⟩ t := if_neg hopen
  rw [readFrom, readFrom, tokens?_scan hscan, Option.bind_map, Option.bind_map]
  refine congrArg (tokens? after).bind (funext fun ts => ?_)
  rw [Function.comp_apply, Function.comp_apply, run, run, hstep]

theorem readsBack {v : Json} (h : v.FloatFree) : ReadsBack how v := by
  induction h with
  | null => exact fun depth stack rest hrest => readFrom_scan (t := .null) rfl rfl
  | bool b =>
    intro depth stack rest hrest
    cases b with
    | true => exact readFrom_scan (t := .bool true) rfl rfl
    | false => exact readFrom_scan (t := .bool false) rfl rfl
  | int i => exact fun depth stack rest hrest => readFrom_scan (scanToken_ofInt i hrest) rfl
  | string s => exact fun depth stack rest hrest => readFrom_scan (scanToken_quote s rest) rfl
  | array items h ih =>
    intro depth stack rest hrest
    cases items with
    | nil => exact (readFrom_scan (t := .openArray) rfl rfl).trans (readFrom_scan (t := .closeArray) rfl rfl)
    | cons v items =>
      have hend := endsNumber_items how (depth + 1) (ofItems items)
        (endsNumber_newline how.layout depth (endsNumber_cons (c := ']') (by decide) rest))
      have hopen : step ⟨stack, .value⟩ .openArray = some ⟨stack, .firstItem⟩ := rfl
      rw [ofJson, ofItems, print]
      simp only [List.map_cons, List.map_nil, List.map_append, List.cons_append, List.nil_append,
        List.append_assoc]
      rw [readFrom_scan rfl hopen, readFrom_newline, readFrom_firstItem how (h v List.mem_cons_self) _ hend,
        ih v List.mem_cons_self _ _ _ hend]
      exact readFrom_items how (fun w hw => ih w (List.mem_cons_of_mem v hw)) depth _ [] _ rest
  | object members h ih =>
    intro depth stack rest hrest
    cases members with
    | nil => exact (readFrom_scan (t := .openObject) rfl rfl).trans (readFrom_scan (t := .closeObject) rfl rfl)
    | cons e members =>
      have hend := endsNumber_members how (depth + 1) (ofMembers members)
        (endsNumber_newline how.layout depth (endsNumber_cons (c := '\x7d') (by decide) rest))
      have hopen : step ⟨stack, .value⟩ .openObject = some ⟨stack, .firstKey⟩ := rfl
      have hkey : step ⟨stack, .firstKey⟩ (.string (some e.1)) = some ⟨stack, .colon [] (some e.1)⟩ := rfl
      rw [ofJson, ofMembers, print, quoteOptional]
      simp only [List.map_cons, List.map_nil, List.map_append, List.cons_append, List.nil_append,
        List.append_assoc]
      rw [readFrom_scan rfl hopen, readFrom_newline,
        readFrom_member how (ih e List.mem_cons_self) hkey (depth + 1) hend]
      exact readFrom_members how (fun d hd => ih d (List.mem_cons_of_mem e hd)) depth _ [] _ _ rest

theorem parse?_print {v : Json} (h : v.FloatFree) :
    parse? ((print how 0 (ofJson v)).map some) = some (ofJson v) := by
  have hread := readsBack how h 0 [] [] endsNumber_nil
  have hend : readFrom ⟨[], .done (ofJson v)⟩ [] = some ⟨[], .done (ofJson v)⟩ := by
    rw [readFrom, tokens?_nil]
    rfl
  rw [List.append_nil, hend] at hread
  obtain ⟨ts, htokens, hrun⟩ := Option.bind_eq_some_iff.1 hread
  rw [parse?, htokens, Option.bind_eq_bind, Option.bind_some, hrun]
  rfl

theorem ofString?_write (layout : Layout) {v : Json} (h : v.FloatFree) :
    ofString? (v.write layout) = some (ofJson v) := by
  rw [ofString?, Text.symbols, Json.write, String.toList_ofList, parse?_print _ h]

theorem ofBytes?_write (layout : Layout) {v : Json} (h : v.FloatFree) :
    ofBytes? (v.write layout).toUTF8 = some (ofJson v) := by
  rw [ofBytes?, Text.symbolsOfBytes_toUTF8, ← ofString?, ofString?_write layout h]

end JsonText

end NativeCatalogue
