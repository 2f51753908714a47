import Mathlib.Tactic.SplitIfs
import NativeCatalogue.Proofs.Json.Value
import NativeCatalogue.Yaml.Value

set_option autoImplicit false

namespace NativeCatalogue.Yaml

def Yields {α : Type} (p : α → Prop) (x : Following α) : Prop :=
  ∀ left a rest, x left = some (a, rest) → p a

section Yields

variable {α β : Type} {p : α → Prop} {q : β → Prop}

theorem yields_pure {a : α} (h : p a) : Yields p (pure a : Following α) := by
  intro left b rest he
  cases he
  exact h

theorem yields_failure : Yields p (failure : Following α) := by
  intro left a rest he
  cases he

theorem yields_lift {x : Option α} (h : ∀ a, x = some a → p a) : Yields p (liftM x : Following α) := by
  intro left a rest he
  cases x with
  | none => cases he
  | some b => cases he; exact h _ rfl

theorem yields_bind {x : Following α} {f : α → Following β} (hx : Yields p x)
    (hf : ∀ a, p a → Yields q (f a)) : Yields q (x >>= f) := by
  intro left b rest he
  obtain ⟨⟨a, between⟩, ha, hb⟩ := Option.bind_eq_some_iff.1 he
  exact hf a (hx left a between ha) between b rest hb

theorem yields_true (x : Following α) : Yields (fun _ => True) x :=
  fun _ _ _ _ => trivial

theorem yields_bind_any {x : Following α} {f : α → Following β} (hf : ∀ a, Yields q (f a)) :
    Yields q (x >>= f) :=
  yields_bind (yields_true x) fun a _ => hf a

theorem yields_mapM {f : α → Following β} {as : List α} (h : ∀ a ∈ as, Yields q (f a)) :
    Yields (fun bs => ∀ b ∈ bs, q b) (as.mapM f) := by
  induction as with
  | nil => exact yields_pure fun b hb => by cases hb
  | cons a as ih =>
    rw [List.mapM_cons]
    refine yields_bind (h a List.mem_cons_self) fun b hb => ?_
    refine yields_bind (ih fun c hc => h c (List.mem_cons_of_mem a hc)) fun bs hbs => ?_
    refine yields_pure fun c hc => ?_
    rcases List.mem_cons.1 hc with rfl | hc
    · exact hb
    · exact hbs c hc

end Yields

theorem readable_intValue? {i : Int} {v : Json} (h : intValue? i = some (some v)) : v.Readable := by
  unfold intValue? at h
  split at h
  · rename_i hi
    cases h
    rw [Bool.and_eq_true, decide_eq_true_eq, decide_eq_true_eq] at hi
    exact .int i hi.1 hi.2
  · split at h
    · cases h
    · cases h

theorem readable_float? {s : String} {v : Json} (h : float? s = some v) : v.Readable := by
  unfold float? at h
  split at h
  · cases h; exact .null
  · obtain ⟨bits, -, rfl⟩ := Option.map_eq_some_iff.1 h
    exact .float _

theorem readable_plainValue? {s : String} {v : Json} (h : plainValue? s = some v) : v.Readable := by
  unfold plainValue? at h
  split at h
  · cases h; exact .null
  · split at h
    · cases h; exact .bool _
    · split at h
      · rename_i value hvalue
        subst h
        obtain ⟨i, -, hi⟩ := Option.bind_eq_some_iff.1 hvalue
        exact readable_intValue? hi
      · split at h
        · cases h; exact .string s
        · cases h
          cases hfloat : float? s with
          | none => exact .string s
          | some v => exact readable_float? hfloat

theorem readable_scalarValue? {tag : Option TagText} {text : String} {plain : Bool} {v : Json}
    (h : scalarValue? tag text plain = some v) : v.Readable := by
  unfold scalarValue? at h
  split at h
  · split at h
    · exact readable_plainValue? h
    · cases h; exact .string text
  · split_ifs at h
    · obtain ⟨b, -, rfl⟩ := Option.map_eq_some_iff.1 h
      exact .bool b
    · obtain ⟨i, -, hi⟩ := Option.bind_eq_some_iff.1 (Option.join_eq_some_iff.1 h)
      exact readable_intValue? hi
    · exact readable_float? h
    · cases h; exact .null
    · cases h; exact .string text

theorem readable_ofMembers {members : List (String × Json)} (h : ∀ e ∈ members, e.2.Readable) :
    (Json.object (Json.ofMembers members)).Readable := by
  refine .object _ ?_ fun e he => h e (SortedMap.mem_of_mem_ofList he)
  rw [Json.ofMembers, Json.ofMembers, SortedMap.ofList_toList]

theorem yields_value (d : Document) (depth : Nat) (node : Node) :
    Yields Json.Readable (d.value depth node) := by
  induction depth generalizing node with
  | zero =>
    rw [Document.value]
    refine yields_bind_any fun target => ?_
    cases target with
    | «alias» anchor => exact yields_failure
    | scalar p text plain => exact yields_lift fun v hv => readable_scalarValue? hv
    | sequence p items => exact yields_failure
    | mapping p members => exact yields_failure
  | succ depth ih =>
    rw [Document.value]
    refine yields_bind_any fun target => ?_
    cases target with
    | «alias» anchor => exact yields_failure
    | scalar p text plain => exact yields_lift fun v hv => readable_scalarValue? hv
    | sequence p items =>
      dsimp only
      split
      · exact yields_failure
      · exact yields_bind (yields_mapM fun item _ => ih item) fun values hvalues =>
          yields_pure (.array values hvalues)
    | mapping p members =>
      dsimp only
      split
      · exact yields_failure
      · refine yields_bind (p := fun es => ∀ e ∈ es, e.2.Readable) (yields_mapM fun e _ => ?_)
          fun values hvalues => yields_pure (readable_ofMembers hvalues)
        refine yields_bind_any fun key => ?_
        cases key with
        | string key => exact yields_bind (ih e.2) fun v hv => yields_pure hv
        | _ => exact yields_failure

end NativeCatalogue.Yaml
