import NativeCatalogue.Proofs.Prototype.Declarations
import NativeCatalogue.Proofs.Prototype.Gaps

set_option autoImplicit false

namespace NativeCatalogue

namespace Prototype

def moved {α : Type} (n : Nat) :
    Except DeclarationError (α × List Token) → Except DeclarationError (α × List Token)
  | .ok (x, rest) => .ok (x, rest.map (Token.move n))
  | .error e => .error (e.shift n)

theorem bind_moved {α β : Type} {n : Nat} {x : Except DeclarationError (α × List Token)}
    {f : α × List Token → Except DeclarationError (β × List Token)}
    (h : ∀ a rest, f (a, rest.map (Token.move n)) = moved n (f (a, rest))) :
    moved n x >>= f = moved n (x >>= f) := by
  cases x with
  | error e => rfl
  | ok result => exact h result.1 result.2

section Readers

variable (n : Nat)

theorem kind_move (t : Token) : (t.move n).kind = t.kind := rfl

theorem ident?_move (t : Token) : (t.move n).ident? = t.ident? := rfl

theorem unexpected_move (expected : Expectation) (ts : List Token) :
    unexpected expected (ts.map (Token.move n)) = (unexpected expected ts).shift n := by
  cases ts <;> rfl

theorem expect_move (kind : TokenKind) (expected : Expectation) (ts : List Token) :
    expect kind expected (ts.map (Token.move n)) = moved n (expect kind expected ts) := by
  cases ts with
  | nil => rfl
  | cons t rest =>
    have herror := unexpected_move n expected (t :: rest)
    rw [List.map_cons] at herror
    rw [List.map_cons, expect, expect, herror, kind_move]
    split <;> rfl

theorem expectIdent_move (expected : Expectation) (ts : List Token) :
    expectIdent expected (ts.map (Token.move n)) =
      (moved n (expectIdent expected ts)).map fun ((word, offset), rest) => ((word, offset + n), rest) := by
  cases ts with
  | nil => rfl
  | cons t rest =>
    have herror := unexpected_move n expected (t :: rest)
    rw [List.map_cons] at herror
    rw [List.map_cons, expectIdent, expectIdent, herror, ident?_move]
    cases t.ident? with
    | none => rfl
    | some word =>
      dsimp only
      split <;> rfl

theorem eatConst_move (ts : List Token) :
    eatConst (ts.map (Token.move n)) = ((eatConst ts).1, (eatConst ts).2.map (Token.move n)) := by
  cases ts with
  | nil => rfl
  | cons t rest =>
    rw [List.map_cons, eatConst, eatConst, ident?_move]
    split <;> rfl

theorem readPayloadText_move (depth : Nat) (ts : List Token) :
    readPayloadText depth (ts.map (Token.move n)) = moved n (readPayloadText depth ts) := by
  induction ts generalizing depth with
  | nil => rfl
  | cons t rest ih =>
    obtain ⟨gap, kind, start⟩ := t
    cases kind with
    | closeParen =>
      cases depth with
      | zero => rfl
      | succ depth =>
        simp only [List.map_cons, Token.move, readPayloadText, ih]
        exact bind_moved fun _ _ => rfl
    | _ =>
      simp only [List.map_cons, Token.move, readPayloadText, ih]
      exact bind_moved fun _ _ => rfl

theorem readPayload_move (kind : AnnotationKind) (ts : List Token) :
    readPayload kind (ts.map (Token.move n)) = moved n (readPayload kind ts) := by
  unfold readPayload
  split
  · rw [expect_move]
    refine bind_moved fun _ inside => ?_
    dsimp only
    rw [readPayloadText_move]
    exact bind_moved fun _ _ => rfl
  · rfl

theorem readAnnotationsInto_move (set : AnnotationSet) (ts : List Token) :
    readAnnotationsInto set (ts.map (Token.move n)) = moved n (readAnnotationsInto set ts) := by
  induction hlength : ts.length using Nat.strongRecOn generalizing set ts with
  | _ length ih =>
    cases ts with
    | nil =>
      rw [List.map_nil, readAnnotationsInto]
      rfl
    | cons t rest =>
      cases hkeyword : t.ident?.bind AnnotationKind.ofKeyword? with
      | none =>
        rw [List.map_cons, readAnnotationsInto_other (t := t.move n) hkeyword,
          readAnnotationsInto_other hkeyword]
        rfl
      | some kind =>
        rw [List.map_cons, readAnnotationsInto_keyword (t := t.move n) hkeyword,
          readAnnotationsInto_keyword hkeyword, readPayload_move]
        cases hpayload : readPayload kind rest with
        | error e => rfl
        | ok result =>
          obtain ⟨text, after⟩ := result
          have hshort := readPayload_length hpayload
          rw [List.length_cons] at hlength
          have hmore := fun a => ih after.length (by omega) (set.insert a) after rfl
          simp only [moved, bind, Except.bind]
          cases Annotation.make kind text with
          | error cause => rfl
          | ok a => exact hmore a

theorem readAnnotations_move (ts : List Token) :
    readAnnotations (ts.map (Token.move n)) = moved n (readAnnotations ts) :=
  readAnnotationsInto_move n ∅ ts

theorem readMoreWords_move (last : String) (ts : List Token) :
    readMoreWords last (ts.map (Token.move n)) =
      ((readMoreWords last ts).1, (readMoreWords last ts).2.map (Token.move n)) := by
  induction ts generalizing last with
  | nil => rfl
  | cons t rest ih =>
    rw [List.map_cons, readMoreWords, readMoreWords, ident?_move]
    cases t.ident? with
    | none => rfl
    | some word =>
      dsimp only
      split
      · rw [ih]
      · rfl

theorem readStars_move (depth : UInt8) (afterStar : Bool) (ts : List Token) :
    readStars depth afterStar (ts.map (Token.move n)) =
      ((readStars depth afterStar ts).1, (readStars depth afterStar ts).2.map (Token.move n)) := by
  induction ts generalizing depth afterStar with
  | nil => rfl
  | cons t rest ih =>
    rw [List.map_cons, readStars, readStars, kind_move, ident?_move]
    split
    · exact ih (addStar depth) true
    · split
      · exact ih depth false
      · rfl

theorem readType_move (ts : List Token) :
    readType (ts.map (Token.move n)) = moved n (readType ts) := by
  unfold readType
  rw [eatConst_move]
  dsimp only
  rw [expectIdent_move]
  cases expectIdent .typeName (eatConst ts).2 with
  | error e => rfl
  | ok result =>
    obtain ⟨⟨first, offset⟩, rest⟩ := result
    simp only [moved, Except.map, bind, Except.bind, readMoreWords_move, eatConst_move, readStars_move]
    split <;> rfl

theorem readParameterName_move (ts : List Token) :
    readParameterName (ts.map (Token.move n)) = moved n (readParameterName ts) := by
  unfold readParameterName
  have hhead : (ts.map (Token.move n)).head?.bind Token.ident? = ts.head?.bind Token.ident? := by
    cases ts <;> rfl
  rw [hhead, expectIdent_move]
  split
  · cases expectIdent .parameterName ts <;> rfl
  · rfl

theorem readParameter_move (ts : List Token) :
    readParameter (ts.map (Token.move n)) = moved n (readParameter ts) := by
  unfold readParameter
  rw [readAnnotations_move]
  refine bind_moved fun notes rest => ?_
  dsimp only
  rw [readType_move]
  refine bind_moved fun type rest => ?_
  dsimp only
  rw [readParameterName_move]
  exact bind_moved fun _ _ => rfl

theorem readParametersFrom_move (ts : List Token) :
    readParametersFrom (ts.map (Token.move n)) = moved n (readParametersFrom ts) := by
  induction hlength : ts.length using Nat.strongRecOn generalizing ts with
  | _ length ih =>
    rw [readParametersFrom_eq, readParametersFrom_eq, readParameter_move]
    cases hparameter : readParameter ts with
    | error e => rfl
    | ok result =>
      obtain ⟨p, rest⟩ := result
      have hshort := readParameter_length hparameter
      cases rest with
      | nil => rfl
      | cons t more =>
        rw [List.length_cons] at hshort
        have hmore := ih more.length (by omega) more rfl
        simp only [moved, bind, Except.bind, List.map_cons, kind_move, hmore]
        split
        · cases readParametersFrom more <;> rfl
        · rfl

theorem readParameters_move (ts : List Token) :
    readParameters (ts.map (Token.move n)) = moved n (readParameters ts) := by
  cases ts with
  | nil => exact readParametersFrom_move n []
  | cons t rest =>
    have hparameters := readParametersFrom_move n (t :: rest)
    have hnext : (rest.map (Token.move n)).head?.map Token.kind = rest.head?.map Token.kind := by
      cases rest <;> rfl
    rw [List.map_cons] at hparameters ⊢
    rw [readParameters, readParameters, hparameters, hnext, kind_move, ident?_move]
    split
    · rfl
    · split <;> rfl

theorem eatSemicolon_move (ts : List Token) :
    eatSemicolon (ts.map (Token.move n)) = (eatSemicolon ts).map (Token.move n) := by
  cases ts with
  | nil => rfl
  | cons t rest =>
    rw [List.map_cons, eatSemicolon, eatSemicolon, kind_move]
    split <;> rfl

theorem readPrototype_move (ts : List Token) :
    readPrototype (ts.map (Token.move n)) = moved n (readPrototype ts) := by
  unfold readPrototype
  rw [readAnnotations_move]
  refine bind_moved fun before rest => ?_
  dsimp only
  rw [readType_move]
  refine bind_moved fun result rest => ?_
  dsimp only
  rw [expectIdent_move]
  cases expectIdent .functionName rest with
  | error e => rfl
  | ok named =>
    obtain ⟨⟨name, offset⟩, rest⟩ := named
    change (expect .openParen .openParameters (rest.map (Token.move n)) >>= _) = _
    rw [expect_move]
    refine bind_moved fun _ rest => ?_
    dsimp only
    rw [readParameters_move]
    refine bind_moved fun parameters rest => ?_
    dsimp only
    rw [expect_move]
    refine bind_moved fun _ rest => ?_
    dsimp only
    rw [readAnnotations_move]
    refine bind_moved fun after rest => ?_
    dsimp only
    rw [eatSemicolon_move]
    rfl

theorem readPrototypes_move (ts : List Token) :
    readPrototypes (ts.map (Token.move n)) = (readPrototypes ts).mapError (.shift n) := by
  induction hlength : ts.length using Nat.strongRecOn generalizing ts with
  | _ length ih =>
    cases ts with
    | nil =>
      rw [List.map_nil, readPrototypes]
      rfl
    | cons t rest =>
      have hprototype := readPrototype_move n (t :: rest)
      rw [List.map_cons] at hprototype ⊢
      rw [readPrototypes_cons, readPrototypes_cons, hprototype]
      cases hread : readPrototype (t :: rest) with
      | error e => rfl
      | ok result =>
        obtain ⟨p, after⟩ := result
        have hmore := ih after.length (hlength ▸ readPrototype_length hread) after rfl
        change (readPrototypes (after.map (Token.move n))).map (p :: ·) =
          ((readPrototypes after).map (p :: ·)).mapError (.shift n)
        rw [hmore]
        cases readPrototypes after <;> rfl

end Readers

theorem readAnnotationsInto_regap (set : AnnotationSet) (t : Token) (gap : List Char)
    (ts : List Token) :
    readAnnotationsInto set ({ t with gap } :: ts) =
      if (t.ident?.bind AnnotationKind.ofKeyword?).isSome then readAnnotationsInto set (t :: ts)
      else .ok (set, { t with gap } :: ts) := by
  cases hkeyword : t.ident?.bind AnnotationKind.ofKeyword? with
  | none => exact readAnnotationsInto_other (t := { t with gap }) hkeyword set ts
  | some kind =>
    rw [readAnnotationsInto_keyword (t := { t with gap }) hkeyword, readAnnotationsInto_keyword hkeyword]
    rfl

theorem readType_regap (t : Token) (gap : List Char) (ts : List Token) :
    readType ({ t with gap } :: ts) = readType (t :: ts) := by
  have hword : expectIdent .typeName ({ t with gap } :: ts) = expectIdent .typeName (t :: ts) := rfl
  by_cases hconst : t.ident? = some "const"
  · have heat : eatConst ({ t with gap } :: ts) = eatConst (t :: ts) :=
      (if_pos hconst).trans (if_pos hconst).symm
    unfold readType
    rw [heat]
  · have heat : eatConst ({ t with gap } :: ts) = (false, { t with gap } :: ts) := if_neg hconst
    unfold readType
    rw [heat, eatConst, if_neg hconst]
    dsimp only
    rw [hword]

theorem readPrototype_padHead (gap : List Char) (ts : List Token) :
    readPrototype (padHead gap ts) = readPrototype ts := by
  cases ts with
  | nil => rfl
  | cons t rest =>
    unfold readPrototype readAnnotations
    rw [padHead, readAnnotationsInto_regap]
    cases hkeyword : t.ident?.bind AnnotationKind.ofKeyword? with
    | some kind => rfl
    | none =>
      rw [readAnnotationsInto_other hkeyword]
      change (readType ({ t with gap := gap ++ t.gap } :: rest) >>= _) = (readType (t :: rest) >>= _)
      rw [readType_regap]

theorem readPrototypes_padHead (gap : List Char) (ts : List Token) :
    readPrototypes (padHead gap ts) = readPrototypes ts := by
  cases ts with
  | nil => rfl
  | cons t rest =>
    have hprototype := readPrototype_padHead gap (t :: rest)
    rw [padHead] at hprototype ⊢
    rw [readPrototypes_cons, readPrototypes_cons, hprototype]

end Prototype

end NativeCatalogue
