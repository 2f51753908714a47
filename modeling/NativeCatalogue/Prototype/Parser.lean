import NativeCatalogue.Prototype.Lexer
import NativeCatalogue.Vocabulary.Basic

/-!
Reading prototypes from tokens.

```text
prototype  := annotation* type IDENT '(' parameters? ')' annotation* ';'?
parameters := 'void' | parameter (',' parameter)*
parameter  := annotation* type IDENT?
type       := 'const'? WORD+ 'const'? ('*' 'const'?)*
annotation := ('since' | 'until' | 'cs_type') '(' payload ')' | 'cs_split' | 'cs_omit'
```

Each reader takes the tokens from a place on and returns what it read with the tokens after it. The
lemmas say how many tokens are left, which is why reading ends.
-/

set_option autoImplicit false

namespace NativeCatalogue

theorem bind_eq_ok {ε α β : Type} {x : Except ε α} {f : α → Except ε β} {b : β} :
    (x >>= f) = .ok b ↔ ∃ a, x = .ok a ∧ f a = .ok b := by
  cases x <;> simp [bind, Except.bind]

namespace Prototype

def unexpected (expected : Expectation) : List Token → DeclarationError
  | [] => .unexpectedEnd expected
  | t :: _ => .unexpectedToken expected (.ofList t.kind.text) t.start

def expect (kind : TokenKind) (expected : Expectation) : List Token →
    Except DeclarationError (Unit × List Token)
  | [] => .error (unexpected expected [])
  | t :: rest => if t.kind = kind then .ok ((), rest) else .error (unexpected expected (t :: rest))

def expectIdent (expected : Expectation) : List Token →
    Except DeclarationError ((String × Nat) × List Token)
  | [] => .error (unexpected expected [])
  | t :: rest =>
    match t.ident? with
    | some name =>
      if (AnnotationKind.ofKeyword? name).isNone then .ok ((name, t.start), rest)
      else .error (unexpected expected (t :: rest))
    | none => .error (unexpected expected (t :: rest))

def eatConst : List Token → Bool × List Token
  | [] => (false, [])
  | t :: rest => if t.ident? = some "const" then (true, rest) else (false, t :: rest)

/-- The text of a payload and the tokens after its closing parenthesis, inside so many open
    parentheses of the payload itself. -/
def readPayloadText : Nat → List Token → Except DeclarationError (List Char × List Token)
  | _, [] => .error (.unexpectedEnd .closePayload)
  | depth, t :: rest =>
    match t.kind, depth with
    | .closeParen, 0 => .ok (t.gap, rest)
    | .closeParen, depth + 1 => do
      let (text, after) ← readPayloadText depth rest
      return (t.gap ++ t.kind.text ++ text, after)
    | .openParen, depth => do
      let (text, after) ← readPayloadText (depth + 1) rest
      return (t.gap ++ t.kind.text ++ text, after)
    | _, depth => do
      let (text, after) ← readPayloadText depth rest
      return (t.gap ++ t.kind.text ++ text, after)

def readPayload (kind : AnnotationKind) (tokens : List Token) :
    Except DeclarationError (Option String × List Token) :=
  if kind.takesPayload then do
    let ((), inside) ← expect .openParen .openPayload tokens
    let (text, rest) ← readPayloadText 0 inside
    return (some (.ofList text), rest)
  else .ok (none, tokens)

theorem expect_length {kind : TokenKind} {expected : Expectation} {tokens rest : List Token}
    {u : Unit} (h : expect kind expected tokens = .ok (u, rest)) :
    rest.length < tokens.length := by
  unfold expect at h
  split at h
  · simp at h
  · split at h <;> simp at h
    simp [h]

theorem expectIdent_length {expected : Expectation} {tokens rest : List Token}
    {word : String × Nat} (h : expectIdent expected tokens = .ok (word, rest)) :
    rest.length < tokens.length := by
  unfold expectIdent at h
  split at h
  · simp at h
  · split at h
    · split at h <;> simp at h
      simp [h.2]
    · simp at h

theorem readPayloadText_length {depth : Nat} {tokens rest : List Token} {text : List Char}
    (h : readPayloadText depth tokens = .ok (text, rest)) : rest.length < tokens.length := by
  fun_induction readPayloadText depth tokens generalizing text with
  | case1 => simp at h
  | case2 t r => simp at h; simp [h.2]
  | case3 t r _ depth ih =>
    obtain ⟨⟨x, y⟩, h1, h2⟩ := bind_eq_ok.1 h
    simp [pure, Except.pure] at h2
    have := ih (h2.2 ▸ h1)
    simp; omega
  | case4 t r _ depth ih =>
    obtain ⟨⟨x, y⟩, h1, h2⟩ := bind_eq_ok.1 h
    simp [pure, Except.pure] at h2
    have := ih (h2.2 ▸ h1)
    simp; omega
  | case5 t r _ depth _ _ ih =>
    obtain ⟨⟨x, y⟩, h1, h2⟩ := bind_eq_ok.1 h
    simp [pure, Except.pure] at h2
    have := ih (h2.2 ▸ h1)
    simp; omega

theorem readPayload_length {kind : AnnotationKind} {tokens rest : List Token} {text : Option String}
    (h : readPayload kind tokens = .ok (text, rest)) : rest.length ≤ tokens.length := by
  unfold readPayload at h
  split at h
  · obtain ⟨⟨u, inside⟩, h1, h2⟩ := bind_eq_ok.1 h
    obtain ⟨⟨x, y⟩, h3, h4⟩ := bind_eq_ok.1 h2
    simp [pure, Except.pure] at h4
    have l1 := expect_length h1
    have l2 := readPayloadText_length h3
    rw [← h4.2]
    omega
  · simp at h; simp [h.2]

def readAnnotationsInto (set : AnnotationSet) (tokens : List Token) :
    Except DeclarationError (AnnotationSet × List Token) :=
  match tokens with
  | [] => .ok (set, [])
  | t :: rest =>
    match t.ident?.bind AnnotationKind.ofKeyword? with
    | none => .ok (set, t :: rest)
    | some kind =>
      match _h : readPayload kind rest with
      | .error e => .error e
      | .ok (text, after) =>
        match Annotation.make kind text with
        | .error cause => .error (.badPayload cause t.start)
        | .ok a => readAnnotationsInto (set.insert a) after
termination_by tokens.length
decreasing_by
  have := readPayload_length _h
  simp
  omega

def readAnnotations (tokens : List Token) : Except DeclarationError (AnnotationSet × List Token) :=
  readAnnotationsInto ∅ tokens

theorem readAnnotationsInto_length {set out : AnnotationSet} {tokens rest : List Token}
    (h : readAnnotationsInto set tokens = .ok (out, rest)) : rest.length ≤ tokens.length := by
  fun_induction readAnnotationsInto set tokens with
  | case1 => simp at h; simp [h.2]
  | case2 => simp at h; simp [← h.2]
  | case3 => simp at h
  | case4 => simp at h
  | case5 set t r kind _ text after hp a _ ih =>
    have l1 := readPayload_length hp
    have l2 := ih h
    simp; omega

/-- The words that a type name goes on with: as long as the last word is a modifier, it takes a
    builtin word that follows. -/
def readMoreWords (last : String) : List Token → List String × List Token
  | [] => ([], [])
  | t :: rest =>
    match t.ident? with
    | some word =>
      if Vocabulary.modifiers.contains last && Vocabulary.isBuiltin word then
        let (words, after) := readMoreWords word rest
        (word :: words, after)
      else ([], t :: rest)
    | none => ([], t :: rest)

def addStar (depth : UInt8) : UInt8 :=
  if depth = 255 then 255 else depth + 1

def readStars (depth : UInt8) (afterStar : Bool) : List Token → UInt8 × List Token
  | [] => (depth, [])
  | t :: rest =>
    if t.kind = .star then readStars (addStar depth) true rest
    else if afterStar && t.ident? = some "const" then readStars depth false rest
    else (depth, t :: rest)

def readType (tokens : List Token) : Except DeclarationError (TypeSpec × List Token) := do
  let (constBefore, tokens) := eatConst tokens
  let ((first, offset), tokens) ← expectIdent .typeName tokens
  let (more, tokens) := readMoreWords first tokens
  let name := " ".intercalate (first :: more)
  if (Vocabulary.find? (more.getLast?.getD first)).isNone then .error (.unknownType name offset)
  else
    let (constAfter, tokens) := eatConst tokens
    let (depth, tokens) := readStars 0 false tokens
    return (⟨name, constBefore || constAfter, depth⟩, tokens)

theorem eatConst_length (tokens : List Token) : (eatConst tokens).2.length ≤ tokens.length := by
  unfold eatConst
  split
  · simp
  · split <;> simp

theorem readMoreWords_length (last : String) (tokens : List Token) :
    (readMoreWords last tokens).2.length ≤ tokens.length := by
  fun_induction readMoreWords last tokens with
  | case1 => simp
  | case2 last t r word _ _ words after he ih => rw [he] at ih; simp at ih ⊢; omega
  | case3 => simp
  | case4 => simp

theorem readStars_length (depth : UInt8) (afterStar : Bool) (tokens : List Token) :
    (readStars depth afterStar tokens).2.length ≤ tokens.length := by
  fun_induction readStars depth afterStar tokens with
  | case1 => simp
  | case2 _ _ t r _ ih => simp; omega
  | case3 _ _ t r _ _ ih => simp; omega
  | case4 => simp

theorem readType_length {tokens rest : List Token} {t : TypeSpec}
    (h : readType tokens = .ok (t, rest)) : rest.length < tokens.length := by
  unfold readType at h
  obtain ⟨⟨⟨first, offset⟩, toks⟩, h1, h2⟩ := bind_eq_ok.1 h
  have l1 : toks.length < (eatConst tokens).2.length := expectIdent_length h1
  have l0 := eatConst_length tokens
  have l2 := readMoreWords_length first toks
  dsimp only at h2
  split at h2
  · simp at h2
  · simp [pure, Except.pure] at h2
    have l3 := eatConst_length (readMoreWords first toks).2
    have l4 := readStars_length 0 false (eatConst (readMoreWords first toks).2).2
    rw [← h2.2]
    omega

def readParameterName (tokens : List Token) : Except DeclarationError (String × List Token) :=
  match tokens.head?.bind Token.ident? with
  | some _ => do
    let ((name, _), rest) ← expectIdent .parameterName tokens
    return (name, rest)
  | none => .ok ("", tokens)

def readParameter (tokens : List Token) : Except DeclarationError (Parameter × List Token) := do
  let (notes, tokens) ← readAnnotations tokens
  let (type, tokens) ← readType tokens
  let (name, tokens) ← readParameterName tokens
  return (⟨name, type, notes⟩, tokens)

theorem readParameterName_length {tokens rest : List Token} {name : String}
    (h : readParameterName tokens = .ok (name, rest)) : rest.length ≤ tokens.length := by
  unfold readParameterName at h
  split at h
  · obtain ⟨⟨⟨x, y⟩, r⟩, h1, h2⟩ := bind_eq_ok.1 h
    simp [pure, Except.pure] at h2
    have := expectIdent_length h1
    rw [← h2.2]
    omega
  · simp at h; simp [h.2]

theorem readParameter_length {tokens rest : List Token} {p : Parameter}
    (h : readParameter tokens = .ok (p, rest)) : rest.length < tokens.length := by
  unfold readParameter at h
  obtain ⟨⟨a, t1⟩, h1, h⟩ := bind_eq_ok.1 h
  obtain ⟨⟨b, t2⟩, h2, h⟩ := bind_eq_ok.1 h
  obtain ⟨⟨c, t3⟩, h3, h⟩ := bind_eq_ok.1 h
  simp [pure, Except.pure] at h
  have l1 := readAnnotationsInto_length h1
  have l2 := readType_length h2
  have l3 := readParameterName_length h3
  rw [← h.2]
  omega

def readParametersFrom (tokens : List Token) :
    Except DeclarationError (List Parameter × List Token) :=
  match _h : readParameter tokens with
  | .error e => .error e
  | .ok (p, rest) =>
    match rest with
    | [] => .ok ([p], [])
    | t :: more =>
      if t.kind = .comma then
        match readParametersFrom more with
        | .error e => .error e
        | .ok (others, after) => .ok (p :: others, after)
      else .ok ([p], t :: more)
termination_by tokens.length
decreasing_by
  have := readParameter_length _h
  simp at this
  omega

/-- Reads the parameters between the parentheses; `void` alone stands for none. -/
def readParameters : List Token → Except DeclarationError (List Parameter × List Token)
  | [] => readParametersFrom []
  | t :: rest =>
    if t.kind = .closeParen then .ok ([], t :: rest)
    else if t.ident? = some "void" && (rest.head?.map Token.kind) = some .closeParen then
      .ok ([], rest)
    else readParametersFrom (t :: rest)

def eatSemicolon : List Token → List Token
  | [] => []
  | t :: rest => if t.kind = .semicolon then rest else t :: rest

def readPrototype (tokens : List Token) : Except DeclarationError (Prototype × List Token) := do
  let (before, tokens) ← readAnnotations tokens
  let (result, tokens) ← readType tokens
  let ((name, _), tokens) ← expectIdent .functionName tokens
  let ((), tokens) ← expect .openParen .openParameters tokens
  let (ps, tokens) ← readParameters tokens
  let ((), tokens) ← expect .closeParen .closeParameters tokens
  let (after, tokens) ← readAnnotations tokens
  return (⟨name, result, ps, before.insertAll after.items⟩, eatSemicolon tokens)

theorem readParametersFrom_length {tokens rest : List Token} {ps : List Parameter}
    (h : readParametersFrom tokens = .ok (ps, rest)) : rest.length ≤ tokens.length := by
  fun_induction readParametersFrom tokens generalizing ps rest with
  | case1 => simp at h
  | case2 tokens p hp => simp at h; simp [h.2]
  | case3 => simp at h
  | case4 tokens p t more _ _ others after ho hp ih =>
    simp at h
    have l1 := readParameter_length hp
    have l2 := ih ho
    simp at l1
    rw [← h.2]
    omega
  | case5 tokens p t more hp _ =>
    simp at h
    have l1 := readParameter_length hp
    rw [← h.2]
    omega

theorem readParameters_length {tokens rest : List Token} {ps : List Parameter}
    (h : readParameters tokens = .ok (ps, rest)) : rest.length ≤ tokens.length := by
  unfold readParameters at h
  split at h
  · exact readParametersFrom_length h
  · split at h
    · simp at h; simp [← h.2]
    · split at h
      · simp at h; simp [← h.2]
      · exact readParametersFrom_length h

theorem eatSemicolon_length (tokens : List Token) :
    (eatSemicolon tokens).length ≤ tokens.length := by
  unfold eatSemicolon
  split
  · simp
  · split <;> simp

theorem readPrototype_length {tokens rest : List Token} {p : Prototype}
    (h : readPrototype tokens = .ok (p, rest)) : rest.length < tokens.length := by
  unfold readPrototype at h
  obtain ⟨⟨a, t1⟩, h1, h⟩ := bind_eq_ok.1 h
  obtain ⟨⟨b, t2⟩, h2, h⟩ := bind_eq_ok.1 h
  obtain ⟨⟨⟨c, o⟩, t3⟩, h3, h⟩ := bind_eq_ok.1 h
  obtain ⟨⟨⟨⟩, t4⟩, h4, h⟩ := bind_eq_ok.1 h
  obtain ⟨⟨d, t5⟩, h5, h⟩ := bind_eq_ok.1 h
  obtain ⟨⟨⟨⟩, t6⟩, h6, h⟩ := bind_eq_ok.1 h
  obtain ⟨⟨e, t7⟩, h7, h⟩ := bind_eq_ok.1 h
  simp [pure, Except.pure] at h
  have l1 := readAnnotationsInto_length h1
  have l2 := readType_length h2
  have l3 := expectIdent_length h3
  have l4 := expect_length h4
  have l5 := readParameters_length h5
  have l6 := expect_length h6
  have l7 := readAnnotationsInto_length h7
  have l8 := eatSemicolon_length t7
  rw [← h.2]
  omega

def readPrototypes (tokens : List Token) : Except DeclarationError (List Prototype) :=
  match tokens with
  | [] => .ok []
  | t :: more =>
    match _h : readPrototype (t :: more) with
    | .error e => .error e
    | .ok (p, rest) =>
      match readPrototypes rest with
      | .error e => .error e
      | .ok others => .ok (p :: others)
termination_by tokens.length
decreasing_by exact readPrototype_length _h

def parseAll (src : String) : Except DeclarationError (List Prototype) := do
  readPrototypes (← tokenize src)

def parse (src : String) : Except DeclarationError Prototype := do
  match ← parseAll src with
  | [p] => .ok p
  | ps => .error (.functionCount ps.length)

end Prototype

end NativeCatalogue
