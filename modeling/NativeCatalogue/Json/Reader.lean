import NativeCatalogue.Json.Text
import NativeCatalogue.Text.Basic

/-!
Reading JSON texts. Symbols become tokens, and a machine with a stack of open brackets builds the
text from the tokens, so that reading is one pass at each level and nesting costs nothing. A byte
that belongs to no character may stand in a string, which then has no value.
-/

set_option autoImplicit false

namespace NativeCatalogue.JsonText

open Text (Symbol)

inductive Token where
  | openArray
  | closeArray
  | openObject
  | closeObject
  | comma
  | colon
  | null
  | bool (b : Bool)
  | number (n : Numeral)
  | string (s : Option String)
  deriving DecidableEq

def isDigit (x : Symbol) : Bool :=
  x.any fun c => '0' ≤ c && c ≤ '9'

def leadingDigits (cs : List Symbol) : List Char :=
  (cs.takeWhile isDigit).filterMap id

def afterDigits (cs : List Symbol) : List Symbol :=
  cs.dropWhile isDigit

def isSpace (x : Symbol) : Bool :=
  x.any fun c => c = ' ' || c = '\t' || c = '\n' || c = '\r'

def hexValue? (x : Symbol) : Option Nat := do
  let c ← x
  if '0' ≤ c && c ≤ '9' then some (c.toNat - '0'.toNat)
  else if 'a' ≤ c && c ≤ 'f' then some (c.toNat - 'a'.toNat + 10)
  else if 'A' ≤ c && c ≤ 'F' then some (c.toNat - 'A'.toNat + 10)
  else none

def escapeChar? (c : Char) : Option Char :=
  match c with
  | '"' => some '"'
  | '\\' => some '\\'
  | '/' => some '/'
  | 'b' => some '\x08'
  | 'f' => some '\x0c'
  | 'n' => some '\n'
  | 'r' => some '\r'
  | 't' => some '\t'
  | _ => none

/-- A string's units: characters, the code units of numeric escapes, and bytes that belong to no
    character. -/
inductive StringUnit where
  | char (c : Char)
  | code (n : Nat)
  | stray

def plainUnit? : Symbol → Option StringUnit
  | none => some .stray
  | some c => if c.toNat < 0x20 || c = '\\' then none else some (.char c)

def scanString : List Symbol → Option (List StringUnit × List Symbol)
  | [] => none
  | some '"' :: rest => some ([], rest)
  | some '\\' :: some 'u' :: a :: b :: c :: d :: rest => do
    let a ← hexValue? a
    let b ← hexValue? b
    let c ← hexValue? c
    let d ← hexValue? d
    let (units, after) ← scanString rest
    return (.code (((a * 16 + b) * 16 + c) * 16 + d) :: units, after)
  | some '\\' :: e :: rest => do
    let c ← escapeChar? (← e)
    let (units, after) ← scanString rest
    return (.char c :: units, after)
  | x :: rest => do
    let unit ← plainUnit? x
    let (units, after) ← scanString rest
    return (unit :: units, after)

/-- The characters of units; the two halves of a surrogate pair make one character, and a half
    alone makes none, nor does a stray byte. -/
def unitChars? : List StringUnit → Option (List Char)
  | [] => some []
  | .stray :: _ => none
  | .char c :: rest => (unitChars? rest).map (c :: ·)
  | .code high :: .code low :: rest =>
    if 0xD800 ≤ high && high ≤ 0xDBFF then
      if 0xDC00 ≤ low && low ≤ 0xDFFF then
        (unitChars? rest).map (Char.ofNat (0x10000 + (high - 0xD800) * 0x400 + (low - 0xDC00)) :: ·)
      else none
    else if 0xDC00 ≤ high && high ≤ 0xDFFF then none
    else (unitChars? (.code low :: rest)).map (Char.ofNat high :: ·)
  | .code n :: rest =>
    if 0xD800 ≤ n && n ≤ 0xDFFF then none
    else (unitChars? rest).map (Char.ofNat n :: ·)

def scanSign : List Symbol → Bool × List Symbol
  | some '+' :: rest => (false, rest)
  | some '-' :: rest => (true, rest)
  | rest => (false, rest)

def scanExponent : List Symbol → Option (Option (Bool × List Char) × List Symbol)
  | [] => some (none, [])
  | e :: rest =>
    if e = some 'e' || e = some 'E' then
      let (negative, digits) := scanSign rest
      let ds := leadingDigits digits
      if ds = [] then none else some (some (negative, ds), afterDigits digits)
    else some (none, e :: rest)

def scanFraction : List Symbol → Option (List Char × List Symbol)
  | some '.' :: rest =>
    let ds := leadingDigits rest
    if ds = [] then none else some (ds, afterDigits rest)
  | rest => some ([], rest)

/-- A number without its sign. A number of several digits does not start with zero. -/
def scanNumber (negative : Bool) (cs : List Symbol) : Option (Numeral × List Symbol) := do
  let whole := leadingDigits cs
  if whole = [] || (whole.head? = some '0' && whole.length ≠ 1) then none
  else do
    let (fraction, afterFraction) ← scanFraction (afterDigits cs)
    let (exponent, rest) ← scanExponent afterFraction
    return (⟨negative, whole, fraction, exponent⟩, rest)

def afterWord? (word : List Char) (cs : List Symbol) : Option (List Symbol) :=
  if (word.map some).isPrefixOf cs then some (cs.drop word.length) else none

def scanTokenAt (c : Char) (rest : List Symbol) : Option (Token × List Symbol) :=
  match c with
  | '[' => some (.openArray, rest)
  | ']' => some (.closeArray, rest)
  | '\x7b' => some (.openObject, rest)
  | '\x7d' => some (.closeObject, rest)
  | ',' => some (.comma, rest)
  | ':' => some (.colon, rest)
  | 'n' => (afterWord? ['u', 'l', 'l'] rest).map (.null, ·)
  | 't' => (afterWord? ['r', 'u', 'e'] rest).map (.bool true, ·)
  | 'f' => (afterWord? ['a', 'l', 's', 'e'] rest).map (.bool false, ·)
  | '"' =>
    (scanString rest).map fun (units, after) => (.string ((unitChars? units).map .ofList), after)
  | '-' => (scanNumber true rest).map fun (n, after) => (.number n, after)
  | c => (scanNumber false (some c :: rest)).map fun (n, after) => (.number n, after)

def scanToken : List Symbol → Option (Token × List Symbol)
  | some c :: rest => scanTokenAt c rest
  | _ => none

theorem scanString_length {cs : List Symbol} {units : List StringUnit} {rest : List Symbol}
    (h : scanString cs = some (units, rest)) : rest.length < cs.length := by
  fun_induction scanString cs generalizing units with
  | case1 => simp at h
  | case2 r => simp at h; simp [h.2]
  | case3 a b c d r ih =>
    simp only [Option.bind_eq_bind, Option.bind_eq_some_iff, Option.pure_def] at h
    obtain ⟨_, _, _, _, _, _, _, _, ⟨u, v⟩, hu, hv⟩ := h
    simp at hv
    have := ih (hv.2 ▸ hu)
    simp; omega
  | case4 e r _ ih =>
    simp only [Option.bind_eq_bind, Option.bind_eq_some_iff, Option.pure_def] at h
    obtain ⟨_, _, _, _, ⟨u, v⟩, hu, hv⟩ := h
    simp at hv
    have := ih (hv.2 ▸ hu)
    simp; omega
  | case5 x r _ _ _ ih =>
    simp only [Option.bind_eq_bind, Option.bind_eq_some_iff, Option.pure_def] at h
    obtain ⟨_, _, ⟨u, v⟩, hu, hv⟩ := h
    simp at hv
    have := ih (hv.2 ▸ hu)
    simp; omega

theorem length_dropWhile_le {α : Type} (p : α → Bool) (xs : List α) :
    (xs.dropWhile p).length ≤ xs.length :=
  (List.dropWhile_sublist p).length_le

theorem length_afterDigits_le (cs : List Symbol) : (afterDigits cs).length ≤ cs.length :=
  length_dropWhile_le isDigit cs

theorem length_afterDigits_lt {cs : List Symbol} (h : leadingDigits cs ≠ []) :
    (afterDigits cs).length < cs.length := by
  have hne : cs.takeWhile isDigit ≠ [] := by
    intro h0
    exact h (by simp [leadingDigits, h0])
  have hsum : (cs.takeWhile isDigit).length + (cs.dropWhile isDigit).length = cs.length := by
    rw [← List.length_append, List.takeWhile_append_dropWhile]
  have := List.length_pos_iff.2 hne
  unfold afterDigits
  omega

theorem scanFraction_length {fraction : List Char} {cs rest : List Symbol}
    (h : scanFraction cs = some (fraction, rest)) : rest.length ≤ cs.length := by
  unfold scanFraction at h
  split at h
  · rename_i r
    have := length_afterDigits_le r
    dsimp only at h
    split at h
    · simp at h
    · simp at h; simp [← h.2]; omega
  · simp at h; simp [h.2]

theorem scanSign_length (cs : List Symbol) : (scanSign cs).2.length ≤ cs.length := by
  unfold scanSign
  split <;> simp

theorem scanExponent_length {cs rest : List Symbol} {e : Option (Bool × List Char)}
    (h : scanExponent cs = some (e, rest)) : rest.length ≤ cs.length := by
  unfold scanExponent at h
  split at h
  · simp at h; simp [h.2]
  · rename_i c r
    split at h
    · have h1 := scanSign_length r
      have h2 := length_afterDigits_le (scanSign r).2
      dsimp only at h
      split at h
      · simp at h
      · simp at h; simp [← h.2]; omega
    · simp at h; simp [← h.2]

theorem scanNumber_length {negative : Bool} {cs rest : List Symbol} {n : Numeral}
    (h : scanNumber negative cs = some (n, rest)) : rest.length < cs.length := by
  unfold scanNumber at h
  dsimp only at h
  split at h
  · simp at h
  · rename_i hw
    simp only [Option.bind_eq_bind, Option.bind_eq_some_iff, Option.pure_def] at h
    obtain ⟨⟨f, r1⟩, h1, ⟨e, r2⟩, h2, h3⟩ := h
    simp at h3
    have l1 := scanFraction_length h1
    have l2 := scanExponent_length h2
    have l3 : (afterDigits cs).length < cs.length :=
      length_afterDigits_lt fun h0 => by simp [h0] at hw
    rw [← h3.2]
    simp only at l1 l2
    omega

theorem afterWord?_length {word : List Char} {cs rest : List Symbol}
    (h : afterWord? word cs = some rest) : rest.length ≤ cs.length := by
  unfold afterWord? at h
  split at h
  · simp at h; simp [← h]
  · simp at h

theorem scanTokenAt_length {c : Char} {cs rest : List Symbol} {t : Token}
    (h : scanTokenAt c cs = some (t, rest)) : rest.length ≤ cs.length := by
  unfold scanTokenAt at h
  split at h
  case h_7 | h_8 | h_9 =>
    obtain ⟨r, hr, ht⟩ := Option.map_eq_some_iff.1 h
    have := afterWord?_length hr
    simp at ht; simp [← ht.2]; omega
  case h_10 =>
    obtain ⟨⟨u, v⟩, hs, ht⟩ := Option.map_eq_some_iff.1 h
    have := scanString_length hs
    simp at ht; simp [← ht.2]; omega
  case h_11 =>
    obtain ⟨⟨u, v⟩, hs, ht⟩ := Option.map_eq_some_iff.1 h
    have := scanNumber_length hs
    simp at ht; simp [← ht.2]; omega
  case h_12 =>
    obtain ⟨⟨u, v⟩, hs, ht⟩ := Option.map_eq_some_iff.1 h
    have := scanNumber_length hs
    simp at this
    simp at ht; simp [← ht.2]; omega
  all_goals (simp at h; simp [← h.2])

theorem scanToken_length {cs rest : List Symbol} {t : Token}
    (h : scanToken cs = some (t, rest)) : rest.length < cs.length := by
  unfold scanToken at h
  split at h
  · have := scanTokenAt_length h
    simp; omega
  · simp at h

def tokens? (cs : List Symbol) : Option (List Token) :=
  match _h : cs.dropWhile isSpace with
  | [] => some []
  | c :: rest =>
    match _hs : scanToken (c :: rest) with
    | none => none
    | some (token, after) => (tokens? after).map (token :: ·)
termination_by cs.length
decreasing_by
  have h1 := scanToken_length _hs
  have h2 := length_dropWhile_le isSpace cs
  rw [_h] at h2
  omega

/-- An array or object that is not closed yet; what it holds already comes last first. -/
inductive Frame where
  | array (items : List JsonText)
  | object (members : List (Option String × JsonText)) (key : Option String)

inductive Mode where
  | value
  | firstItem
  | firstKey
  /-- A key after a comma; the members so far come last first. -/
  | key (members : List (Option String × JsonText))
  | colon (members : List (Option String × JsonText)) (key : Option String)
  | done (value : JsonText)

structure State where
  stack : List Frame
  mode : Mode

def startValue (stack : List Frame) : Token → Option State
  | .openArray => some ⟨stack, .firstItem⟩
  | .openObject => some ⟨stack, .firstKey⟩
  | .null => some ⟨stack, .done .null⟩
  | .bool b => some ⟨stack, .done (.bool b)⟩
  | .number n => some ⟨stack, .done (.number n)⟩
  | .string s => some ⟨stack, .done (.string s)⟩
  | _ => none

def step (state : State) (token : Token) : Option State :=
  match state.mode with
  | .value => startValue state.stack token
  | .firstItem =>
    if token = .closeArray then some ⟨state.stack, .done (.array [])⟩
    else startValue (.array [] :: state.stack) token
  | .firstKey =>
    match token with
    | .closeObject => some ⟨state.stack, .done (.object [])⟩
    | .string key => some ⟨state.stack, .colon [] key⟩
    | _ => none
  | .key members =>
    match token with
    | .string key => some ⟨state.stack, .colon members key⟩
    | _ => none
  | .colon members key =>
    match token with
    | .colon => some ⟨.object members key :: state.stack, .value⟩
    | _ => none
  | .done value =>
    match state.stack, token with
    | .array items :: rest, .comma => some ⟨.array (value :: items) :: rest, .value⟩
    | .array items :: rest, .closeArray => some ⟨rest, .done (.array (value :: items).reverse)⟩
    | .object members key :: rest, .comma => some ⟨rest, .key ((key, value) :: members)⟩
    | .object members key :: rest, .closeObject =>
      some ⟨rest, .done (.object ((key, value) :: members).reverse)⟩
    | _, _ => none

def run (state : State) : List Token → Option State
  | [] => some state
  | token :: rest => (step state token).bind (run · rest)

def parse? (cs : List Symbol) : Option JsonText := do
  let ts ← tokens? cs
  match ← run ⟨[], .value⟩ ts with
  | ⟨[], .done value⟩ => some value
  | _ => none

def ofString? (s : String) : Option JsonText :=
  parse? (Text.symbols s)

def ofBytes? (bytes : ByteArray) : Option JsonText :=
  parse? (Text.symbolsOfBytes bytes.toList)

end NativeCatalogue.JsonText
