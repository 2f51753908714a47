set_option autoImplicit false

namespace NativeCatalogue.Text

/-- The Unicode property `White_Space`. -/
def isBlank (c : Char) : Bool :=
  let n := c.toNat
  (9 ≤ n && n ≤ 13) || n == 0x20 || n == 0x85 || n == 0xA0 || n == 0x1680 ||
    (0x2000 ≤ n && n ≤ 0x200A) || n == 0x2028 || n == 0x2029 || n == 0x202F ||
    n == 0x205F || n == 0x3000

def trimStart (cs : List Char) : List Char :=
  cs.dropWhile isBlank

def trimEnd (cs : List Char) : List Char :=
  (cs.reverse.dropWhile isBlank).reverse

def trim (cs : List Char) : List Char :=
  trimEnd (trimStart cs)

/-- Cuts a text at each character of a class, which is dropped; there is always one piece more
    than there are cuts. -/
def cutAt (p : Char → Bool) : List Char → List (List Char)
  | [] => [[]]
  | c :: rest =>
    if p c then [] :: cutAt p rest
    else match cutAt p rest with
      | [] => [[c]]
      | piece :: pieces => (c :: piece) :: pieces

def words (cs : List Char) : List (List Char) :=
  (cutAt isBlank cs).filter (· ≠ [])

def join (separator : List Char) : List (List Char) → List Char
  | [] => []
  | [piece] => piece
  | piece :: pieces => piece ++ separator ++ join separator pieces

def collapse (cs : List Char) : List Char :=
  join [' '] (words cs)

/-- The lines with their newlines: each row but perhaps the last ends in one, and the rows
    together are the text. -/
def rows : List Char → List (List Char)
  | [] => []
  | c :: rest =>
    if c = '\n' then ['\n'] :: rows rest
    else match rows rest with
      | [] => [[c]]
      | row :: others => (c :: row) :: others

/-- A row without its line end. A carriage return counts only before a newline. -/
def stripLineEnd : List Char → List Char
  | [] => []
  | ['\n'] => []
  | ['\r', '\n'] => []
  | c :: rest => c :: stripLineEnd rest

def linesOf (cs : List Char) : List (List Char) :=
  (rows cs).map stripLineEnd

def lines (s : String) : List String :=
  (linesOf s.toList).map String.ofList

abbrev Symbol := Option Char

def symbols (s : String) : List Symbol :=
  s.toList.map some

def charOf? (bytes : List UInt8) : Option Char :=
  match (String.fromUTF8? ⟨bytes.toArray⟩).map String.toList with
  | some [c] => some c
  | _ => none

def firstSymbol (b : UInt8) (rest : List UInt8) : Symbol × Nat :=
  match [0, 1, 2, 3].findSome? fun n => (charOf? (b :: rest.take n)).map (·, n) with
  | some (c, n) => (some c, n)
  | none => (none, 0)

def symbolsOfBytes : List UInt8 → List Symbol
  | [] => []
  | b :: rest =>
    (firstSymbol b rest).1 :: symbolsOfBytes (rest.drop (firstSymbol b rest).2)
termination_by bytes => bytes.length
decreasing_by
  rw [List.length_drop, List.length_cons]
  omega

end NativeCatalogue.Text

namespace String

def trimBlanks (s : String) : String :=
  .ofList (NativeCatalogue.Text.trim s.toList)

def allBlank (s : String) : Bool :=
  s.toList.all NativeCatalogue.Text.isBlank

end String
