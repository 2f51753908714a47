import NativeCatalogue.FileTree.Basic
import NativeCatalogue.Text.Alphanumeric
import NativeCatalogue.Text.Basic

/-!
Environment files: one assignment of a variable in a line. A quoted value may go on over several
lines. Reading stops at the first line that is wrong; what was assigned before it stands. Variables
that are set already keep their values.
-/

set_option autoImplicit false

namespace NativeCatalogue

abbrev Environment := List (String × String)

namespace EnvironmentFile

inductive Quoting where
  | outside
  | blank
  | escape
  | weak
  | weakEscape
  | strong
  | strongEscape
  deriving DecidableEq, Repr

namespace Quoting

def next (q : Quoting) (c : Char) : Quoting :=
  match q with
  | .outside =>
    if Text.isBlank c && c ≠ '\n' && c ≠ '\r' then .blank
    else if c = '\\' then .escape
    else if c = '"' then .weak
    else if c = '\'' then .strong
    else .outside
  | .blank =>
    if c = '\\' then .escape else if c = '"' then .weak else if c = '\'' then .strong else .outside
  | .escape => .outside
  | .weak => if c = '\\' then .weakEscape else if c = '"' then .outside else .weak
  | .weakEscape => .weak
  | .strong => if c = '\\' then .strongEscape else if c = '\'' then .outside else .strong
  | .strongEscape => .strong

def beforeComment? (q : Quoting) : List Char → Option (List Char)
  | [] => none
  | c :: rest =>
    if q = .blank && c = '#' then some [] else ((q.next c).beforeComment? rest).map (c :: ·)

end Quoting

/-- The lines of a file, from its rows. A line goes on while a quote is open; what is open at the end
    is no line. Lines that are comments are empty. -/
def lines (start : List Char) (q : Quoting) : List (List Char) → List (List Char)
  | [] => []
  | row :: rest =>
    if (Text.trimStart (start ++ row)).head? = some '#' then [] :: lines [] .outside rest
    else
      match q.beforeComment? row with
      | some kept => (start ++ kept) :: lines [] .outside rest
      | none =>
        match row.foldl Quoting.next q with
        | .outside => Text.stripLineEnd (start ++ row) :: lines [] .outside rest
        | unfinished => lines (start ++ row) unfinished rest

inductive ValueState where
  | outside
  | weak
  | strong
  | escape (weak : Bool)
  | ending
  | name (weak : Bool) (text : List Char)
  | braced (weak : Bool) (text : List Char)

namespace ValueState

def within (weak : Bool) : ValueState :=
  if weak then .weak else .outside

end ValueState

def unescape? (c : Char) : Option Char :=
  if c = 'n' then some '\n'
  else if c = '\\' || c = '\'' || c = '"' || c = '$' || c = ' ' then some c
  else none

/-- Reads a value. A name behind a dollar sign stands for the value of that variable; without braces
    it is made of letters and numbers, and the character behind it is taken as it is. -/
def value? (valueOf : String → String) : ValueState → List Char → Option (List Char)
  | .outside, [] => some []
  | .ending, [] => some []
  | .escape false, [] => some []
  | .name false text, [] => some (valueOf (.ofList text)).toList
  | _, [] => none
  | .outside, c :: rest =>
    if c = '$' then value? valueOf (.name false []) rest
    else if c = '\'' then value? valueOf .strong rest
    else if c = '"' then value? valueOf .weak rest
    else if c = '\\' then value? valueOf (.escape false) rest
    else if c = ' ' || c = '\t' then value? valueOf .ending rest
    else (value? valueOf .outside rest).map (c :: ·)
  | .weak, c :: rest =>
    if c = '$' then value? valueOf (.name true []) rest
    else if c = '"' then value? valueOf .outside rest
    else if c = '\\' then value? valueOf (.escape true) rest
    else (value? valueOf .weak rest).map (c :: ·)
  | .strong, c :: rest =>
    if c = '\'' then value? valueOf .outside rest else (value? valueOf .strong rest).map (c :: ·)
  | .escape weak, c :: rest =>
    match unescape? c with
    | some d => (value? valueOf (.within weak) rest).map (d :: ·)
    | none => none
  | .ending, c :: rest =>
    if c = ' ' || c = '\t' then value? valueOf .ending rest else if c = '#' then some [] else none
  | .name weak text, c :: rest =>
    if Text.isAlphanumeric c then value? valueOf (.name weak (text ++ [c])) rest
    else if c = '\x7b' && text = [] then value? valueOf (.braced weak []) rest
    else
      let found := (valueOf (.ofList text)).toList
      if c = '$' then (value? valueOf (.name weak []) rest).map (found ++ ·)
      else (value? valueOf (.within weak) rest).map (found ++ c :: ·)
  | .braced weak text, c :: rest =>
    if c = '\x7d' then
      (value? valueOf (.within weak) rest).map ((valueOf (.ofList text)).toList ++ ·)
    else value? valueOf (.braced weak (text ++ [c])) rest

def key? (line : List Char) : Option (List Char × List Char) :=
  match line with
  | [] => none
  | c :: _ =>
    if c.isAlpha || c = '_' then
      let isKeyChar (c : Char) := c.isAlphanum || c = '_' || c = '.'
      some (line.takeWhile isKeyChar, Text.trimStart (line.dropWhile isKeyChar))
    else none

def assignedKey? (line : List Char) : Option (List Char × List Char) := do
  match ← key? line with
  | (key, '=' :: rest) => some (key, rest)
  | (key, rest) =>
    if key = "export".toList then
      match ← key? rest with
      | (key, '=' :: rest) => some (key, rest)
      | _ => none
    else none

def assignment? (valueOf : String → String) (line : List Char) :
    Option (Option (String × String)) := do
  match Text.trim line with
  | [] | '#' :: _ => return none
  | text =>
    let (key, rest) ← assignedKey? text
    match Text.trimStart rest with
    | [] | '#' :: _ => return some (.ofList key, "")
    | text => return some (.ofList key, .ofList (← value? valueOf .outside text))

def assign (environment : Environment) : List (List Char) → Environment
  | [] => environment
  | line :: rest =>
    match assignment? (fun name => (environment.lookup name).getD "") line with
    | none => environment
    | some none => assign environment rest
    | some (some (key, value)) =>
      let isSet := (environment.lookup key).isSome
      assign (if isSet then environment else environment ++ [(key, value)]) rest

/-- The rows of bytes, each but perhaps the last with a newline at its end. -/
def byteRows : List UInt8 → List (List UInt8)
  | [] => []
  | b :: rest =>
    if b = 10 then [b] :: byteRows rest
    else
      match byteRows rest with
      | [] => [[b]]
      | row :: others => (b :: row) :: others

def textRows : List (List UInt8) → List (List Char)
  | [] => []
  | row :: rest =>
    match String.fromUTF8? ⟨row.toArray⟩ with
    | some text => text.toList :: textRows rest
    | none => []

def dropMark : List UInt8 → List UInt8
  | 0xEF :: 0xBB :: 0xBF :: rest => rest
  | bytes => bytes

def load (environment : Environment) (bytes : ByteArray) : Environment :=
  assign environment (lines [] .outside (textRows (byteRows (dropMark bytes.toList))))

end EnvironmentFile

structure Settings where
  pagesAddress : String := "https://docs.fivem.net/natives/"
  signatureFile : Path := ⟨"natives_global_client_compat.lua"⟩
  deriving DecidableEq, Repr

namespace Settings

def valueOf? (environment : Environment) (name : String) : Option String :=
  ((environment.lookup name).map String.trimBlanks).filter (· ≠ "")

def ofEnvironment (environment : Environment) : Settings where
  pagesAddress := (valueOf? environment "NATIVES_DOCS_URL").getD ({} : Settings).pagesAddress
  signatureFile :=
    ((valueOf? environment "NATIVES_COMPAT_FILE").map Path.mk).getD ({} : Settings).signatureFile

def withFile (t : FileTree) (environment : Environment) : Environment :=
  match t.find ⟨".env"⟩ with
  | .ok (.file bytes _) => EnvironmentFile.load environment bytes
  | _ => environment

/-- The file that a flag names: without the flag the one that is set, and none for `skip`. -/
def resolveFile (flag : Option String) (default : Path) : Option Path :=
  match flag with
  | none => some default
  | some text =>
    if text.toList.map Char.toLower = "skip".toList then none else some ⟨text⟩

end Settings

end NativeCatalogue
