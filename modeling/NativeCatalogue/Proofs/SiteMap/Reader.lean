import NativeCatalogue.SiteMap.Basic

set_option autoImplicit false

namespace NativeCatalogue

structure ListedPage where
  address : String
  modified : Option String
  deriving DecidableEq, Repr

def SitePage.listed (p : SitePage) : ListedPage :=
  ⟨p.address, p.modified.map Calendar.Instant.text⟩

namespace SiteMap

/-- Undoes the escapes; a character that is to be escaped does not stand for itself. -/
def unescape? : List Char → Option (List Char)
  | [] => some []
  | '&' :: 'a' :: 'm' :: 'p' :: ';' :: rest => (unescape? rest).map ('&' :: ·)
  | '&' :: 'l' :: 't' :: ';' :: rest => (unescape? rest).map ('<' :: ·)
  | '&' :: 'g' :: 't' :: ';' :: rest => (unescape? rest).map ('>' :: ·)
  | '&' :: 'q' :: 'u' :: 'o' :: 't' :: ';' :: rest => (unescape? rest).map ('"' :: ·)
  | '&' :: 'a' :: 'p' :: 'o' :: 's' :: ';' :: rest => (unescape? rest).map ('\'' :: ·)
  | c :: rest => if escapeChar c = [c] then (unescape? rest).map (c :: ·) else none

def dropText? (start cs : List Char) : Option (List Char) :=
  if start.isPrefixOf cs then some (cs.drop start.length) else none

theorem dropText?_length {start cs rest : List Char} (h : dropText? start cs = some rest) :
    start.length + rest.length = cs.length := by
  unfold dropText? at h
  split at h <;> simp at h
  rename_i hp
  have := (List.isPrefixOf_iff_prefix.1 hp).length_le
  simp only [← h, List.length_drop]
  omega

def element? (name : String) (cs : List Char) : Option (List Char × List Char) := do
  let rest ← dropText? ('<' :: name.toList ++ ['>']) cs
  let after ← dropText? ("</".toList ++ name.toList ++ ['>']) (rest.dropWhile (· ≠ '<'))
  return (rest.takeWhile (· ≠ '<'), after)

theorem element?_length {name : String} {cs inside after : List Char}
    (h : element? name cs = some (inside, after)) : after.length ≤ cs.length := by
  unfold element? at h
  simp only [Option.bind_eq_bind, Option.bind_eq_some_iff, Option.pure_def, Option.some.injEq,
    Prod.mk.injEq] at h
  obtain ⟨rest, h1, tail, h2, -, rfl⟩ := h
  have l1 := dropText?_length h1
  have l2 := dropText?_length h2
  have l3 := (List.dropWhile_sublist (fun x => decide (x ≠ '<')) (l := rest)).length_le
  omega

def lastChange (cs : List Char) : Option String × List Char :=
  match element? "lastmod" cs with
  | some (time, rest) => (some (.ofList time), rest)
  | none => (none, cs)

def page? (cs : List Char) : Option (ListedPage × List Char) := do
  let inside ← dropText? "<url>".toList cs
  let (address, rest) ← element? "loc" inside
  let address ← unescape? address
  let (modified, rest) := lastChange rest
  let after ← dropText? "</url>".toList rest
  return (⟨.ofList address, modified⟩, after)

theorem lastChange_length (cs : List Char) : (lastChange cs).2.length ≤ cs.length := by
  unfold lastChange
  split
  · rename_i h
    exact element?_length h
  · simp

theorem page?_length {cs after : List Char} {p : ListedPage} (h : page? cs = some (p, after)) :
    after.length < cs.length := by
  unfold page? at h
  simp only [Option.bind_eq_bind, Option.bind_eq_some_iff, Option.pure_def, Option.some.injEq,
    Prod.mk.injEq] at h
  obtain ⟨inside, h1, ⟨escaped, rest⟩, h2, address, -, tail, h3, -, rfl⟩ := h
  have l1 := dropText?_length h1
  have l2 := element?_length h2
  have l3 := lastChange_length rest
  have l4 := dropText?_length h3
  have l5 : "<url>".toList.length = 5 := rfl
  dsimp only at l4
  omega

def pages? (cs : List Char) : Option (List ListedPage) :=
  if cs = tail then some []
  else
    match _h : page? cs with
    | some (p, rest) => (pages? rest).map (p :: ·)
    | none => none
termination_by cs.length
decreasing_by exact page?_length _h

def read? (text : String) : Option (List ListedPage) :=
  (dropText? head text.toList).bind pages?

end SiteMap

end NativeCatalogue
