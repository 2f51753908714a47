import Mathlib.Data.List.Forall2
import NativeCatalogue.Proofs.SiteMap.Reader
import NativeCatalogue.Proofs.Text.Digits
import NativeCatalogue.Proofs.Text.Pieces

/-!
Site maps read back. Escaped text has no angle bracket in it and its escapes can be undone, so that the
text of a site map has one way to be taken apart, whatever stands in the addresses of its pages.
-/

set_option autoImplicit false

namespace NativeCatalogue

namespace Calendar

theorem isDigit_of_mem_padded {width n : Nat} {c : Char} (h : c ∈ padded width n) : c.isDigit = true := by
  rcases List.mem_append.1 h with h | h
  · rw [List.eq_of_mem_replicate h]
    rfl
  · exact Text.isDigit_of_mem_toDigits h

theorem not_mem_padded {c : Char} (h : c.isDigit = false) (width n : Nat) : c ∉ padded width n := by
  intro hmem
  rw [isDigit_of_mem_padded hmem] at h
  cases h

theorem not_mem_yearText {c : Char} (h : c.isDigit = false) (hsign : c ≠ '-' ∧ c ≠ '+') (year : Int) :
    c ∉ yearText year := by
  unfold yearText
  split
  · exact not_mem_padded h _ _
  · rw [List.mem_cons, not_or]
    refine ⟨?_, not_mem_padded h _ _⟩
    split
    · exact hsign.1
    · exact hsign.2

theorem bracket_not_mem_textChars (t : Instant) : '<' ∉ t.textChars := by
  have hpadded : ∀ width n, '<' ∉ padded width n := not_mem_padded (by decide)
  have hyear : '<' ∉ yearText t.date.year := not_mem_yearText (by decide) (by decide) _
  simp only [Instant.textChars, Date.textChars, List.mem_append, List.mem_cons, hpadded, hyear,
    List.not_mem_nil, or_false, false_or, not_or]
  decide

end Calendar

structure UrlElement where
  address : List Char
  modified : Option (List Char)

namespace UrlElement

def endingChars : Option (List Char) → List Char
  | some time => "<lastmod>".toList ++ time ++ "</lastmod></url>".toList
  | none => "</url>".toList

theorem endingChars_some (time : List Char) :
    endingChars (some time) = "<lastmod>".toList ++ time ++ "</lastmod></url>".toList :=
  rfl

theorem endingChars_none : endingChars none = "</url>".toList :=
  rfl

def chars (u : UrlElement) : List Char :=
  "<url><loc>".toList ++ u.address ++ "</loc>".toList ++ endingChars u.modified

theorem chars_eq (u : UrlElement) :
    u.chars = "<url><loc>".toList ++ u.address ++ "</loc>".toList ++ endingChars u.modified :=
  rfl

structure IsPlain (u : UrlElement) : Prop where
  address : '<' ∉ u.address
  modified : ∀ time ∈ u.modified, '<' ∉ time

end UrlElement

def SitePage.urlElement (p : SitePage) : UrlElement :=
  ⟨SiteMap.escape p.address.toList, p.modified.map Calendar.Instant.textChars⟩

theorem SitePage.urlElement_eq_of_listed (p : SitePage) :
    p.urlElement = ⟨SiteMap.escape p.listed.address.toList, p.listed.modified.map String.toList⟩ := by
  have htext : String.toList ∘ Calendar.Instant.text = Calendar.Instant.textChars :=
    funext fun t => String.toList_ofList
  rw [SitePage.urlElement, SitePage.listed, Option.map_map, htext]

namespace SiteMap

/-- Whether a text is the head of a site map, some urls and the tail. -/
structure Splits (text : String) (urls : List UrlElement) : Prop where
  plain : ∀ u ∈ urls, u.IsPlain
  text : text.toList = head ++ urls.flatMap UrlElement.chars ++ tail

theorem unescape?_cons {c : Char} (h : escapeChar c = [c]) (rest : List Char) :
    unescape? (c :: rest) = (unescape? rest).map (c :: ·) := by
  have hc : c ≠ '&' := by
    rintro rfl
    exact absurd h (by decide)
  rw [unescape?]
  · exact if_pos h
  all_goals exact fun _ he => absurd he hc

theorem unescape?_escapeChar (c : Char) (rest : List Char) :
    unescape? (escapeChar c ++ rest) = (unescape? rest).map (c :: ·) := by
  by_cases h : escapeChar c = [c]
  · rw [h]
    exact unescape?_cons h rest
  · unfold escapeChar at h ⊢
    split_ifs at h ⊢ with h1 h2 h3 h4 h5
    · rw [h1]; rfl
    · rw [h2]; rfl
    · rw [h3]; rfl
    · rw [h4]; rfl
    · rw [h5]; rfl
    · exact absurd rfl h

theorem unescape?_escape (cs : List Char) : unescape? (escape cs) = some cs := by
  induction cs with
  | nil => rfl
  | cons c cs ih =>
    have hcons : escape (c :: cs) = escapeChar c ++ escape cs := List.flatMap_cons
    rw [hcons, unescape?_escapeChar, ih]
    rfl

theorem bracket_not_mem_escape (cs : List Char) : '<' ∉ escape cs := by
  intro h
  obtain ⟨c, -, hc⟩ := List.mem_flatMap.1 h
  unfold escapeChar at hc
  split_ifs at hc with _ h2
  · exact absurd hc (by decide)
  · exact absurd hc (by decide)
  · exact absurd hc (by decide)
  · exact absurd hc (by decide)
  · exact absurd hc (by decide)
  · exact h2 (List.mem_singleton.1 hc).symm

theorem isPlain_urlElement (p : SitePage) : p.urlElement.IsPlain where
  address := bracket_not_mem_escape _
  modified := by
    intro time htime
    obtain ⟨t, -, rfl⟩ := Option.map_eq_some_iff.1 htime
    exact Calendar.bracket_not_mem_textChars t

theorem element_eq (name : String) (inside : List Char) : element name inside =
    ('<' :: name.toList ++ ['>']) ++ (inside ++ ("</".toList ++ name.toList ++ ['>'])) := by
  simp only [element, List.append_assoc, List.cons_append, List.nil_append]

-- Texts in quotes are split here, since the elements are written from their names.
theorem pageChars_eq (p : SitePage) : pageChars p = p.urlElement.chars := by
  obtain ⟨address, modified⟩ := p
  have hstart : "<url><loc>".toList = ('<' :: "url".toList ++ ['>']) ++ ('<' :: "loc".toList ++ ['>']) :=
    rfl
  have hloc : "</loc>".toList = "</".toList ++ "loc".toList ++ ['>'] := rfl
  have hurl : "</url>".toList = "</".toList ++ "url".toList ++ ['>'] := rfl
  have htime : "<lastmod>".toList = '<' :: "lastmod".toList ++ ['>'] := rfl
  have hend : "</lastmod></url>".toList =
      ("</".toList ++ "lastmod".toList ++ ['>']) ++ ("</".toList ++ "url".toList ++ ['>']) := rfl
  rw [UrlElement.chars_eq, hstart, hloc]
  cases modified with
  | none =>
    change element "url" (element "loc" _ ++ []) = _ ++ UrlElement.endingChars none
    rw [element_eq, element_eq, UrlElement.endingChars_none, hurl]
    simp only [List.append_assoc, List.append_nil]
    rfl
  | some t =>
    change element "url" (element "loc" _ ++ element "lastmod" t.textChars) =
      _ ++ UrlElement.endingChars (some t.textChars)
    rw [element_eq, element_eq, element_eq, UrlElement.endingChars_some, htime, hend]
    simp only [List.append_assoc]
    rfl

theorem splits_render (pages : List SitePage) :
    Splits (render pages) (pages.map SitePage.urlElement) where
  plain := by
    intro u hu
    obtain ⟨p, -, rfl⟩ := List.mem_map.1 hu
    exact isPlain_urlElement p
  text := by
    have hpages : pages.flatMap pageChars = (pages.map SitePage.urlElement).flatMap UrlElement.chars := by
      rw [List.flatMap_map]
      exact congrArg (fun write => pages.flatMap write) (funext pageChars_eq)
    rw [render, String.toList_ofList, hpages]

theorem takeWhile_bracket {cs : List Char} (h : '<' ∉ cs) (rest : List Char) :
    (cs ++ '<' :: rest).takeWhile (· ≠ '<') = cs ∧
      (cs ++ '<' :: rest).dropWhile (· ≠ '<') = '<' :: rest := by
  refine List.takeWhile_append_of_head (List.all_eq_true.2 fun c hc => decide_eq_true ?_) ?_
  · rintro rfl
    exact h hc
  · intro c hc
    cases hc
    decide

theorem append_bracket_inj {as bs rest more : List Char} (has : '<' ∉ as) (hbs : '<' ∉ bs)
    (h : as ++ '<' :: rest = bs ++ '<' :: more) : as = bs ∧ rest = more := by
  obtain ⟨htake, hdrop⟩ := takeWhile_bracket has rest
  obtain ⟨htake', hdrop'⟩ := takeWhile_bracket hbs more
  refine ⟨?_, ?_⟩
  · rw [← htake, h, htake']
  · rw [h, hdrop'] at hdrop
    exact (List.cons.inj hdrop).2.symm

theorem endingChars_append_ne (time rest more : List Char) :
    UrlElement.endingChars none ++ rest ≠ UrlElement.endingChars (some time) ++ more := by
  have htime : "<lastmod>".toList = '<' :: 'l' :: "astmod>".toList := rfl
  have hurl : "</url>".toList = '<' :: '/' :: "url>".toList := rfl
  intro h
  simp only [UrlElement.endingChars_some, UrlElement.endingChars_none, htime, hurl, List.cons_append,
    List.cons.injEq] at h
  exact absurd h.2.1 (by decide)

theorem endingChars_append_inj {as bs : Option (List Char)} (has : ∀ time ∈ as, '<' ∉ time)
    (hbs : ∀ time ∈ bs, '<' ∉ time) {rest more : List Char}
    (h : UrlElement.endingChars as ++ rest = UrlElement.endingChars bs ++ more) : as = bs ∧ rest = more := by
  have hend : "</lastmod></url>".toList = '<' :: "/lastmod></url>".toList := rfl
  cases as with
  | none =>
    cases bs with
    | none => exact ⟨rfl, List.append_cancel_left h⟩
    | some other => exact absurd h (endingChars_append_ne other rest more)
  | some time =>
    cases bs with
    | none => exact absurd h.symm (endingChars_append_ne time more rest)
    | some other =>
      simp only [UrlElement.endingChars_some, List.append_assoc, hend, List.cons_append] at h
      obtain ⟨rfl, hrest⟩ := append_bracket_inj (has time rfl) (hbs other rfl) (List.append_cancel_left h)
      exact ⟨rfl, List.append_cancel_left hrest⟩

theorem chars_append_inj {u v : UrlElement} (hu : u.IsPlain) (hv : v.IsPlain) {rest more : List Char}
    (h : u.chars ++ rest = v.chars ++ more) : u = v ∧ rest = more := by
  have hloc : "</loc>".toList = '<' :: "/loc>".toList := rfl
  simp only [UrlElement.chars_eq, hloc, List.append_assoc, List.cons_append] at h
  obtain ⟨haddress, hending⟩ := append_bracket_inj hu.address hv.address (List.append_cancel_left h)
  obtain ⟨hmodified, hrest⟩ := endingChars_append_inj hu.modified hv.modified (List.append_cancel_left hending)
  obtain ⟨address, modified⟩ := u
  cases haddress
  cases hmodified
  exact ⟨rfl, hrest⟩

theorem chars_append_ne_tail (u : UrlElement) (rest : List Char) : u.chars ++ rest ≠ tail := by
  have hstart : "<url><loc>".toList = '<' :: 'u' :: "rl><loc>".toList := rfl
  have htail : tail = '<' :: '/' :: "urlset>".toList := rfl
  intro h
  simp only [UrlElement.chars_eq, hstart, htail, List.cons_append, List.cons.injEq] at h
  exact absurd h.2.1 (by decide)

theorem flatMap_chars_inj {us vs : List UrlElement} (hus : ∀ u ∈ us, u.IsPlain) (hvs : ∀ v ∈ vs, v.IsPlain)
    (h : us.flatMap UrlElement.chars ++ tail = vs.flatMap UrlElement.chars ++ tail) : us = vs := by
  -- The first urls are the same, and so is what stands behind them; a url is never taken for the tail.
  induction us generalizing vs with
  | nil =>
    cases vs with
    | nil => rfl
    | cons v vs =>
      rw [List.flatMap_cons, List.append_assoc] at h
      exact absurd h.symm (chars_append_ne_tail v _)
  | cons u us ih =>
    cases vs with
    | nil =>
      rw [List.flatMap_cons, List.append_assoc] at h
      exact absurd h (chars_append_ne_tail u _)
    | cons v vs =>
      obtain ⟨hu, hus⟩ := List.forall_mem_cons.1 hus
      obtain ⟨hv, hvs⟩ := List.forall_mem_cons.1 hvs
      rw [List.flatMap_cons, List.flatMap_cons, List.append_assoc, List.append_assoc] at h
      obtain ⟨huv, hrest⟩ := chars_append_inj hu hv h
      rw [huv, ih hus hvs hrest]

theorem Splits.unique {text : String} {us vs : List UrlElement} (hus : Splits text us) (hvs : Splits text vs) :
    us = vs := by
  refine flatMap_chars_inj hus.plain hvs.plain ?_
  have h : head ++ us.flatMap UrlElement.chars ++ tail = head ++ vs.flatMap UrlElement.chars ++ tail :=
    hus.text.symm.trans hvs.text
  rw [List.append_assoc, List.append_assoc] at h
  exact List.append_cancel_left h

theorem dropText?_append (start rest : List Char) : dropText? start (start ++ rest) = some rest := by
  have hstart : start.isPrefixOf (start ++ rest) = true :=
    List.isPrefixOf_iff_prefix.2 (List.prefix_append start rest)
  rw [dropText?, if_pos hstart, List.drop_left]

theorem element?_append (name : String) {inside : List Char} (h : '<' ∉ inside) (rest : List Char) :
    element? name (element name inside ++ rest) = some (inside, rest) := by
  have hclose : "</".toList = '<' :: ['/'] := rfl
  have hshape : element name inside ++ rest = ('<' :: name.toList ++ ['>']) ++
      (inside ++ '<' :: ('/' :: (name.toList ++ ['>']) ++ rest)) := by
    simp only [element_eq, hclose, List.append_assoc, List.cons_append, List.nil_append]
  have hend : '<' :: ('/' :: (name.toList ++ ['>']) ++ rest) =
      ("</".toList ++ name.toList ++ ['>']) ++ rest := by
    simp only [hclose, List.append_assoc, List.cons_append, List.nil_append]
  obtain ⟨htake, hdrop⟩ := takeWhile_bracket h ('/' :: (name.toList ++ ['>']) ++ rest)
  rw [hshape, element?, dropText?_append, Option.bind_eq_bind, Option.bind_some, htake, hdrop, hend,
    dropText?_append]
  rfl

theorem lastChange_element (t : Calendar.Instant) (rest : List Char) :
    lastChange (element "lastmod" t.textChars ++ rest) = (some t.text, rest) := by
  rw [lastChange, element?_append "lastmod" (Calendar.bracket_not_mem_textChars t)]
  rfl

theorem lastChange_close (rest : List Char) :
    lastChange ("</url>".toList ++ rest) = (none, "</url>".toList ++ rest) := by
  have hnone : element? "lastmod" ("</url>".toList ++ rest) = none := rfl
  rw [lastChange, hnone]

theorem page?_of_lastChange (address : List Char) {ending rest : List Char} {modified : Option String}
    (h : lastChange ending = (modified, "</url>".toList ++ rest)) :
    page? ("<url>".toList ++ (element "loc" (escape address) ++ ending)) =
      some (⟨.ofList address, modified⟩, rest) := by
  rw [page?, dropText?_append, Option.bind_eq_bind, Option.bind_some,
    element?_append "loc" (bracket_not_mem_escape address), Option.bind_eq_bind, Option.bind_some]
  change (unescape? (escape address)).bind _ = _
  rw [unescape?_escape, Option.bind_some, h]
  change (dropText? "</url>".toList ("</url>".toList ++ rest)).bind _ = _
  rw [dropText?_append]
  rfl

theorem page?_append (p : SitePage) (rest : List Char) :
    page? (pageChars p ++ rest) = some (p.listed, rest) := by
  obtain ⟨address, modified⟩ := p
  have hurl : ∀ inside, element "url" inside ++ rest =
      "<url>".toList ++ (inside ++ ("</url>".toList ++ rest)) := by
    intro inside
    have hopen : '<' :: "url".toList ++ ['>'] = "<url>".toList := rfl
    have hclose : "</".toList ++ "url".toList ++ ['>'] = "</url>".toList := rfl
    rw [element_eq, hopen, hclose, List.append_assoc, List.append_assoc]
  have haddress : String.ofList address.toList = address := String.ofList_toList
  cases modified with
  | none =>
    have hpage := page?_of_lastChange address.toList (lastChange_close rest)
    change page? (element "url" (element "loc" (escape address.toList) ++ []) ++ rest) = _
    rw [hurl, List.append_nil, hpage, haddress]
    rfl
  | some t =>
    have hpage := page?_of_lastChange address.toList (lastChange_element t ("</url>".toList ++ rest))
    change page? (element "url" (element "loc" (escape address.toList) ++
      element "lastmod" t.textChars) ++ rest) = _
    rw [hurl, List.append_assoc, hpage, haddress]
    rfl

theorem pages?_append (pages : List SitePage) :
    pages? (pages.flatMap pageChars ++ tail) = some (pages.map SitePage.listed) := by
  induction pages with
  | nil =>
    rw [pages?]
    exact if_pos rfl
  | cons p pages ih =>
    rw [List.flatMap_cons, List.append_assoc, pages?, if_neg]
    · have hpage := page?_append p (pages.flatMap pageChars ++ tail)
      split
      · rename_i listed rest hread
        rw [hpage] at hread
        cases hread
        rw [ih]
        rfl
      · rename_i hread
        rw [hpage] at hread
        cases hread
    · rw [pageChars_eq]
      exact chars_append_ne_tail _ _

theorem read?_render (pages : List SitePage) :
    read? (render pages) = some (pages.map SitePage.listed) := by
  rw [read?, render, String.toList_ofList, List.append_assoc, dropText?_append]
  exact pages?_append pages

theorem render_eq_iff (pages others : List SitePage) :
    render others = render pages ↔ others.map SitePage.listed = pages.map SitePage.listed := by
  refine ⟨fun h => ?_, fun h => ?_⟩
  · have hread := read?_render others
    rw [h, read?_render] at hread
    exact (Option.some.inj hread).symm
  · have hchars : ∀ pages : List SitePage, pages.flatMap pageChars = (pages.map SitePage.listed).flatMap
        fun p => UrlElement.chars ⟨escape p.address.toList, p.modified.map String.toList⟩ := by
      intro pages
      rw [List.flatMap_map]
      refine congrArg (fun write => pages.flatMap write) (funext fun p => ?_)
      rw [pageChars_eq, SitePage.urlElement_eq_of_listed]
    rw [render, render, hchars, hchars, h]

theorem map_address_eq {pages others : List SitePage}
    (h : others.map SitePage.listed = pages.map SitePage.listed) :
    others.map SitePage.address = pages.map SitePage.address := by
  have haddress : SitePage.address = ListedPage.address ∘ SitePage.listed := rfl
  rw [haddress, ← List.map_map, h, List.map_map]

/-- A site map is taken apart in one way: into one url for each page, in order, with the page's address
    when the escapes are undone and its time if it has one. So it reads back as its pages, and site maps
    that differ in a page's address or time differ. -/
theorem render_splits_uniquely (pages : List SitePage) :
    (∃ urls, Splits (render pages) urls ∧ (∀ others, Splits (render pages) others → others = urls) ∧
      List.Forall₂ (fun u p => unescape? u.address = some p.address.toList ∧
        u.modified = p.modified.map Calendar.Instant.textChars) urls pages) ∧
    read? (render pages) = some (pages.map SitePage.listed) ∧
    (∀ others, render others = render pages ↔ others.map SitePage.listed = pages.map SitePage.listed) ∧
    ∀ others, others.map SitePage.address ≠ pages.map SitePage.address → render others ≠ render pages := by
  refine ⟨⟨pages.map SitePage.urlElement, splits_render pages, ?_, ?_⟩, read?_render pages,
    render_eq_iff pages, ?_⟩
  · intro others hothers
    exact hothers.unique (splits_render pages)
  · rw [List.forall₂_map_left_iff, List.forall₂_same]
    intro p _
    exact ⟨unescape?_escape _, rfl⟩
  · intro others hne heq
    exact hne (map_address_eq ((render_eq_iff pages others).1 heq))

theorem render_splits_uniquely_markup :
    Splits (render [⟨"</loc>&lt;", none⟩]) [⟨"&lt;/loc&gt;&amp;lt;".toList, none⟩] ∧
    (∀ others, Splits (render [⟨"</loc>&lt;", none⟩]) others →
      others = [⟨"&lt;/loc&gt;&amp;lt;".toList, none⟩]) ∧
    [SitePage.mk "</loc><" none].map SitePage.address ≠ [SitePage.mk "</loc>&lt;" none].map SitePage.address ∧
    render [⟨"</loc><", none⟩] ≠ render [⟨"</loc>&lt;", none⟩] := by
  have hsplits : Splits (render [⟨"</loc>&lt;", none⟩]) [⟨"&lt;/loc&gt;&amp;lt;".toList, none⟩] :=
    splits_render [⟨"</loc>&lt;", none⟩]
  have hne : [SitePage.mk "</loc><" none].map SitePage.address ≠
      [SitePage.mk "</loc>&lt;" none].map SitePage.address := by decide
  obtain ⟨⟨urls, -, honly, -⟩, -, -, hdiffer⟩ := render_splits_uniquely [⟨"</loc>&lt;", none⟩]
  refine ⟨hsplits, fun others hothers => ?_, hne, hdiffer _ hne⟩
  rw [honly others hothers, honly _ hsplits]

end SiteMap

end NativeCatalogue
