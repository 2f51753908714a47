import NativeCatalogue.Calendar.Basic

set_option autoImplicit false

namespace NativeCatalogue

structure SitePage where
  address : String
  modified : Option Calendar.Instant := none
  deriving DecidableEq, Repr

namespace SitePage

def addressOf (base hash : String) : String :=
  base ++ "?_" ++ hash

end SitePage

namespace SiteMap

def escapeChar (c : Char) : List Char :=
  if c = '&' then "&amp;".toList
  else if c = '<' then "&lt;".toList
  else if c = '>' then "&gt;".toList
  else if c = '"' then "&quot;".toList
  else if c = '\'' then "&apos;".toList
  else [c]

def escape (cs : List Char) : List Char :=
  cs.flatMap escapeChar

def element (name : String) (inside : List Char) : List Char :=
  '<' :: name.toList ++ '>' :: inside ++ "</".toList ++ name.toList ++ ['>']

def pageChars (p : SitePage) : List Char :=
  element "url" (element "loc" (escape p.address.toList) ++
    match p.modified with
    | some t => element "lastmod" t.textChars
    | none => [])

def head : List Char :=
  ("<?xml version=\"1.0\" encoding=\"UTF-8\"?>" ++
    "<urlset xmlns=\"http://www.sitemaps.org/schemas/sitemap/0.9\">").toList

def tail : List Char :=
  "</urlset>".toList

def render (pages : List SitePage) : String :=
  .ofList (head ++ pages.flatMap pageChars ++ tail)

end SiteMap

end NativeCatalogue
