import NativeCatalogue.Run.Compile
import NativeCatalogue.Run.Signatures
import NativeCatalogue.Vocabulary.Basic

set_option autoImplicit false

namespace NativeCatalogue.Report

def padRight (width : Nat) (s : String) : String :=
  s ++ .ofList (List.replicate (width - s.length) ' ')

def padLeft (width : Nat) (s : String) : String :=
  .ofList (List.replicate (width - s.length) ' ') ++ s

def rule (width : Nat) : String :=
  .ofList (List.replicate width '-')

def truncate (width : Nat) (s : String) : String :=
  if s.length ≤ width then s else .ofList (s.toList.take (width - 1)) ++ "."

def categoryLabel : TypeCategory → String
  | .builtin => "builtin"
  | .integerAlias => "alias"
  | .handle kind => if kind.isDwordBased then "handle (dword)" else "handle"
  | .vector => "vector"

def typeRow (name category size : String) : String :=
  padRight 16 name ++ " " ++ padRight 16 category ++ " " ++ padLeft 5 size ++ "\n"

def fieldRow (name offset size : String) : String :=
  padRight 12 name ++ " " ++ padLeft 6 offset ++ " " ++ padLeft 5 size ++ "\n"

def entryRow (e : TypeEntry) : String :=
  typeRow e.name (categoryLabel e.category) ((e.size.map toString).getD "-")

def schema : String :=
  typeRow "type" "class" "size" ++ typeRow (rule 16) (rule 16) (rule 5) ++
    String.join (Vocabulary.listing.map entryRow) ++
    s!"\nVector3 ({Vector3.size} bytes, {Vector3.slotCount} argument slots):\n" ++
    fieldRow "field" "offset" "size" ++ fieldRow (rule 12) (rule 6) (rule 5) ++
    String.join (Vector3.layout.map fun (name, offset, size) =>
      fieldRow name (toString offset) (toString size))

def namespaceRow (ns count : String) : String :=
  padRight 24 ns ++ " " ++ padLeft 8 count ++ "\n"

def namespaceTable (c : Catalogue) : String :=
  "\n" ++ namespaceRow "namespace" "natives" ++ namespaceRow (rule 24) (rule 8) ++
    String.join (c.counts.map fun (ns, count) => namespaceRow (truncate 24 ns) (toString count))

def failureLines (failures : List DocumentFailure) : String :=
  s!"\nFailed documents ({failures.length}):\n" ++
    String.join (failures.map fun f => s!"- {f.path.text}: {f.cause.message}\n")

def compile (r : CompileRun) (written : Option Path) : String :=
  "=== natives - compile ===\n" ++
    s!"Documents: compiled={r.documents.length} failed={r.failures.length} " ++
    s!"skipped={r.skipped} duplicates={r.duplicates}\n" ++
    s!"Natives: {r.catalogue.size} | annotated symbols: {r.annotatedSymbols}\n" ++
    (if r.catalogue.isEmpty then "" else namespaceTable r.catalogue) ++
    (if r.failures.isEmpty then "" else failureLines r.failures) ++
    match written with
    | some file => s!"\nWrote {file.text}\n"
    | none => "\nNothing written.\n"

def signatures (u : SignatureUpdate) : String :=
  s!"Loaded {u.previous} previous native signatures.\n" ++ s!"Version: {u.version.text}\n" ++
    match u.written with
    | some file => s!"{u.changes} change(s) found, compatibility file generated at '{file.text}'\n"
    | none => s!"{u.changes} change(s) found, skipped compatibility file generation.\n"

end NativeCatalogue.Report
