import Std.Time.DateTime.Timestamp
import NativeCatalogue.FileTree.Listing
import NativeCatalogue.Run.Program

/-!
The program `natives`. It runs in a directory whose listing comes on standard input, a line for each
file and directory: `find . -printf '%y %T@ %P\n' | natives compile docs`.
-/

set_option autoImplicit false

namespace NativeCatalogue

partial def readInput (input : IO.FS.Stream) (read : String) : IO String := do
  let line ← input.getLine
  if line.isEmpty then return read else readInput input (read ++ line)

/-- The tree of a listing, with the bytes of its files. Files that cannot be read are left out. -/
def readTree (listing : String) : IO FileTree := do
  let mut t := FileTree.empty
  for e in ListingEntry.all listing do
    try
      let bytes ← if e.isDirectory then pure .empty else IO.FS.readBinFile e.path.text
      t := e.addTo t bytes
    catch _ => pure ()
  return t

def readEnvironment : IO Environment := do
  let mut environment := []
  for name in ["NATIVES_DOCS_URL", "NATIVES_COMPAT_FILE"] do
    if let some value ← IO.getEnv name then
      environment := environment ++ [(name, value)]
  return environment

def writeChanges (before after : FileTree) : IO Unit := do
  let old := before.files
  for (names, bytes) in after.files do
    if old.lookup names != some bytes then
      IO.FS.writeBinFile ("/".intercalate names) bytes

end NativeCatalogue

open NativeCatalogue in
def main (arguments : List String) : IO UInt32 := do
  let files ← readTree (← readInput (← IO.getStdin) "")
  let time ← Std.Time.Timestamp.now
  let now : Calendar.Instant := ⟨time.val.second.val, time.val.nano.val.toNat⟩
  let outcome := ({ files, environment := ← readEnvironment, now : Surroundings }).run arguments
  IO.print outcome.output
  if let some e := outcome.error then
    IO.eprintln e.message
  try
    writeChanges files outcome.files
    return .ofNat outcome.exitCode
  catch e =>
    IO.eprintln e.toString
    return 2
