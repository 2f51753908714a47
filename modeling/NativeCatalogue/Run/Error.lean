import NativeCatalogue.CommandLine.Basic
import NativeCatalogue.Compilation.ParameterDocs
import NativeCatalogue.FileTree.Basic
import NativeCatalogue.Hash.Basic
import NativeCatalogue.Signature.File

set_option autoImplicit false

namespace NativeCatalogue

inductive RunError where
  | usage (cause : UsageError)
  | badVersion (cause : VersionError)
  | unlistable (directory : Path) (cause : FileError)
  | unreadable (file : Path) (cause : FileError)
  | unwritable (file : Path) (cause : FileError)
  | uncreatable (file : Path) (cause : FileError)
  | unopenable (file : Path) (cause : FileError)
  | badCatalogue
  | badDocument (cause : DocumentError)
  | failedDocuments (count : Nat)
  | missingInput (file : Path)
  | badSignatureFile (cause : SignatureFileError)
  | badHash (cause : Hash.BadHash)
  deriving DecidableEq, Repr

namespace RunError

/-- 1 for the command line, 2 for files, 3 for documents and a missing input, 4 for a malformed
    signature file. -/
def exitCode : RunError → Nat
  | .usage _ | .badVersion _ => 1
  | .unlistable .. | .unreadable .. | .unwritable .. | .uncreatable .. | .unopenable ..
  | .badCatalogue => 2
  | .badDocument _ | .failedDocuments _ | .missingInput _ => 3
  | .badSignatureFile _ | .badHash _ => 4

def message : RunError → String
  | .usage cause => cause.message
  | .badVersion cause => cause.message
  | .unlistable directory cause => s!"Failed to read directory '{directory.text}': {cause.message}"
  | .unreadable file cause => s!"Failed to read '{file.text}': {cause.message}"
  | .unwritable file cause => s!"Failed to write '{file.text}': {cause.message}"
  | .uncreatable file cause => s!"Failed to create natives JSON '{file.text}': {cause.message}"
  | .unopenable file cause => s!"Failed to open natives JSON '{file.text}': {cause.message}"
  | .badCatalogue => "Invalid natives JSON"
  | .badDocument cause => cause.message
  | .failedDocuments count => s!"{count} native document(s) failed to compile."
  | .missingInput file =>
    s!"Input file '{file.text}' not found, stopping execution. " ++
      "If required use the --ignore-missing-in option to continue on another attempt."
  | .badSignatureFile cause => cause.message
  | .badHash cause => cause.message

end RunError

end NativeCatalogue
