import NativeCatalogue.Main
import NativeCatalogue.Proofs.Annotation.AttributeText
import NativeCatalogue.Proofs.Annotation.Merging
import NativeCatalogue.Proofs.Annotation.Table
import NativeCatalogue.Proofs.Compilation.Discovery
import NativeCatalogue.Proofs.Compilation.HashComment
import NativeCatalogue.Proofs.Compilation.ParameterDocs
import NativeCatalogue.Proofs.Compilation.ParameterLines
import NativeCatalogue.Proofs.Document.Contents
import NativeCatalogue.Proofs.Document.FrontMatter
import NativeCatalogue.Proofs.Document.ItemLines
import NativeCatalogue.Proofs.Document.Joining
import NativeCatalogue.Proofs.Document.Rendering
import NativeCatalogue.Proofs.Document.Rereading
import NativeCatalogue.Proofs.Document.Sections
import NativeCatalogue.Proofs.Document.Shape
import NativeCatalogue.Proofs.Document.Strong
import NativeCatalogue.Proofs.Hash.Mixing
import NativeCatalogue.Proofs.Hash.Numbers
import NativeCatalogue.Proofs.Prototype.Blame
import NativeCatalogue.Proofs.Prototype.Concatenation
import NativeCatalogue.Proofs.Prototype.Erasure
import NativeCatalogue.Proofs.Prototype.Respacing
import NativeCatalogue.Proofs.Prototype.RoundTrip
import NativeCatalogue.Proofs.Prototype.WellFormed
import NativeCatalogue.Proofs.Record.Storage
import NativeCatalogue.Proofs.Run.Accounting
import NativeCatalogue.Proofs.Run.Collisions
import NativeCatalogue.Proofs.Run.Hashes
import NativeCatalogue.Proofs.Run.Pages
import NativeCatalogue.Proofs.Run.Regeneration
import NativeCatalogue.Proofs.Run.Verification
import NativeCatalogue.Proofs.Run.Versions
import NativeCatalogue.Proofs.Run.Writing
import NativeCatalogue.Proofs.Signature.Reading
import NativeCatalogue.Proofs.SiteMap.Reading
import NativeCatalogue.Proofs.Version.Request
import NativeCatalogue.Proofs.Vocabulary.BuiltinKind
import NativeCatalogue.Proofs.Vocabulary.Vector
