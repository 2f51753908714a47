import NativeCatalogue.CommandLine.Reader
import NativeCatalogue.Report.Schema
import NativeCatalogue.Settings.Basic

set_option autoImplicit false

namespace NativeCatalogue

structure Surroundings where
  files : FileTree
  environment : Environment := []
  now : Calendar.Instant

structure Outcome where
  files : FileTree
  output : String := ""
  error : Option RunError := none

namespace Outcome

def failed (s : Surroundings) (e : RunError) : Outcome :=
  { files := s.files, error := some e }

def exitCode (o : Outcome) : Nat :=
  (o.error.map RunError.exitCode).getD 0

end Outcome

namespace Surroundings

def compile (s : Surroundings) (o : CompileOptions) : Outcome :=
  match CompileRun.ofTree s.files o.directory with
  | .error e => .failed s (.unlistable o.directory e)
  | .ok r =>
    if r.isClean || o.keepGoing then
      match s.files.write o.out (r.catalogue.write (if o.pretty then .pretty else .compact)) s.now with
      | .error e => .failed s (.uncreatable o.out e)
      | .ok files => { files, output := Report.compile r (some o.out) ++ "\n" }
    else
      { files := s.files
        output := Report.compile r none ++ "\n"
        error := some (.failedDocuments r.failures.length) }

def verify (s : Surroundings) (document : Path) : Outcome :=
  if !document.isNativeDocument then
    { files := s.files, output := s!"{document.text} is not a native definition.\n" }
  else
    match s.files.readText document with
    | .error e => .failed s (.unreadable document e)
    | .ok text =>
      match CompiledNative.ofText text with
      | .error e => .failed s (.badDocument e)
      | .ok c =>
        if c.record.hash = "0x0" then .failed s (.badDocument .noHash)
        else { files := s.files, output := c.record.toJson.write .pretty ++ "\n" }

def updateOptions (s : Surroundings) (settings : Settings) (o : CompatOptions) : UpdateOptions where
  input := Settings.resolveFile o.input settings.signatureFile
  output := Settings.resolveFile o.output settings.signatureFile
  force := o.force
  ignoreMissing := o.ignoreMissing
  version := o.version
  start := o.start
  today := s.now.date

def compat (s : Surroundings) (settings : Settings) (o : CompatOptions) : Outcome :=
  match CompileRun.ofTree s.files o.directory with
  | .error e => .failed s (.unlistable o.directory e)
  | .ok r =>
    match SignatureUpdate.run s.files s.now (s.updateOptions settings o)
      (r.documents.map CompiledDocument.native) with
    | .error e => .failed s e
    | .ok (files, u) => { files, output := Report.signatures u }

def sitemap (s : Surroundings) (settings : Settings) (directory : Path) (base : Option String) :
    Outcome :=
  match CompileRun.ofTree s.files directory with
  | .error e => .failed s (.unlistable directory e)
  | .ok r =>
    { files := s.files
      output := SiteMap.render (r.pages (base.getD settings.pagesAddress)) ++ "\n" }

def runCommand (s : Surroundings) (settings : Settings) : Command → Outcome
  | .compile o => s.compile o
  | .verify document => s.verify document
  | .compat o => s.compat settings o
  | .sitemap directory base => s.sitemap settings directory base
  | .schema => { files := s.files, output := Report.schema }

def run (s : Surroundings) (arguments : List String) : Outcome :=
  match CommandLine.read arguments with
  | .ok line =>
    s.runCommand (.ofEnvironment (Settings.withFile s.files s.environment)) line.command
  | .error e =>
    if e.isRequest then { files := s.files, output := e.message ++ "\n" }
    else .failed s (.usage e)

end Surroundings

end NativeCatalogue
