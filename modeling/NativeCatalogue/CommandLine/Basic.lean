import NativeCatalogue.Calendar.Basic
import NativeCatalogue.FileTree.Path
import NativeCatalogue.Version.Basic

set_option autoImplicit false

namespace NativeCatalogue

inductive UsageError where
  | unknownArgument
  | invalidValue
  | badValue
  | invalidCommand
  | missingCommand
  | nothingGiven
  | missingArgument
  | conflict
  | unneededValue
  | helpRequested
  | versionRequested
  deriving DecidableEq, Repr

namespace UsageError

def isRequest : UsageError → Bool
  | .helpRequested | .versionRequested => true
  | _ => false

def message : UsageError → String
  | .unknownArgument => "error: unexpected argument found"
  | .invalidValue => "error: a value is required for an argument"
  | .badValue => "error: invalid value for an argument"
  | .invalidCommand => "error: unrecognized subcommand"
  | .missingCommand => "error: a subcommand is required but one was not provided"
  | .nothingGiven => "Usage: natives [OPTIONS] <COMMAND>"
  | .missingArgument => "error: a required argument was not provided"
  | .conflict => "error: an argument cannot be used with another one, or more than once"
  | .unneededValue => "error: unexpected value for a flag"
  | .helpRequested => "Usage: natives [OPTIONS] <COMMAND>"
  | .versionRequested => "natives 0.1.0"

end UsageError

inductive CommandName where
  | compile
  | verify
  | compat
  | sitemap
  | schema
  deriving DecidableEq, Repr

namespace CommandName

def text : CommandName → String
  | .compile => "compile"
  | .verify => "verify"
  | .compat => "compat"
  | .sitemap => "sitemap"
  | .schema => "schema"

def all : List CommandName :=
  [.compile, .verify, .compat, .sitemap, .schema]

def ofText? (s : String) : Option CommandName :=
  all.find? fun n => n.text = s

end CommandName

namespace CommandLine

inductive Flag where
  | verbose
  | quiet
  | help
  | version
  | keepGoing
  | pretty
  | force
  | ignoreMissing
  deriving DecidableEq, Repr

namespace Flag

def longName : Flag → String
  | .verbose => "verbose"
  | .quiet => "quiet"
  | .help => "help"
  | .version => "version"
  | .keepGoing => "keep-going"
  | .pretty => "pretty"
  | .force => "force"
  | .ignoreMissing => "ignore-missing-in"

def letter? : Flag → Option Char
  | .verbose => some 'v'
  | .quiet => some 'q'
  | .help => some 'h'
  | .version => some 'V'
  | .keepGoing | .pretty => none
  | .force => some 'f'
  | .ignoreMissing => some 'i'

def allowed : Option CommandName → List Flag
  | none => [.verbose, .quiet, .help, .version]
  | some .compile => [.verbose, .quiet, .help, .keepGoing, .pretty]
  | some .compat => [.verbose, .quiet, .help, .force, .ignoreMissing]
  | some _ => [.verbose, .quiet, .help]

end Flag

inductive Parameter where
  | directory
  | document
  | catalogueFile
  | input
  | output
  | version
  | start
  | base
  deriving DecidableEq, Repr

namespace Parameter

def longName? : Parameter → Option String
  | .directory | .document => none
  | .catalogueFile | .output => some "out"
  | .input => some "in"
  | .version => some "set-version"
  | .start => some "start-date"
  | .base => some "base"

def allowed : CommandName → List Parameter
  | .compile => [.directory, .catalogueFile]
  | .verify => [.document]
  | .compat => [.directory, .input, .output, .version, .start]
  | .sitemap => [.directory, .base]
  | .schema => []

def required? (command : CommandName) : Option Parameter :=
  (allowed command).find? fun p => p.longName? = none

def readPath (text : String) : Except UsageError Path :=
  if text = "" then .error .invalidValue else .ok ⟨text⟩

def readVersion (text : String) : Except UsageError VersionRequest :=
  (VersionRequest.parse text).mapError fun _ => .badValue

def readDate (text : String) : Except UsageError Calendar.Date :=
  match Calendar.Date.ofText? text with
  | some d => .ok d
  | none => .error .badValue

def check (p : Parameter) (text : String) : Except UsageError Unit := do
  match p with
  | .directory | .document | .catalogueFile => let _ ← readPath text
  | .version => let _ ← readVersion text
  | .start => let _ ← readDate text
  | .input | .output | .base => return

end Parameter

end CommandLine

structure CompileOptions where
  directory : Path
  out : Path
  keepGoing : Bool
  pretty : Bool
  deriving DecidableEq, Repr

structure CompatOptions where
  directory : Path
  input : Option String
  output : Option String
  force : Bool
  version : VersionRequest
  start : Calendar.Date
  ignoreMissing : Bool
  deriving DecidableEq, Repr

inductive Command where
  | compile (options : CompileOptions)
  | verify (document : Path)
  | compat (options : CompatOptions)
  | sitemap (directory : Path) (base : Option String)
  | schema
  deriving DecidableEq, Repr

inductive LogLevel where
  | warn
  | info
  | debug
  | trace
  deriving DecidableEq, Repr

def LogLevel.text : LogLevel → String
  | .warn => "warn"
  | .info => "info"
  | .debug => "debug"
  | .trace => "trace"

structure CommandLine where
  verbose : Nat
  quiet : Bool
  command : Command
  deriving DecidableEq, Repr

/-- Quiet wins; else each time that more is asked for counts, up to twice. -/
def CommandLine.logLevel (l : CommandLine) : LogLevel :=
  if l.quiet then .warn
  else
    match l.verbose with
    | 0 => .info
    | 1 => .debug
    | _ => .trace

end NativeCatalogue
