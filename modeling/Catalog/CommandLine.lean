import Catalog.CommandLine.Arguments
import Catalog.Config.Codec
import Catalog.Load
import Catalog.Render

/-!
What the program prints for its arguments. Where texts are read from is left open.
-/
namespace Catalog.CommandLine

/-- Access to texts; what cannot be read comes with the reason. -/
structure Access (m : Type → Type) where
  file : String → m (Except String String)
  standardInput : m (Except String String)

/-- Why a run ends without a view. -/
inductive Problem where
  | unreadable (path reason : String)
  | badConfig (path : String) (fault : Json.Fault)
  | failed (failure : Failure)
  deriving DecidableEq, Repr

namespace Problem

def summary : Problem → String
  | unreadable path reason => "failed to read " ++ path ++ ": " ++ reason
  | badConfig path fault => "invalid config " ++ path ++ ": " ++ fault.message
  | failed failure => failure.summary

/-- The text for the user. Only failures of the bundle refer to a source. -/
def report (source : Option String) : Problem → String
  | failed failure =>
    match source with
    | some text => failure.report text
    | none => "Error: " ++ failure.summary
  | p => "Error: " ++ p.summary

end Problem

/-- What a run leaves behind. -/
structure Result where
  exitCode : UInt32 := 0
  output : String := ""
  errors : String := ""
  deriving DecidableEq, Repr

def versionText : String :=
  "dbmodel 0.1.0\n"

def usageText : String :=
  "Usage: dbmodel [OPTIONS] <INPUT>\n"

def helpText : String :=
  "Build and inspect schema models from parser output\n\n" ++ usageText ++ "
Arguments:
  <INPUT>  Raw bundle JSON file, or - for stdin

Options:
      --view <VIEW>                  Output view: export, normalize or summary
      --compact                      Print JSON on a single line
      --config <CONFIG>              Model config JSON file
      --default-schema <NAME>        Schema for records that name none
      --id-base <ID_BASE>            First identifier issued for every entity kind
      --enum-binding <ENUM_BINDING>  When enums are bound to fields: on-insert or after-construction
      --source <SOURCE>              DSL source the bundle was parsed from, for error snippets
  -h, --help                         Print help
  -V, --version                      Print version
"

/-- A configuration with the settings of the arguments in place of its own. -/
def Arguments.override (a : Arguments) (c : Config) : Config where
  defaultSchemaName := a.defaultSchema.getD c.defaultSchemaName
  idBase := a.idBase.getD c.idBase
  enumBinding := a.enumBinding.getD c.enumBinding

/-- Whether the rest of a path stays where it is: slashes and single dots between them. -/
def staysPut : List Char → Bool
  | [] => true
  | ['.'] => true
  | '/' :: s => staysPut s
  | '.' :: '/' :: s => staysPut s
  | _ => false

/-- The standard input is named by a dash, also as if it were a directory. -/
def namesStandardInput (path : String) : Bool :=
  match path.toList with
  | ['-'] => true
  | '-' :: '/' :: s => staysPut s
  | _ => false

section

variable {m : Type → Type} [Monad m]

def named (path : String) (text : m (Except String String)) : ExceptT Problem m String :=
  ExceptT.mk do pure ((← text).mapError (.unreadable path))

namespace Arguments

def readConfig (a : Arguments) (access : Access m) : ExceptT Problem m Config :=
  match a.config with
  | none => pure {}
  | some path => do
    let text ← named path (access.file path)
    ExceptT.mk (pure ((Config.codec.ofText text).mapError (.badConfig path)))

def readInput (a : Arguments) (access : Access m) : ExceptT Problem m String :=
  named a.input (if namesStandardInput a.input then access.standardInput else access.file a.input)

/-- The view that the arguments ask for. The configuration is read before the bundle. -/
def renderView (a : Arguments) (access : Access m) : ExceptT Problem m String := do
  let config ← a.readConfig access
  let text ← a.readInput access
  let db ← ExceptT.mk (pure ((Database.ofText text (a.override config)).mapError .failed))
  pure (db.render a.view (if a.compact then .compact else .indented))

/-- The source for reports, if it can be read. -/
def readSource (a : Arguments) (access : Access m) : m (Option String) :=
  match a.source with
  | none => pure none
  | some path => do pure (← access.file path).toOption

end Arguments

def perform (access : Access m) : Request → m Result
  | .run a => do
    match ← (a.renderView access).run with
    | .ok text => pure { output := text ++ "\n" }
    | .error problem =>
      let source ← a.readSource access
      pure { exitCode := 1, errors := problem.report source ++ "\n" }
  | .version => pure { output := versionText }
  | .help => pure { output := helpText }
  | .misuse => pure { exitCode := 2, errors := usageText }

end

end Catalog.CommandLine
