import MapGate.Text.List

/-!
# Command line

The options of the service and how they are read. An option takes its value
from the same argument or from the next one, and is not complete before the
argument after that.
-/

namespace MapGate

/-- What was given on the command line. -/
structure CommandLine where
  config : String := "config.yaml"
  listen? : Option String := none
  renderer? : Option String := none
  projectsRoot? : Option String := none
  deriving DecidableEq

/-- Why a command line is not carried out. -/
inductive UsageError where
  | unknownArgument
  /-- A value is missing, or is empty where a path is needed. -/
  | invalidValue
  /-- An option was given twice. -/
  | argumentConflict
  /-- A value was given to an option without one. -/
  | tooManyValues
  | displayHelp
  | displayVersion
  deriving DecidableEq

/-- The version of the service. -/
def serviceVersion : String := "0.1.0"

/-- What a user is told about an error, or about the service if that was asked for. -/
def UsageError.message : UsageError → String
  | unknownArgument => "error: unexpected argument"
  | invalidValue => "error: a value is required but none was supplied"
  | argumentConflict => "error: an argument cannot be used multiple times"
  | tooManyValues => "error: unexpected value for an argument without one"
  | displayHelp => "\n".intercalate
    ["Access-controlled gateway for OGC map services",
      "",
      "Usage: ows-gate [OPTIONS]",
      "",
      "Options:",
      "  -c, --config <CONFIG>                Path to the configuration file",
      "      --listen <LISTEN>                Listen address",
      "      --renderer <RENDERER>            Renderer service URL",
      "      --projects-root <PROJECTS_ROOT>  Directory with the settings of the projects",
      "  -h, --help                           Print help",
      "  -V, --version                        Print version"]
  | displayVersion => s!"ows-gate {serviceVersion}"

namespace CommandLine

/-- The options that take a value. -/
inductive Opt where
  | config
  | listen
  | renderer
  | projectsRoot
  deriving DecidableEq

/-- Whether the value of an option is a path, which is not empty. -/
def Opt.isPath : Opt → Bool
  | config | projectsRoot => true
  | listen | renderer => false

/-- What has been read so far: the complete options, and the last one while its value
may still be missing. -/
structure Progress where
  stored : List (Opt × String)
  pending? : Option (Opt × Option String)

namespace Progress

/-- Completes an option. -/
def store (stored : List (Opt × String)) (opt : Opt) (value? : Option String) :
    Except UsageError (List (Opt × String)) :=
  match value? with
  | none => .error .invalidValue
  | some value =>
    if stored.any (·.1 = opt) then .error .argumentConflict
    else if opt.isPath && value = "" then .error .invalidValue
    else .ok (stored ++ [(opt, value)])

/-- Completes the last option. -/
def settle (progress : Progress) : Except UsageError (List (Opt × String)) :=
  match progress.pending? with
  | none => .ok progress.stored
  | some (opt, value?) => store progress.stored opt value?

/-- Takes an option, whose value follows in the next argument or was attached. -/
def take (progress : Progress) (opt : Opt) (attached? : Option String) :
    Except UsageError Progress := do
  let stored ← progress.settle
  match attached? with
  | none => return ⟨stored, some (opt, none)⟩
  | some value => return ⟨← store stored opt (some value), none⟩

/-- Ends with a request for information, once the last option is complete. -/
def ask (progress : Progress) (answer : UsageError) : Except UsageError Progress := do
  let _ ← progress.settle
  .error answer

end Progress

/-- What an argument is. -/
inductive Argument where
  | option (opt : Opt) (attached? : Option String)
  | information (answer : UsageError)
  | escape
  | value (text : String)
  | unknown
  /-- An option that takes no value was given one. -/
  | overfull
  deriving DecidableEq

/-- The option of a name, or what it asks for. -/
def Argument.ofName (name : String) (attached? : Option String) : Argument :=
  match name with
  | "config" => option .config attached?
  | "listen" => option .listen attached?
  | "renderer" => option .renderer attached?
  | "projects-root" => option .projectsRoot attached?
  | "help" => if attached?.isSome then overfull else information .displayHelp
  | "version" => if attached?.isSome then overfull else information .displayVersion
  | _ => unknown

/-- What an argument is, by its text. -/
def Argument.ofChars : List Char → Argument
  | ['-', '-'] => escape
  | '-' :: '-' :: l =>
    match Text.splitFirst? '=' l with
    | none => ofName (String.ofList l) none
    | some (name, attached) => ofName (String.ofList name) (some (String.ofList attached))
  | ['-', 'c'] => option .config none
  | '-' :: 'c' :: '=' :: l => option .config (some (String.ofList l))
  | '-' :: 'c' :: l => option .config (some (String.ofList l))
  | '-' :: 'h' :: _ => information .displayHelp
  | '-' :: 'V' :: _ => information .displayVersion
  | ['-'] => value "-"
  | '-' :: _ => unknown
  | l => value (String.ofList l)

/-- Reads arguments. Nothing may follow an escape. -/
def read (progress : Progress) : List String → Except UsageError (List (Opt × String))
  | [] => progress.settle
  | arg :: args =>
    match Argument.ofChars arg.toList with
    | .unknown => .error .unknownArgument
    | .overfull => .error .tooManyValues
    | .escape => if args.isEmpty then progress.settle else .error .unknownArgument
    | .option opt attached? => do read (← progress.take opt attached?) args
    | .information answer => do read (← progress.ask answer) args
    | .value text =>
      match progress.pending? with
      | some (opt, none) => read { progress with pending? := some (opt, some text) } args
      | _ => .error .unknownArgument

/-- The command line with the given options. -/
def ofOptions (options : List (Opt × String)) : CommandLine where
  config := (options.lookup .config).getD "config.yaml"
  listen? := options.lookup .listen
  renderer? := options.lookup .renderer
  projectsRoot? := options.lookup .projectsRoot

/-- Reads a command line. -/
def ofArgs (args : List String) : Except UsageError CommandLine :=
  (read ⟨[], none⟩ args).map ofOptions

end CommandLine

end MapGate
