import CacheMeter.Agent
import CacheMeter.CommandLine.LogFilter
import CacheMeter.Settings.File

/-!
# The command line

Reads the arguments, and says what the program prints and how it exits.

Main results:

- `CommandLine.parse` is the request that arguments make, or the first fault in them.
- `CommandLine.outcome` is what the program does with a request.
-/

namespace CacheMeter.CommandLine

/-! ## Requests -/

/-- An option that takes a value. -/
inductive ValueOption
  | config
  | logLevel
deriving DecidableEq, Repr

/-- How an option is shown in messages. -/
def ValueOption.usage : ValueOption → String
  | .config => "--config <CONFIG>"
  | .logLevel => "--log-level <LOG_LEVEL>"

/-- The values given so far. -/
structure Options where
  configPath : Option String := none
  logLevel : Option String := none
deriving DecidableEq, Repr, Inhabited

/-- What the program is asked to do. -/
inductive Request
  | help
  | helpHelp
  | versionHelp
  | version
  | collect (options : Options)
deriving DecidableEq, Repr

/-- What is wrong with the arguments. -/
inductive UsageFault
  | unexpectedArgument (argument : String)
  | unexpectedValue (value : String)
  | missingValue (option : ValueOption)
  | repeated (option : ValueOption)
  | unknownSubcommand (name : String)
deriving DecidableEq, Repr

/-- The text shown for a fault in the arguments. -/
def UsageFault.message : UsageFault → String
  | .unexpectedArgument argument => "unexpected argument '" ++ argument ++ "' found"
  | .unexpectedValue value =>
    "unexpected value '" ++ value ++ "' for '--help' found; no more were expected"
  | .missingValue option =>
    "a value is required for '" ++ option.usage ++ "' but none was supplied"
  | .repeated option =>
    "the argument '" ++ option.usage ++ "' cannot be used multiple times"
  | .unknownSubcommand name => "unrecognized subcommand '" ++ name ++ "'"

/-! ## Arguments -/

/-- One argument by its form. -/
inductive Argument
  | separator
  | long (name : String) (value : Option String)
  | short (flags : List Char)
  | word (text : String)
deriving DecidableEq, Repr

/-- The form of an argument. -/
def Argument.ofString (text : String) : Argument :=
  match text.toList with
  | ['-', '-'] => .separator
  | '-' :: '-' :: rest =>
    let name := rest.takeWhile fun c => c ≠ '='
    match rest.drop name.length with
    | [] => .long (String.ofList name) none
    | _ :: value => .long (String.ofList name) (some (String.ofList value))
  | '-' :: c :: rest => .short (c :: rest)
  | _ => .word text

/-- The option with a given long name. -/
def ValueOption.ofName? (name : String) : Option ValueOption :=
  if name = "config" then some .config
  else if name = "log-level" then some .logLevel
  else none

/-- Record the value of an option.  No option may be given twice, and a path may not be
empty. -/
def Options.assign (options : Options) (option : ValueOption) (value : String) :
    Except UsageFault Options :=
  match option with
  | .config =>
    if options.configPath.isSome then .error (.repeated .config)
    else if value = "" then .error (.missingValue .config)
    else .ok { options with configPath := some value }
  | .logLevel =>
    if options.logLevel.isSome then .error (.repeated .logLevel)
    else .ok { options with logLevel := some value }

/-! ## Reading -/

/-- An option whose value is the next argument, or was the one just read. -/
structure Pending where
  option : ValueOption
  value : Option String := none
deriving DecidableEq, Repr

/-- How far the arguments have been read.  An option given with its value as the next
argument is pending: it is recorded only when the next option or the end of the
arguments is reached, so that a fault in between is reported in its place. -/
structure Reading where
  options : Options := {}
  pending : Option Pending := none
deriving DecidableEq, Repr

/-- Record the pending option. -/
def Reading.settle (reading : Reading) : Except UsageFault Options :=
  match reading.pending with
  | none => .ok reading.options
  | some { option := option, value := none } => .error (.missingValue option)
  | some { option := option, value := some value } => reading.options.assign option value

/-- The option whose value is the next argument. -/
def Reading.awaited? (reading : Reading) : Option ValueOption :=
  match reading.pending with
  | some { option := option, value := none } => some option
  | _ => none

/-- Go on after an option with or without a value of its own. -/
def Reading.give (reading : Reading) (option : ValueOption) (value : Option String) :
    Except UsageFault Reading := do
  let options ← reading.settle
  match value with
  | some value => return { options := ← options.assign option value }
  | none => return { options := options, pending := some { option := option } }

/-- Go on after a request that ends the reading. -/
def Reading.request (reading : Reading) (request : Request) : Except UsageFault Request :=
  reading.settle.map fun _ => request

/-- Whether a word names a subcommand. -/
def isSubcommand (word : String) : Bool :=
  word = "version" || word = "help"

/-- The request of the `version` subcommand with its arguments. -/
def parseVersion (reading : Reading) : List String → Except UsageFault Request
  | [] => reading.request .version
  | argument :: rest =>
    match Argument.ofString argument with
    | .separator =>
      match rest with
      | [] => reading.request .version
      | word :: _ => .error (.unexpectedArgument word)
    | .long name value =>
      if name = "help" then
        match value with
        | none => .ok .versionHelp
        | some value => .error (.unexpectedValue value)
      else .error (.unexpectedArgument ("--" ++ name))
    | .short (flag :: _) =>
      if flag = 'h' then .ok .versionHelp
      else .error (.unexpectedArgument ("-" ++ String.singleton flag))
    | .short [] => .error (.unexpectedArgument argument)
    | .word word => .error (.unexpectedArgument word)

/-- The request of the `help` subcommand with its arguments. -/
def parseHelp : List String → Except UsageFault Request
  | [] => .ok .help
  | [name] =>
    if name = "version" then .ok .versionHelp
    else if name = "help" then .ok .helpHelp
    else .error (.unknownSubcommand name)
  | name :: other :: _ =>
    if isSubcommand name then .error (.unknownSubcommand other)
    else .error (.unknownSubcommand name)

/-- The request that the rest of the arguments make. -/
def parseFrom (reading : Reading) : List String → Except UsageFault Request
  | [] => do return .collect (← reading.settle)
  | argument :: rest =>
    match Argument.ofString argument with
    | .separator =>
      match rest with
      | [] => do return .collect (← reading.settle)
      | word :: _ =>
        if isSubcommand word then .error (.unexpectedArgument word)
        else .error (.unknownSubcommand word)
    | .long name value =>
      match ValueOption.ofName? name, value with
      | some option, value => do parseFrom (← reading.give option value) rest
      | none, value =>
        if name = "help" then
          match value with
          | none => reading.request .help
          | some value => .error (.unexpectedValue value)
        else .error (.unexpectedArgument ("--" ++ name))
    | .short ['c'] => do parseFrom (← reading.give .config none) rest
    | .short ('c' :: '=' :: value) | .short ('c' :: value) => do
      parseFrom (← reading.give .config (some (String.ofList value))) rest
    | .short ('h' :: _) => reading.request .help
    | .short (flag :: _) => .error (.unexpectedArgument ("-" ++ String.singleton flag))
    | .short [] => .error (.unexpectedArgument argument)
    | .word word =>
      match reading.awaited? with
      | some option =>
        parseFrom { reading with pending := some { option := option, value := some word } } rest
      | none =>
        if word = "version" then parseVersion reading rest
        else if word = "help" then parseHelp rest
        else .error (.unknownSubcommand word)

/-- The request that arguments make. -/
def parse (arguments : List String) : Except UsageFault Request :=
  parseFrom {} arguments

/-! ## Texts -/

/-- The line that the `version` subcommand prints. -/
def versionText : String :=
  "llcwatch 0.1.0 (commit: unknown, linux/x86_64)\n"

/-- What the help of the program prints. -/
def helpText : String :=
  "Per-process cache interference monitor\n\n"
    ++ "Usage: llcwatch [OPTIONS] [COMMAND]\n\n"
    ++ "Commands:\n"
    ++ "  version  Print version information and exit\n"
    ++ "  help     Print this message or the help of the given subcommand(s)\n\n"
    ++ "Options:\n"
    ++ "  -c, --config <CONFIG>        Path to the YAML configuration file\n"
    ++ "      --log-level <LOG_LEVEL>  "
    ++ "Logging verbosity level (trace, debug, info, warn, error) [default: info]\n"
    ++ "  -h, --help                   Print help\n"

/-- What the help of the `help` subcommand prints. -/
def helpHelpText : String :=
  "Print this message or the help of the given subcommand(s)\n\n"
    ++ "Usage: llcwatch help [COMMAND]...\n\n"
    ++ "Arguments:\n"
    ++ "  [COMMAND]...  Print help for the subcommand(s)\n"

/-- What the help of the `version` subcommand prints. -/
def versionHelpText : String :=
  "Print version information and exit\n\n"
    ++ "Usage: llcwatch version\n\n"
    ++ "Options:\n"
    ++ "  -h, --help  Print help\n"

/-! ## Outcomes -/

/-- How the program exits and what it prints. -/
structure Outcome where
  exitCode : Nat
  output : String := ""
  errorText : String := ""
deriving DecidableEq, Repr

/-- The outcome of printing a text. -/
def Outcome.printed (text : String) : Outcome :=
  { exitCode := 0, output := text }

/-- The outcome of arguments at fault. -/
def Outcome.misused (fault : UsageFault) : Outcome :=
  { exitCode := 2, errorText := "error: " ++ fault.message ++ "\n" }

/-- The outcome of a run that failed. -/
def Outcome.failed (message : String) : Outcome :=
  { exitCode := 1, errorText := "Error: " ++ message ++ "\n" }

/-- What collecting comes to, given the contents of the settings file: the log level is
checked first, then the settings, then the rings. -/
def collect (options : Options) (contents : String → Option Bytes) : Outcome :=
  let logLevel := options.logLevel.getD "info"
  if !LogFilter.isValid logLevel then .failed ("invalid log level: " ++ logLevel)
  else
    match options.configPath with
    | none => .failed "--config is required (use --help for usage)"
    | some path =>
      match Settings.ofFile path (contents path) with
      | .error _ => .failed ("loading config from " ++ path)
      | .ok settings =>
        match (Agent.openKernelRings settings).bind Agent.start with
        | .error fault => .failed fault.message
        | .ok _ => .printed ""

/-- What the program does, given how to read a file. -/
def outcome (arguments : List String) (contents : String → Option Bytes) : Outcome :=
  match parse arguments with
  | .error fault => .misused fault
  | .ok .help => .printed helpText
  | .ok .helpHelp => .printed helpHelpText
  | .ok .versionHelp => .printed versionHelpText
  | .ok .version => .printed versionText
  | .ok (.collect options) => collect options contents

/-- The settings file that a run needs, if it comes to that. -/
def fileNeeded? (arguments : List String) : Option String :=
  match parse arguments with
  | .ok (.collect options) => options.configPath
  | _ => none

end CacheMeter.CommandLine
