import ScheduledScaling.Config.Address
import ScheduledScaling.Keyed
import ScheduledScaling.Pass.Reconcile
/-!
The command line of the operator. A setting is taken from its option, or else from its variable
in the environment, or else it has a default. An option's value is the next argument or what
follows an equals sign; each option may be given once. The arguments are read from left to right,
and a value is looked at when the next option begins, or at the end.
-/
namespace ScheduledScaling

structure Config where
  /-- Print the definition of schedules and do nothing else. -/
  generateDefinition : Bool
  dashboardAddress : SocketAddress
  noDashboard : Bool
  /-- How long a request to the cluster may take. -/
  apiTimeout : Duration
  invalidSpecRetry : Duration
  errorRetry : Duration
  deriving DecidableEq, Repr

def Config.settings (c : Config) : Settings := ⟨c.invalidSpecRetry, c.errorRetry⟩

/-- Why the arguments are not run. -/
inductive UsageProblem where
  | help
  | version
  | unknownArgument
  /-- An option has no value. -/
  | missingValue
  /-- A value does not read. -/
  | badValue
  /-- An option is given twice. -/
  | repeated
  /-- A flag has a value. -/
  | unwantedValue
  deriving DecidableEq, Repr

/-- What arguments and variables come to; a duration may leave the range of time. -/
abbrev Usage (α : Type) := ExceptT UsageProblem (Except Overflow) α

namespace Config

inductive Flag where
  | generateDefinition
  | noDashboard
  deriving DecidableEq, Repr

/-- The settings that have a value. -/
inductive Setting where
  | dashboardAddress
  | apiTimeout
  | invalidSpecRetry
  | errorRetry
  deriving DecidableEq, Repr

def Flag.option : Flag → String
  | generateDefinition => "generate-crds"
  | noDashboard => "no-dashboard"

namespace Setting

def all : List Setting := [dashboardAddress, apiTimeout, invalidSpecRetry, errorRetry]

def option : Setting → String
  | dashboardAddress => "dashboard-addr"
  | apiTimeout => "api-timeout"
  | invalidSpecRetry => "invalid-spec-retry"
  | errorRetry => "error-retry"

def variableName : Setting → String
  | dashboardAddress => "DASHBOARD_ADDR"
  | apiTimeout => "API_TIMEOUT"
  | invalidSpecRetry => "INVALID_SPEC_RETRY"
  | errorRetry => "ERROR_RETRY"

end Setting

/-- What was given so far. -/
structure Given where
  flags : List Flag
  address : Option SocketAddress
  durations : List (Setting × Duration)
  deriving DecidableEq, Repr

namespace Given

def nothing : Given := ⟨[], none, []⟩

def duration? (given : Given) (s : Setting) : Option Duration := given.durations.lookup s

def has (given : Given) : Setting → Bool
  | .dashboardAddress => given.address.isSome
  | s => (given.duration? s).isSome

/-- Takes the value of a setting. -/
def take (given : Given) (s : Setting) (value : String) : Usage Given := do
  match s with
  | .dashboardAddress =>
    match SocketAddress.read? value with
    | some address => return { given with address := some address }
    | none => throw .badValue
  | s =>
    match ← ExceptT.lift (Duration.read value.toList) with
    | some d => return { given with durations := (s, d) :: given.durations }
    | none => throw .badValue

/-- Takes the value of an option, which may come once. -/
def takeOnce (given : Given) (s : Setting) (value : String) : Usage Given :=
  if given.has s then throw .repeated else given.take s value

def raise (given : Given) (flag : Flag) : Usage Given :=
  if given.flags.contains flag then throw .repeated
  else return { given with flags := flag :: given.flags }

end Given

/-! ## Arguments -/

/-- An option whose value is not looked at yet, and the value if it came. -/
abbrev Pending := Option (Setting × Option String)

/-- Whether the next argument is the value of an option. -/
def wantsValue : Pending → Option Setting
  | some (s, none) => some s
  | _ => none

def resolve (given : Given) : Pending → Usage Given
  | none => return given
  | some (_, none) => throw .missingValue
  | some (s, some value) => given.takeOnce s value

/-- The parts of a long option: its name, and the value after an equals sign. -/
def splitOption (text : List Char) : String × Option String :=
  match Text.cut? '=' text with
  | some (name, value) => (String.ofList name, some (String.ofList value))
  | none => (String.ofList text, none)

def flag? (name : String) : Option Flag :=
  [Flag.generateDefinition, .noDashboard].find? fun f => f.option = name

def setting? (name : String) : Option Setting := Setting.all.find? fun s => s.option = name

/-- Shows help or the version, once the value before is in order. -/
def stopWith (problem : UsageProblem) (given : Given) (pending : Pending) : Usage Given := do
  let _ ← resolve given pending
  throw problem

/-- A flag, an option, or a request for help, by its long name. -/
def readLong (given : Given) (pending : Pending) (name : String) (value : Option String) :
    Usage (Given × Pending) := do
  match setting? name, value with
  | some s, none => return (← resolve given pending, some (s, none))
  | some s, some value => return (← (← resolve given pending).takeOnce s value, none)
  | none, value =>
    let known := (flag? name).isSome || name = "help" || name = "version"
    if !known then throw .unknownArgument
    if value.isSome then throw .unwantedValue
    if name = "help" then return (← stopWith .help given pending, none)
    if name = "version" then return (← stopWith .version given pending, none)
    match flag? name with
    | some flag => return (← (← resolve given pending).raise flag, none)
    | none => throw .unknownArgument

/-- Letters after one dash; only the first one counts, as each known one ends the reading. -/
def readShort (given : Given) (pending : Pending) : List Char → Usage Given
  | 'h' :: _ => stopWith .help given pending
  | 'V' :: _ => stopWith .version given pending
  | _ => throw .unknownArgument

/-- An argument that is no option is the value of the option before it, or is not known. -/
def readValue (pending : Pending) (text : String) : Usage Pending :=
  match wantsValue pending with
  | some s => return some (s, some text)
  | none => throw .unknownArgument

/-- Reads the arguments in order. After two dashes alone nothing more is known. -/
def readAll : List String → Given → Pending → Usage Given
  | [], given, pending => resolve given pending
  | text :: rest, given, pending =>
    match text.toList with
    | ['-', '-'] => if rest.isEmpty then resolve given pending else throw .unknownArgument
    | '-' :: '-' :: option => do
      let (name, value) := splitOption option
      let (given, pending) ← readLong given pending name value
      readAll rest given pending
    | '-' :: c :: more => do
      let given ← readShort given pending (c :: more)
      readAll rest given none
    | _ => do
      let pending ← readValue pending text
      readAll rest given pending

/-! ## Environment -/

/-- Takes the settings that were not given from their variables. -/
def readVariables (environment : Keyed String) : List Setting → Given → Usage Given
  | [], given => return given
  | s :: rest, given => do
    let given ← match given.has s, environment.get? s.variableName with
      | false, some value => given.take s value
      | _, _ => pure given
    readVariables environment rest given

/-! ## Defaults -/

def defaultAddress : SocketAddress := .short [0, 0, 0, 0] 8082

def defaultApiTimeout : Duration := .ofSeconds 30

def ofGiven (given : Given) : Config where
  generateDefinition := given.flags.contains .generateDefinition
  dashboardAddress := given.address.getD defaultAddress
  noDashboard := given.flags.contains .noDashboard
  apiTimeout := (given.duration? .apiTimeout).getD defaultApiTimeout
  invalidSpecRetry :=
    (given.duration? .invalidSpecRetry).getD Settings.default.invalidSpecRetry
  errorRetry := (given.duration? .errorRetry).getD Settings.default.errorRetry

/-- The configuration of a start. -/
def read (environment : Keyed String) (arguments : List String) : Usage Config := do
  let given ← readAll arguments .nothing none
  return ofGiven (← readVariables environment Setting.all given)

end Config

end ScheduledScaling
