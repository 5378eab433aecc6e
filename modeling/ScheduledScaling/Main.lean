import ScheduledScaling.Config.Arguments
import ScheduledScaling.Schedule.Definition
import ScheduledScaling.Yaml.Printer
/-!
The command line. It prints the definition of schedules, help, or the version, and explains
arguments that it does not run. Serving a cluster needs a connection to one, which is a
`Transport` and not part of this program.
-/
namespace ScheduledScaling.CommandLine

def version : String := "operator 0.1.0"

def help : String :=
  String.intercalate "\n"
    ["Cron-driven workload scaling and resource cleanup", "", "Usage: operator [OPTIONS]", "",
      "Options:",
      "      --generate-crds              Print the definition of schedules as YAML and exit",
      "      --dashboard-addr <ADDRESS>   Listen address of the read-only dashboard",
      "      --no-dashboard               Do not start the dashboard",
      "      --api-timeout <TIME>         Timeout for every request to the cluster",
      "      --invalid-spec-retry <TIME>  Retry delay for schedules with an invalid spec",
      "      --error-retry <TIME>         Retry delay after a failure",
      "  -h, --help                       Print help",
      "  -V, --version                    Print version"]

/-- What to tell about arguments that are not run; none if what was asked for is told. -/
def complaint? : UsageProblem → Option String
  | .help | .version => none
  | .unknownArgument => some "an argument is not known"
  | .missingValue => some "an option has no value"
  | .badValue => some "a value is not valid"
  | .repeated => some "an option is given more than once"
  | .unwantedValue => some "an option takes no value"

/-- The environment's values of the settings. -/
def environment : IO (Keyed String) := do
  let found ← Config.Setting.all.filterMapM fun s => do
    return (← IO.getEnv s.variableName).map fun value => (s.variableName, value)
  return Keyed.ofList found

/-- Ends with a complaint. -/
def fail (code : UInt32) (text : String) : IO UInt32 := do
  IO.eprintln ("error: " ++ text)
  return code

def stop (problem : UsageProblem) : IO UInt32 := do
  match complaint? problem with
  | some text => fail 2 text
  | none =>
    IO.println (if problem = .version then version else help)
    return 0

def run (config : Config) : IO UInt32 := do
  if config.generateDefinition then
    IO.println "---"
    IO.println (Yaml.text Schedule.definition)
    return 0
  fail 1 "there is no connection to a cluster"

end ScheduledScaling.CommandLine

open ScheduledScaling in
def main (arguments : List String) : IO UInt32 := do
  match (Config.read (← CommandLine.environment) arguments).run with
  | .error overflow => CommandLine.fail 101 overflow.message
  | .ok (.error problem) => CommandLine.stop problem
  | .ok (.ok config) => CommandLine.run config
