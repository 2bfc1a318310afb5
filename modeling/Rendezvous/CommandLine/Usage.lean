/-!
# What the command line says about itself
-/

namespace Rendezvous.CommandLine

/-- The name and the version of the program. -/
def version : String := "cp-adapter 0.1.0\n"

/-- How the program is called. -/
def usage : String := "Usage: cp-adapter [OPTIONS] <INPUT>"

/-- The lines of the help, given the value of the variable that names the file of settings. -/
def helpLines (configVariable : String) : List String :=
  ["Synchronous facade over an asynchronous contract negotiation and transfer protocol",
   "",
   usage,
   "",
   "Arguments:",
   "  <INPUT>  Input requests CSV file (`key,asset,provider`)",
   "",
   "Options:",
   "      --config <CONFIG>",
   "          Optional TOML configuration file [env: CP_ADAPTER_CONFIG=" ++ configVariable ++ "]",
   "      --catalog <CATALOG>",
   "          Assets the simulated provider offers. Every asset when omitted",
   "      --decline <DECLINE>",
   "          Assets whose negotiation the simulated provider declines",
   "      --silent <SILENT>",
   "          Assets whose negotiation the simulated provider never answers",
   "      --latency-ms <LATENCY_MS>",
   "          Delay before each simulated provider callback [default: 5]",
   "      --timeout-secs <TIMEOUT_SECS>",
   "          How long to wait for each outcome [default: 30]",
   "      --format <FORMAT>",
   "          [default: csv] [possible values: csv, json]",
   "  -h, --help",
   "          Print help",
   "  -V, --version",
   "          Print version"]

/-- The help. -/
def help (configVariable : String) : String :=
  String.join ((helpLines configVariable).map fun line => line ++ "\n")

end Rendezvous.CommandLine
