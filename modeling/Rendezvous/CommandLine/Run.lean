import Rendezvous.Adapter
import Rendezvous.CommandLine.Args
import Rendezvous.CommandLine.Usage
import Rendezvous.Csv.Requests
import Rendezvous.Settings.Load

/-!
# Running the command line

All requests of a file are submitted to an adapter on the simulated provider, and then the outcome
of every key is waited for, in the order in which the keys first came up.  The report has one row
for each key.  Records that are no requests are complained about and otherwise passed over.
-/

namespace Rendezvous.CommandLine

/-- What a run leaves behind. -/
structure Result where
  exit : Nat
  output : List UInt8 := []
  /-- What is said beside the output. -/
  complaints : List String := []
deriving DecidableEq, Repr

/-- The exit code if the settings or a file cannot be used. -/
def unusable : Nat := 1

/-- The exit code if the arguments cannot be used. -/
def misused : Nat := 2

/-- The exit code if a deadline lies beyond the end of time. -/
def beyondTime : Nat := 101

/-- The provider that the arguments describe. -/
def Args.provider (a : Args) : Loopback where
  catalog? := if a.catalog.isEmpty then none else some (a.catalog.map .mk)
  declined := a.decline.map .mk
  silent := a.silent.map .mk
  latency := a.latencyMs

/-- The keys that have been submitted, in the order in which they first came up. -/
def noteKey (keys : List CorrelationKey) (key : CorrelationKey) : List CorrelationKey :=
  if keys.contains key then keys else keys ++ [key]

/-- What submitting the records of a file has come to. -/
structure Submission where
  host : Host Loopback
  keys : List CorrelationKey := []
  complaints : List String := []

namespace Submission

/-- Adds a complaint. -/
def complain (s : Submission) (text : String) : Submission :=
  { s with complaints := s.complaints ++ [text] }

/-- Submits the request of a record, or complains. -/
def enter (s : Submission) : Except Csv.ReadError DataRequest → Submission
  | .error e => s.complain ("Error reading request: " ++ e.message)
  | .ok request =>
      match Adapter.submit s.host request with
      | (some e, host) =>
          { s with host }.complain
            ("Error submitting request " ++ request.key.text ++ ": " ++ e.message)
      | (none, host) => { s with host, keys := noteKey s.keys request.key }

end Submission

/-- Waits up to `span` for the outcome of each key and writes its row; nothing if a deadline lies
beyond the end of time. -/
def report (span : Nat) : List CorrelationKey → Host Loopback → Report.Writer → Option Report.Writer
  | [], _, w => some (w.flush).2
  | key :: keys, host, w =>
      match host.waitFor key span with
      | none => none
      | some (o?, host) => report span keys host (w.write (.ofOutcome key o?)).2

/-- Handles the records of a file on a running adapter. -/
def serve (a : Args) (host : Host Loopback) (bytes : List UInt8) : Result :=
  let s := (Csv.requests { bytes }).foldl Submission.enter { host }
  match report (seconds a.timeoutSecs) s.keys s.host { format := a.format } with
  | none => { exit := beyondTime, complaints := s.complaints }
  | some w => { exit := 0, output := w.sink.taken.toList, complaints := s.complaints }

/-- Runs the program with arguments; `read` gives the bytes of the files that can be read. -/
def run (environment : List (String × String)) (read : String → Option (List UInt8)) (a : Args) :
    Result :=
  let text? (path : String) : Option String :=
    (read path).bind fun bytes => (Text.decode bytes).toOption.map String.ofList
  let file? : Option Settings.SettingsFile :=
    a.config?.map fun path => { path, text? := text? path }
  match Settings.load file? environment with
  | .error e => { exit := unusable, complaints := ["Error: " ++ e.message] }
  | .ok settings =>
      match Adapter.startLoopback settings a.provider with
      | .error e => { exit := unusable, complaints := ["Error: " ++ e.message] }
      | .ok host =>
          match read a.input with
          | none => { exit := unusable, complaints := ["Error: cannot open " ++ a.input] }
          | some bytes => serve a host bytes

/-- Does what the program is called for. -/
def perform (environment : List (String × String)) (read : String → Option (List UInt8))
    (args : List String) : Result :=
  match parse environment args with
  | .error e => { exit := misused, complaints := [e.message, "", usage] }
  | .ok .help =>
      let config := (lookup? environment configVariable).getD ""
      { exit := 0, output := Text.encode (help config).toList }
  | .ok .version => { exit := 0, output := Text.encode version.toList }
  | .ok (.run a) => run environment read a

end Rendezvous.CommandLine
