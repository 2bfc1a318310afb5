import Rendezvous.CommandLine.Run

/-!
# What a run asks for

A run submits every request of its file and then inquires after one key after the other, each time
until there is an outcome or the timeout is over.  An inquiry begins when the one before it has
ended, so later ones may find their outcomes waiting for them.
-/

namespace Rendezvous.CommandLine

/-- The file of settings that the arguments name, as far as it can be read. -/
def Args.settingsFile? (a : Args) (read : String → Option (List UInt8)) :
    Option Settings.SettingsFile :=
  a.config?.map fun path =>
    { path
      text? := (read path).bind fun bytes => (Text.decode bytes).toOption.map String.ofList }

/-- The requests among the records of a file. -/
def readable (records : List (Except Csv.ReadError DataRequest)) : List DataRequest :=
  records.filterMap Except.toOption

/-- Why the other records are no requests. -/
def unreadable (records : List (Except Csv.ReadError DataRequest)) : List Csv.ReadError :=
  records.filterMap fun
    | .error e => some e
    | .ok _ => none

/-- Waiting for the outcome of one key. -/
structure Inquiry where
  key : CorrelationKey
  /-- The instant at which it began. -/
  begun : Nat
  /-- The outcome, if there was one in time. -/
  outcome? : Option Outcome

/-- The row of an inquiry; without an outcome the request is pending. -/
def Inquiry.row (i : Inquiry) : Report.Row := .ofOutcome i.key i.outcome?

/-- Inquires after each key in turn, up to `span`; an inquiry whose deadline lies beyond the end of
time is the last one. -/
def inquire (span : Nat) : List CorrelationKey → Host Loopback → List Inquiry
  | [], _ => []
  | key :: keys, host =>
      match host.waitFor key span with
      | none => [{ key, begun := host.now, outcome? := none }]
      | some (outcome?, later) => { key, begun := host.now, outcome? } :: inquire span keys later

/-- The inquiries of a run on a file with these settings. -/
def Args.inquiries (a : Args) (settings : Settings) (bytes : List UInt8) : List Inquiry :=
  match Adapter.startLoopback settings a.provider with
  | .error _ => []
  | .ok host =>
      let s := (Csv.requests { bytes }).foldl Submission.enter { host }
      inquire (seconds a.timeoutSecs) s.keys s.host

end Rendezvous.CommandLine
